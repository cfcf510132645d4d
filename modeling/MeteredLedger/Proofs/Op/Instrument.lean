import Mathlib.Control.Monad.Writer
import MeteredLedger.Op.Eval
import MeteredLedger.Proofs.Op.Nodes

/-!
# Instrumented evaluation

Some facts are about the way of an evaluation and not only about its end: which effects it has,
where the evaluator calls itself, and that it never does what would stop a host.  So the evaluator
is written here a second time, with its primitive steps as a parameter and in any monad.  An
`Instrument` says what the steps are, and it may stop the evaluation or keep a record of it.

What the instrumented evaluator has to do with `Op.eval` is proved once.  A `Reading` says how a
step in the monad is related to what it comes to.  If the reading is right about the steps of all
nodes, then it is right about the evaluation (`Reading.comes_evalWith`).  That a record explains its
evaluation, that it is bounded, and that nothing is stopped are readings of the same evaluator.
-/

namespace MeteredLedger

/-- The primitive steps of an evaluation, in a monad that may stop it or keep a record. -/
structure Instrument (m : Type → Type) where
  /-- An operation is about to be evaluated. -/
  call : StateT Context m Unit
  charge (amount : Nat) : StateT Context m Unit
  /-- One level deeper. -/
  descend : StateT Context m Unit
  /-- Back to the depth of the caller. -/
  ascend (depth : Nat) : StateT Context m Unit
  /-- The result, asked for only after the context was seen not to be exceptional. -/
  result : StateT Context m Value
  produce (v : Value) : StateT Context m Unit
  lookup (s : Symbol) : StateT Context m Unit
  define (s : Symbol) (v : Value) : StateT Context m Unit
  undefine (s : Symbol) : StateT Context m Unit
  apply (f : Builtin) (args : List Value) : StateT Context m Unit

variable {m : Type → Type} [Monad m]

/-! ## The evaluator -/

namespace Instrument

/-- The steps of the evaluator as they are. -/
def plain : Instrument m where
  call := pure ()
  charge amount := modify (·.charge amount)
  descend := modify (·.descend)
  ascend depth := modify ({ · with depth })
  result := do return (← get).result.toOption.getD .nil
  produce v := modify (·.produce v)
  lookup s := modify (·.lookup s)
  define s v := modify (·.define s v)
  undefine s := modify (·.undefine s)
  apply f args := modify (f.apply args)

/-- Goes on unless the context is exceptional. -/
def whenNormal (step : StateT Context m Unit) : StateT Context m Unit := do
  if (← get).isExceptional then return () else step

variable (I : Instrument m)

/-- Goes on with the result unless the context is exceptional. -/
def onResult (step : Value → StateT Context m Unit) : StateT Context m Unit :=
  whenNormal do step (← I.result)

/-- Takes a step after it has been paid for. -/
def charged (amount : Nat) (step : StateT Context m Unit) : StateT Context m Unit :=
  whenNormal do
    I.charge amount
    whenNormal step

/-- Takes a step one level deeper and comes back to the depth of the caller. -/
def nested (step : StateT Context m Unit) : StateT Context m Unit := do
  let caller ← get
  I.descend
  whenNormal do
    step
    I.ascend caller.depth

end Instrument

namespace Op

open Instrument

variable (I : Instrument m)

mutual

/-- Evaluates an operation in the steps of an instrument. -/
def evalWith (op : Op) : StateT Context m Unit := do
  I.call
  I.charged op.cost <|
    match op with
    | constant v => I.produce v
    | lookup s => I.lookup s
    | define s body => do
      I.nested (evalWith body)
      I.onResult fun v ↦ do
        I.define s v
        I.produce v
    | undefine s => do
      I.undefine s
      I.produce .nil
    | sequence ops => do
      I.produce .nil
      evalSequenceWith ops
    | branch ops => evalBranchesWith ops
    | invoke f args => do
      let vs ← evalArgsWith args
      whenNormal <| I.charged (f.applyCost vs.length) (I.apply f vs)
termination_by structural op

/-- Evaluates one operation after the other, up to the first signal. -/
def evalSequenceWith (ops : List Op) : StateT Context m Unit :=
  match ops with
  | [] => pure ()
  | op :: ops => do
    I.nested (evalWith op)
    whenNormal (evalSequenceWith ops)
termination_by structural ops

/-- Evaluates tests in turn until one is true, and then its expression. -/
def evalBranchesWith (ops : List Op) : StateT Context m Unit :=
  match ops with
  | [] => I.produce .nil
  | [default] => I.nested (evalWith default)
  | test :: expr :: rest => do
    I.nested (evalWith test)
    I.onResult fun v ↦ if v.truthy then I.nested (evalWith expr) else evalBranchesWith rest
termination_by structural ops

/-- Evaluates arguments from left to right, up to the first signal, and collects the results. -/
def evalArgsWith (ops : List Op) : StateT Context m (List Value) :=
  match ops with
  | [] => pure []
  | op :: ops => do
    I.nested (evalWith op)
    if (← get).isExceptional then return []
    else
      let v ← I.result
      let vs ← evalArgsWith ops
      return v :: vs
termination_by structural ops

end

end Op

/-! ## Readings -/

/-- A relation between steps in a monad and what they come to: `Comes x c a d` says that `x`, begun
in `c`, gives `a` and ends in `d`.  It has to pass from steps to what is made of them. -/
structure Reading (m : Type → Type) [Monad m] where
  Comes {α : Type} : StateT Context m α → Context → α → Context → Prop
  comes_pure {α : Type} (a : α) (c : Context) : Comes (pure a) c a c
  comes_get (c : Context) : Comes get c c c
  comes_bind {α β : Type} {x : StateT Context m α} {f : α → StateT Context m β} {a : α} {b : β}
    {c d e : Context} : Comes x c a d → Comes (f a) d b e → Comes (x >>= f) c b e

/-- The steps that every node takes are what they stand for. -/
structure Instrument.Sound (I : Instrument m) (R : Reading m) : Prop where
  call (c : Context) : R.Comes I.call c () c
  result {c : Context} {v : Value} : c.outcome = .value v → R.Comes I.result c v c
  produce (v : Value) (c : Context) : R.Comes (I.produce v) c () (c.produce v)
  nested {step : StateT Context m Unit} {f : Context → Context} :
    (∀ c, R.Comes step c () (f c)) → ∀ c, R.Comes (I.nested step) c () (c.nested f)

/-- The steps that a node takes by itself are what they stand for. -/
structure Op.SoundIn (I : Instrument m) (R : Reading m) (op : Op) : Prop where
  cost (c : Context) : R.Comes (I.charge op.cost) c () (c.charge op.cost)
  lookup (s : Symbol) (c : Context) : op = .lookup s → R.Comes (I.lookup s) c () (c.lookup s)
  define (s : Symbol) (body : Op) (v : Value) (c : Context) : op = .define s body →
    R.Comes (I.define s v) c () (c.define s v)
  undefine (s : Symbol) (c : Context) : op = .undefine s →
    R.Comes (I.undefine s) c () (c.undefine s)
  applyCost (f : Builtin) (ops : List Op) (argc : Nat) (c : Context) : op = .invoke f ops →
    R.Comes (I.charge (f.applyCost argc)) c () (c.charge (f.applyCost argc))
  apply (f : Builtin) (ops : List Op) (args : List Value) (c : Context) : op = .invoke f ops →
    R.Comes (I.apply f args) c () (f.apply args c)

namespace Reading

open Instrument Op

variable {R : Reading m} {I : Instrument m} {step : StateT Context m Unit} {f : Context → Context}
  {c : Context}

/-- A step that is taken unless the context is exceptional. -/
theorem comes_whenNormal (h : R.Comes step c () (f c)) :
    R.Comes (whenNormal step) c () (c.andThen f) := by
  refine R.comes_bind (R.comes_get c) ?_
  unfold Context.andThen
  split
  · exact R.comes_pure () c
  · exact h

/-- A result is asked for only where there is one. -/
theorem comes_onResult (hI : I.Sound R) {step : Value → StateT Context m Unit}
    {f : Context → Value → Context} (h : ∀ v, R.Comes (step v) c () (f c v)) :
    R.Comes (I.onResult step) c () (c.onResult f) := by
  refine R.comes_bind (R.comes_get c) ?_
  unfold Context.isExceptional Context.onResult
  cases hc : c.outcome with
  | value v => exact R.comes_bind (hI.result hc) (h v)
  | signal s => exact R.comes_pure () c

/-- A step that has been paid for. -/
theorem comes_charged {amount : Nat}
    (hcharge : R.Comes (I.charge amount) c () (c.charge amount))
    (h : ∀ c, R.Comes step c () (f c)) :
    R.Comes (I.charged amount step) c () (c.charged amount f) :=
  comes_whenNormal (f := fun c ↦ (c.charge amount).andThen f)
    (R.comes_bind hcharge (comes_whenNormal (h _)))

/-- A step one level deeper is what it stands for, if the ways down and back up are. -/
theorem comes_nested (hdescend : R.Comes I.descend c () c.descend)
    (hascend : ∀ d, R.Comes (I.ascend c.depth) d () { d with depth := c.depth })
    (h : ∀ c, R.Comes step c () (f c)) : R.Comes (I.nested step) c () (c.nested f) := by
  refine R.comes_bind (R.comes_get c) (R.comes_bind hdescend ?_)
  exact comes_whenNormal (f := fun inner ↦ { f inner with depth := c.depth })
    (R.comes_bind (h c.descend) (hascend _))

mutual

/-- An instrumented evaluation is an evaluation, if the steps of its nodes are what they stand
for. -/
theorem comes_evalWith (hI : I.Sound R) (op : Op) (hop : ∀ n ∈ op.nodes, n.SoundIn I R)
    (c : Context) : R.Comes (op.evalWith I) c () (op.eval c) := by
  have hself : op.SoundIn I R := hop op op.mem_nodes_self
  unfold Op.nodes at hop
  have hparts := (List.forall_mem_cons.mp hop).2
  unfold evalWith eval
  refine R.comes_bind (hI.call c) (comes_charged (hself.cost c) fun c ↦ ?_)
  match op with
  | .constant v => exact hI.produce v c
  | .lookup s => exact hself.lookup s c rfl
  | .define s body =>
    refine R.comes_bind (hI.nested (comes_evalWith hI body hparts) c) ?_
    refine comes_onResult hI fun v ↦ ?_
    exact R.comes_bind (hself.define s body v _ rfl) (hI.produce v _)
  | .undefine s => exact R.comes_bind (hself.undefine s c rfl) (hI.produce .nil _)
  | .sequence ops =>
    exact R.comes_bind (hI.produce .nil c) (comes_evalSequenceWith hI ops hparts _)
  | .branch ops => exact comes_evalBranchesWith hI ops hparts c
  | .invoke f args =>
    refine R.comes_bind (comes_evalArgsWith hI args hparts c) (comes_whenNormal ?_)
    exact comes_charged (hself.applyCost f args _ _ rfl) fun c ↦ hself.apply f args _ c rfl
termination_by structural op

/-- One operation after the other. -/
theorem comes_evalSequenceWith (hI : I.Sound R) (ops : List Op)
    (hops : ∀ n ∈ nodesOf ops, n.SoundIn I R) (c : Context) :
    R.Comes (evalSequenceWith I ops) c () (evalSequence ops c) := by
  match ops with
  | [] => exact R.comes_pure () c
  | op :: ops =>
    obtain ⟨hop, hops⟩ := List.forall_mem_append.mp hops
    refine R.comes_bind (hI.nested (comes_evalWith hI op hop) c) ?_
    exact comes_whenNormal (comes_evalSequenceWith hI ops hops _)
termination_by structural ops

/-- Tests in turn until one is true. -/
theorem comes_evalBranchesWith (hI : I.Sound R) (ops : List Op)
    (hops : ∀ n ∈ nodesOf ops, n.SoundIn I R) (c : Context) :
    R.Comes (evalBranchesWith I ops) c () (evalBranches ops c) := by
  match ops with
  | [] => exact hI.produce .nil c
  | [default] =>
    obtain ⟨hdefault, -⟩ := List.forall_mem_append.mp hops
    exact hI.nested (comes_evalWith hI default hdefault) c
  | test :: expr :: rest =>
    obtain ⟨htest, hops⟩ := List.forall_mem_append.mp hops
    obtain ⟨hexpr, hrest⟩ := List.forall_mem_append.mp hops
    refine R.comes_bind (hI.nested (comes_evalWith hI test htest) c) ?_
    refine comes_onResult hI fun v ↦ ?_
    split
    · exact hI.nested (comes_evalWith hI expr hexpr) _
    · exact comes_evalBranchesWith hI rest hrest _
termination_by structural ops

/-- The values of the arguments are the same as well. -/
theorem comes_evalArgsWith (hI : I.Sound R) (ops : List Op)
    (hops : ∀ n ∈ nodesOf ops, n.SoundIn I R) (c : Context) :
    R.Comes (evalArgsWith I ops) c (evalArgs ops c).2 (evalArgs ops c).1 := by
  match ops with
  | [] => exact R.comes_pure [] c
  | op :: ops =>
    obtain ⟨hop, hops⟩ := List.forall_mem_append.mp hops
    refine R.comes_bind (hI.nested (comes_evalWith hI op hop) c) ?_
    refine R.comes_bind (R.comes_get _) ?_
    unfold evalArgs Context.isExceptional
    cases hnext : (c.nested op.eval).outcome with
    | signal s => simp only [hnext]; exact R.comes_pure [] _
    | value v =>
      simp only [hnext]
      refine R.comes_bind (hI.result hnext) ?_
      exact R.comes_bind (comes_evalArgsWith hI ops hops _) (R.comes_pure _ _)
termination_by structural ops

end

/-! ## Two kinds of readings -/

/-- The step is not stopped. -/
def total (ε : Type) : Reading (Except ε) where
  Comes x c a d := x.run c = .ok (a, d)
  comes_pure _ _ := rfl
  comes_get _ := rfl
  comes_bind {_ _ x f _ _ c _ _} hx hf := by
    change (x.run c >>= fun p ↦ (f p.1).run p.2) = _
    rw [hx]
    exact hf

variable {ω : Type}

/-- The record that the step keeps leads from the first context to the last. -/
def recording (Leads : Context → List ω → Context → Prop) (hnil : ∀ c, Leads c [] c)
    (happend : ∀ {c d e l l'}, Leads c l d → Leads d l' e → Leads c (l ++ l') e) :
    Reading (Writer (List ω)) where
  Comes x c a d := ∃ l, (x.run c).run = ((a, d), l) ∧ Leads c l d
  comes_pure _ c := ⟨[], rfl, hnil c⟩
  comes_get c := ⟨[], rfl, hnil c⟩
  comes_bind {_ _ x f a b c d e} := by
    rintro ⟨l, hx, hl⟩ ⟨l', hf, hl'⟩
    refine ⟨l ++ l', ?_, happend hl hl'⟩
    calc ((x >>= f).run c).run
        = (fun q ↦ (q.1, (x.run c).run.2 ++ q.2))
            ((f (x.run c).run.1.1).run (x.run c).run.1.2).run := rfl
      _ = ((b, e), l ++ l') := by rw [hx, hf]

/-- The context is looked at and nothing is put on record. -/
theorem run_plain_result {c : Context} {v : Value} (hc : c.outcome = .value v) :
    ((Instrument.plain.result : StateT Context (Writer (List ω)) Value).run c).run =
      ((v, c), []) := by
  change ((c.result.toOption.getD .nil, c), []) = ((v, c), ([] : List ω))
  rw [Context.result, hc]
  rfl

end Reading

end MeteredLedger
