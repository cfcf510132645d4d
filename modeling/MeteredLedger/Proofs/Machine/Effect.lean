import Mathlib.Data.List.Chain
import MeteredLedger.Machine.Context

/-!
# Effects

A context is changed in seven ways only, each of which is an `Effect`.  What an effect can change is
said once, in `Effect.spares_run`: everything else about single effects is read off there.  A list
of effects is a log.  It is made by `replay`, and its `course` is the list of all contexts that it
goes through, for what is to hold in the middle of a log too.
-/

namespace MeteredLedger

/-- A primitive change of a context. -/
inductive Effect where
  /-- Come to an outcome. -/
  | conclude (o : Outcome)
  | charge (amount : Nat)
  /-- Go to a depth, down or back up. -/
  | level (depth : Nat)
  | define (s : Symbol) (v : Value)
  | undefine (s : Symbol)
  | transfer (target : Address) (amount : Int64)
  | setHolding (owner : Address) (v : Value)

namespace Effect

/-- Makes one change. -/
def run (e : Effect) (c : Context) : Context :=
  match e with
  | conclude o => { c with outcome := o }
  | charge amount => c.charge amount
  | level depth => { c with depth }
  | define s v => c.define s v
  | undefine s => c.undefine s
  | transfer target amount => c.transfer target amount
  | setHolding owner v => c.setHolding owner v

/-! ## What an effect changes -/

/-- An effect that is not a charge. -/
def IsFree (e : Effect) : Prop :=
  match e with
  | charge _ => False
  | _ => True

/-- An effect on the bindings. -/
def IsBinding (e : Effect) : Prop :=
  match e with
  | define .. | undefine _ => True
  | _ => False

/-- An update of the ledger. -/
def IsUpdate (e : Effect) : Prop :=
  match e with
  | transfer .. | setHolding .. => True
  | _ => False

/-- Of the first context, the second has all that the effect does not change.  The outcome aside,
only a charge takes juice, only a change of level moves the depth, only the effects on the bindings
make new ones, and a new ledger comes from a transfer or a holding of the executing account. -/
structure Spares (e : Effect) (c d : Context) : Prop where
  address_eq : d.address = c.address
  origin_eq : d.origin = c.origin
  caller_eq : d.caller = c.caller
  offer_eq : d.offer = c.offer
  sequence_eq : d.sequence = c.sequence
  limits_eq : d.limits = c.limits
  juice_limit_eq : d.juice.limit = c.juice.limit
  juice_eq : e.IsFree → d.juice = c.juice
  depth_eq : (∀ n, e ≠ level n) → d.depth = c.depth
  environment_eq : ¬ e.IsBinding → d.environment = c.environment
  ledger : d.ledger = c.ledger ∨
    (∃ target amount, e = transfer target amount ∧
      c.ledger.transfer c.address target amount = .ok d.ledger) ∨
    ∃ owner v, e = setHolding owner v ∧ c.ledger.setHolding c.address owner v = .ok d.ledger

/-- An effect that comes to an outcome spares everything, such as an update that is refused. -/
theorem spares_conclude (e : Effect) (c : Context) (o : Outcome) :
    e.Spares c { c with outcome := o } :=
  ⟨rfl, rfl, rfl, rfl, rfl, rfl, rfl, fun _ ↦ rfl, fun _ ↦ rfl, fun _ ↦ rfl, .inl rfl⟩

/-- What an effect can change. -/
theorem spares_run (e : Effect) (c : Context) : e.Spares c (e.run c) := by
  cases e with
  | conclude o => exact spares_conclude _ c o
  | charge amount =>
      simp only [run, Context.charge]
      split
      all_goals exact ⟨rfl, rfl, rfl, rfl, rfl, rfl, rfl, False.elim, fun _ ↦ rfl, fun _ ↦ rfl,
        .inl rfl⟩
  | level depth =>
      exact ⟨rfl, rfl, rfl, rfl, rfl, rfl, rfl, fun _ ↦ rfl, fun h ↦ absurd rfl (h depth),
        fun _ ↦ rfl, .inl rfl⟩
  | define s v =>
      exact ⟨rfl, rfl, rfl, rfl, rfl, rfl, rfl, fun _ ↦ rfl, fun _ ↦ rfl,
        fun h ↦ absurd trivial h, .inl rfl⟩
  | undefine s =>
      simp only [run, Context.undefine]
      split
      all_goals exact ⟨rfl, rfl, rfl, rfl, rfl, rfl, rfl, fun _ ↦ rfl, fun _ ↦ rfl,
        fun h ↦ absurd trivial h, .inl rfl⟩
  | transfer target amount =>
      simp only [run, Context.transfer]
      cases h : c.ledger.transfer c.address target amount with
      | error e => exact spares_conclude _ c _
      | ok s =>
          exact ⟨rfl, rfl, rfl, rfl, rfl, rfl, rfl, fun _ ↦ rfl, fun _ ↦ rfl, fun _ ↦ rfl,
            .inr (.inl ⟨target, amount, rfl, h⟩)⟩
  | setHolding owner v =>
      simp only [run, Context.setHolding]
      cases h : c.ledger.setHolding c.address owner v with
      | error e => exact spares_conclude _ c _
      | ok s =>
          exact ⟨rfl, rfl, rfl, rfl, rfl, rfl, rfl, fun _ ↦ rfl, fun _ ↦ rfl, fun _ ↦ rfl,
            .inr (.inr ⟨owner, v, rfl, h⟩)⟩

/-- An effect that is no update leaves the ledger alone. -/
theorem ledger_run {e : Effect} (he : ¬ e.IsUpdate) (c : Context) :
    (e.run c).ledger = c.ledger := by
  rcases (e.spares_run c).ledger with h | ⟨target, amount, rfl, -⟩ | ⟨owner, v, rfl, -⟩
  · exact h
  · exact absurd trivial he
  · exact absurd trivial he

end Effect

/-! ## Logs -/

/-- Makes the changes of a log, one after the other. -/
def replay (log : List Effect) (c : Context) : Context := log.foldl (fun c e ↦ e.run c) c

@[simp] theorem replay_nil (c : Context) : replay [] c = c := rfl
@[simp] theorem replay_cons (e : Effect) (log : List Effect) (c : Context) :
    replay (e :: log) c = replay log (e.run c) := rfl
@[simp] theorem replay_append (log log' : List Effect) (c : Context) :
    replay (log ++ log') c = replay log' (replay log c) := List.foldl_append

/-- The contexts that a log goes through, with the first and the last. -/
def course (log : List Effect) (c : Context) : List Context :=
  match log with
  | [] => [c]
  | e :: log => c :: course log (e.run c)

/-- A course begins with the context that the log is made in. -/
theorem head?_course (log : List Effect) (c : Context) : (course log c).head? = some c := by
  cases log <;> rfl

/-- A course ends with what the log comes to. -/
theorem getLast?_course (log : List Effect) (c : Context) :
    (course log c).getLast? = some (replay log c) := by
  induction log generalizing c with
  | nil => rfl
  | cons e log ih => rw [course, List.getLast?_cons, ih, Option.getD_some, replay_cons]

/-- What a log comes to is on its course. -/
theorem replay_mem_course (log : List Effect) (c : Context) : replay log c ∈ course log c :=
  List.mem_of_getLast? (getLast?_course log c)

/-- What holds across every effect holds from each context of a course to the next. -/
theorem isChain_course {R : Context → Context → Prop}
    (hrun : ∀ (e : Effect) (c : Context), R c (e.run c)) (log : List Effect) (c : Context) :
    (course log c).IsChain R := by
  induction log generalizing c with
  | nil => exact .singleton c
  | cons e log ih =>
      refine (ih (e.run c)).cons fun d hd ↦ ?_
      obtain rfl : e.run c = d := Option.some.inj ((head?_course log _).symm.trans hd)
      exact hrun e c

/-- What every effect of a log keeps holds all along its course. -/
theorem of_mem_course {P : Context → Prop} {log : List Effect}
    (hrun : ∀ e ∈ log, ∀ c, P c → P (e.run c)) {c d : Context} (hc : P c) (hd : d ∈ course log c) :
    P d := by
  induction log generalizing c with
  | nil => exact List.mem_singleton.mp hd ▸ hc
  | cons e log ih =>
      rcases List.mem_cons.mp hd with rfl | hd
      · exact hc
      · exact ih (fun e he ↦ hrun e (List.mem_cons_of_mem _ he))
          (hrun e List.mem_cons_self c hc) hd

/-- A reflexive and transitive relation that holds across every effect holds from the first context
of a course to every other. -/
theorem rel_of_mem_course {R : Context → Context → Prop} (hrefl : ∀ c, R c c)
    (htrans : ∀ {c d e}, R c d → R d e → R c e) (hrun : ∀ (e : Effect) (c : Context), R c (e.run c))
    {log : List Effect} {c d : Context} (hd : d ∈ course log c) : R c d :=
  of_mem_course (P := R c) (fun e _ d h ↦ htrans h (hrun e d)) (hrefl c) hd

end MeteredLedger
