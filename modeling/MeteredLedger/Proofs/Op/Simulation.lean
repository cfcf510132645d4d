import MeteredLedger.Proofs.Op.Log
import MeteredLedger.Proofs.Op.Nodes

/-!
# Two evaluations side by side

The same operation is evaluated in two contexts.  A relation between the contexts that every step of
the evaluator keeps is kept by the whole evaluation; this is the one induction over operations that
compares two runs.  The first of the two may be lost on the way, if its juice or its depth does not
suffice for a step.  It is then exceptional and does nothing any more, while the second run goes on,
so what is said of a lost run has to survive whatever effects the second one still has.
-/

namespace MeteredLedger

namespace Context

variable {c : Context}

theorem andThen_of_exceptional (hc : c.isExceptional = true) (f : Context → Context) :
    c.andThen f = c := if_pos hc

theorem andThen_of_normal (hc : c.isExceptional = false) (f : Context → Context) :
    c.andThen f = f c := if_neg (Bool.eq_false_iff.mp hc)

/-- An exceptional context has no result to go on with. -/
theorem onResult_of_exceptional (hc : c.isExceptional = true) (f : Context → Value → Context) :
    c.onResult f = c := by
  unfold onResult
  split
  · rename_i v hv
    simp [isExceptional, hv, Outcome.isExceptional] at hc
  · rfl

theorem isExceptional_of_value {v : Value} (h : c.outcome = .value v) :
    c.isExceptional = false := by
  rw [isExceptional, h]
  rfl

theorem isExceptional_of_signal {s : Signal} (h : c.outcome = .signal s) :
    c.isExceptional = true := by
  rw [isExceptional, h]
  rfl

/-- What holds of an exceptional context and after the step holds of both together. -/
theorem andThen_elim {P : Context → Prop} {f : Context → Context}
    (hexceptional : c.isExceptional = true → P c) (hnormal : c.isExceptional = false → P (f c)) :
    P (c.andThen f) := by
  cases hc : c.isExceptional with
  | true =>
      rw [andThen_of_exceptional hc]
      exact hexceptional hc
  | false =>
      rw [andThen_of_normal hc]
      exact hnormal hc

theorem onResult_elim {P : Context → Prop} {f : Context → Value → Context}
    (hexceptional : c.isExceptional = true → P c)
    (hnormal : ∀ v, c.isExceptional = false → P (f c v)) : P (c.onResult f) := by
  unfold onResult
  split
  · rename_i v hv
    exact hnormal v (isExceptional_of_value hv)
  · rename_i s hs
    exact hexceptional (isExceptional_of_signal hs)

end Context

/-! ## Steps made of effects -/

/-- A step that is made of effects. -/
def Effectual (f : Context → Context) : Prop := ∀ c, ∃ log, replay log c = f c

namespace Effectual

variable {f g : Context → Context}

theorem of_run (e : Effect) : Effectual e.run := fun _ ↦ ⟨[e], rfl⟩

theorem comp (hg : Effectual g) (hf : Effectual f) : Effectual fun c ↦ g (f c) := by
  intro c
  obtain ⟨log, hlog⟩ := hf c
  obtain ⟨log', hlog'⟩ := hg (f c)
  exact ⟨log ++ log', by rw [replay_append, hlog, hlog']⟩

theorem andThen (hf : Effectual f) : Effectual (·.andThen f) := by
  intro c
  simp only [Context.andThen]
  split
  · exact ⟨[], rfl⟩
  · exact hf c

theorem onResult {f : Context → Value → Context} (hf : ∀ v, Effectual (f · v)) :
    Effectual (·.onResult f) := by
  intro c
  simp only [Context.onResult]
  split
  · exact hf _ c
  · exact ⟨[], rfl⟩

theorem charged (hf : Effectual f) (n : Nat) : Effectual (·.charged n f) :=
  (hf.andThen.comp (of_run (.charge n))).andThen

theorem apply (b : Builtin) (args : List Value) : Effectual (b.apply args) :=
  fun c ↦ ⟨[b.effect args c], b.run_effect args c⟩

theorem lookup (s : Symbol) : Effectual (·.lookup s) :=
  fun c ↦ ⟨[.conclude (c.lookup s).outcome], c.run_conclude_lookup s⟩

/-- A step that some log explains. -/
theorem of_comes {α : Type} {x : StateT Context (Writer (List Effect)) α} {a : Context → α}
    (h : ∀ c, (explaining fun _ ↦ True).Comes x c (a c) (f c)) : Effectual f := by
  intro c
  obtain ⟨log, -, hreplay, -⟩ := h c
  exact ⟨log, hreplay⟩

theorem eval (op : Op) : Effectual op.eval := fun c ↦ ⟨op.log c, op.replay_log c⟩

theorem nested (op : Op) : Effectual (·.nested op.eval) :=
  of_comes (sound_logging_any.nested fun c ↦
    Reading.comes_evalWith sound_logging_any op (fun n _ ↦ soundIn_logging_any n) c)

theorem evalSequence (ops : List Op) : Effectual (Op.evalSequence ops) :=
  of_comes (Reading.comes_evalSequenceWith sound_logging_any ops fun n _ ↦ soundIn_logging_any n)

theorem evalBranches (ops : List Op) : Effectual (Op.evalBranches ops) :=
  of_comes (Reading.comes_evalBranchesWith sound_logging_any ops fun n _ ↦ soundIn_logging_any n)

theorem evalArgs (ops : List Op) : Effectual fun c ↦ (Op.evalArgs ops c).1 :=
  of_comes (Reading.comes_evalArgsWith sound_logging_any ops fun n _ ↦ soundIn_logging_any n)

/-- Applying a function to arguments that have been evaluated. -/
theorem invoke (f : Builtin) (ops : List Op) :
    Effectual fun c ↦ (Op.evalArgs ops c).1.andThen
      (·.charged (f.applyCost (Op.evalArgs ops c).2.length) (f.apply (Op.evalArgs ops c).2)) :=
  fun c ↦ (((apply f (Op.evalArgs ops c).2).charged _).andThen.comp (evalArgs ops)) c

end Effectual

/-- Evaluating arguments goes on after the first one with its result. -/
theorem Op.fst_evalArgs_cons (op : Op) (ops : List Op) (c : Context) :
    (evalArgs (op :: ops) c).1 = (c.nested op.eval).onResult fun c _ ↦ (evalArgs ops c).1 := by
  simp only [evalArgs, Context.onResult]
  cases (c.nested op.eval).outcome <;> rfl

/-! ## Relations that the steps of the evaluator keep -/

/-- `R` is kept by the steps of two evaluations, up to those at which the first one is `Lost`. -/
structure Simulation (R Lost : Context → Context → Prop) : Prop where
  outcome_eq {c d : Context} : R c d → c.outcome = d.outcome
  depth_eq {c d : Context} : R c d → c.depth = d.depth
  conclude {c d : Context} (o : Outcome) : R c d → R { c with outcome := o } { d with outcome := o }
  level {c d : Context} (n : Nat) : R c d → R { c with depth := n } { d with depth := n }
  define {c d : Context} (s : Symbol) (v : Value) : R c d → R (c.define s v) (d.define s v)
  undefine {c d : Context} (s : Symbol) : R c d → R (c.undefine s) (d.undefine s)
  charge {c d : Context} (n : Nat) : c.isExceptional = false → R c d →
    R (c.charge n) (d.charge n) ∨ Lost (c.charge n) (d.charge n)
  descend {c d : Context} : R c d → R c.descend d.descend ∨ Lost c.descend d.descend
  exceptional {c d : Context} : Lost c d → c.isExceptional = true
  lost_level {c d : Context} (n : Nat) : Lost c d → Lost { c with depth := n } d
  lost_run {c d : Context} (e : Effect) : Lost c d → Lost c (e.run d)

/-- What a node of the tree does by itself agrees in related contexts. -/
def Op.Respects (R : Context → Context → Prop) (op : Op) : Prop :=
  match op with
  | lookup s => ∀ c d, R c d → (c.lookup s).outcome = (d.lookup s).outcome
  | invoke f _ => ∀ args c d, R c d → R (f.apply args c) (f.apply args d)
  | _ => True

namespace Simulation

variable {R Lost : Context → Context → Prop} {c d : Context} {f g : Context → Context}

/-- Two runs are still related, or the first one is lost. -/
def Ends (R Lost : Context → Context → Prop) (c d : Context) : Prop := R c d ∨ Lost c d

/-- A run that is lost stays lost, whatever effects the other one still has. -/
theorem lost_of_effectual (h : Simulation R Lost) (hg : Effectual g) (hlost : Lost c d) :
    Lost c (g d) := by
  obtain ⟨log, hlog⟩ := hg d
  rw [← hlog]
  clear hlog
  induction log generalizing d with
  | nil => exact hlost
  | cons e log ih => exact ih (h.lost_run e hlost)

/-! ### The plumbing -/

theorem isExceptional_eq (h : Simulation R Lost) (hcd : R c d) :
    c.isExceptional = d.isExceptional :=
  congrArg Outcome.isExceptional (h.outcome_eq hcd)

/-- A lost run does not go on. -/
theorem lost_andThen (h : Simulation R Lost) (hg : Effectual g) (hlost : Lost c d) :
    Lost (c.andThen f) (d.andThen g) := by
  rw [Context.andThen_of_exceptional (h.exceptional hlost)]
  exact h.lost_of_effectual (g := (·.andThen g)) hg.andThen hlost

/-- A lost run has no result to go on with. -/
theorem lost_onResult (h : Simulation R Lost) {f g : Context → Value → Context}
    (hg : ∀ v, Effectual (g · v)) (hlost : Lost c d) : Lost (c.onResult f) (d.onResult g) := by
  rw [Context.onResult_of_exceptional (h.exceptional hlost)]
  exact h.lost_of_effectual (g := (·.onResult g)) (.onResult hg) hlost

/-- Related runs go on together, and a lost one stays where it is. -/
theorem andThen (h : Simulation R Lost) (hcd : Ends R Lost c d) (hg : Effectual g)
    (hfg : c.isExceptional = false → R c d → Ends R Lost (f c) (g d)) :
    Ends R Lost (c.andThen f) (d.andThen g) := by
  rcases hcd with hcd | hlost
  · have hd := h.isExceptional_eq hcd
    cases hc : c.isExceptional with
    | true =>
        rw [Context.andThen_of_exceptional hc, Context.andThen_of_exceptional (hd ▸ hc)]
        exact .inl hcd
    | false =>
        rw [Context.andThen_of_normal hc, Context.andThen_of_normal (hd ▸ hc)]
        exact hfg hc hcd
  · exact .inr (h.lost_andThen hg hlost)

/-- Related runs have the same result to go on with. -/
theorem onResult (h : Simulation R Lost) {f : Context → Value → Context}
    (hcd : Ends R Lost c d) (hf : ∀ v, Effectual (f · v))
    (hff : ∀ v, R c d → Ends R Lost (f c v) (f d v)) :
    Ends R Lost (c.onResult f) (d.onResult f) := by
  rcases hcd with hcd | hlost
  · simp only [Context.onResult, ← h.outcome_eq hcd]
    split
    · exact hff _ hcd
    · exact .inl hcd
  · exact .inr (h.lost_onResult hf hlost)

/-- Two charges are both covered, or the first run is lost. -/
theorem charged (h : Simulation R Lost) (n : Nat) (hcd : R c d) (hf : Effectual f)
    (hff : ∀ c d, R c d → Ends R Lost (f c) (f d)) :
    Ends R Lost (c.charged n f) (d.charged n f) := by
  refine h.andThen (.inl hcd) (hf.andThen.comp (.of_run (.charge n))) fun hc _ ↦ ?_
  exact h.andThen (h.charge n hc hcd) hf fun _ hcharged ↦ hff _ _ hcharged

/-- Two levels are both entered, or the first run is lost. -/
theorem nested (h : Simulation R Lost) (hcd : R c d) (hf : Effectual f)
    (hff : ∀ c d, R c d → Ends R Lost (f c) (f d)) :
    Ends R Lost (c.nested f) (d.nested f) := by
  refine h.andThen (h.descend hcd) ((Effectual.of_run (.level d.depth)).comp hf) fun _ hinner ↦ ?_
  rcases hff _ _ hinner with hend | hlost
  · rw [h.depth_eq hcd]
    exact .inl (h.level d.depth hend)
  · exact .inr (h.lost_run (.level d.depth) (h.lost_level c.depth hlost))

/-! ### The induction -/

mutual

/-- An evaluation keeps what its steps keep. -/
theorem eval (h : Simulation R Lost) (op : Op) (hop : ∀ n ∈ op.nodes, n.Respects R)
    (c d : Context) (hcd : R c d) : Ends R Lost (op.eval c) (op.eval d) := by
  have hself : op.Respects R := hop op op.mem_nodes_self
  unfold Op.nodes at hop
  have hparts := (List.forall_mem_cons.mp hop).2
  unfold Op.eval
  match op with
  | .constant v =>
    refine h.charged _ hcd (.of_run (.conclude (.value v))) fun c d hcd ↦ ?_
    exact .inl (h.conclude (.value v) hcd)
  | .lookup s =>
    refine h.charged _ hcd (.lookup s) fun c d hcd ↦ ?_
    dsimp only
    rw [← c.run_conclude_lookup s, ← d.run_conclude_lookup s, hself c d hcd]
    exact .inl (h.conclude _ hcd)
  | .define s body =>
    have hstep (v : Value) : Effectual fun c ↦ (c.define s v).produce v :=
      (Effectual.of_run (.conclude (.value v))).comp (.of_run (.define s v))
    refine h.charged _ hcd ((Effectual.onResult hstep).comp (.nested body)) fun c d hcd ↦ ?_
    refine h.onResult (h.nested hcd (.eval body) (eval h body hparts)) hstep fun v hcd ↦ ?_
    exact .inl (h.conclude (.value v) (h.define s v hcd))
  | .undefine s =>
    refine h.charged _ hcd
      ((Effectual.of_run (.conclude (.value .nil))).comp (.of_run (.undefine s))) fun c d hcd ↦ ?_
    exact .inl (h.conclude (.value .nil) (h.undefine s hcd))
  | .sequence ops =>
    refine h.charged _ hcd
      ((Effectual.evalSequence ops).comp (.of_run (.conclude (.value .nil)))) fun c d hcd ↦ ?_
    exact evalSequence h ops hparts _ _ (h.conclude (.value .nil) hcd)
  | .branch ops =>
    exact h.charged _ hcd (.evalBranches ops) (evalBranches h ops hparts)
  | .invoke f args =>
    refine h.charged _ hcd (.invoke f args) fun c d hcd ↦ ?_
    rcases evalArgs h args hparts c d hcd with ⟨hargs, hvalues⟩ | hlost
    · dsimp only
      rw [hvalues]
      refine h.andThen (.inl hargs) ((Effectual.apply f _).charged _) fun _ hcd ↦ ?_
      exact h.charged _ hcd (.apply f _) fun c d hcd ↦ .inl (hself _ c d hcd)
    · exact .inr (h.lost_andThen ((Effectual.apply f _).charged _) hlost)
termination_by structural op

/-- One operation after the other, up to the one at which the first run is lost. -/
theorem evalSequence (h : Simulation R Lost) (ops : List Op)
    (hops : ∀ n ∈ Op.nodesOf ops, n.Respects R) (c d : Context) (hcd : R c d) :
    Ends R Lost (Op.evalSequence ops c) (Op.evalSequence ops d) := by
  match ops with
  | [] => exact .inl hcd
  | op :: ops =>
    obtain ⟨hop, hops⟩ := List.forall_mem_append.mp hops
    refine h.andThen (h.nested hcd (.eval op) (eval h op hop)) (.evalSequence ops) fun _ hcd ↦ ?_
    exact evalSequence h ops hops _ _ hcd
termination_by structural ops

/-- Both runs take the same branch, since their tests have the same results. -/
theorem evalBranches (h : Simulation R Lost) (ops : List Op)
    (hops : ∀ n ∈ Op.nodesOf ops, n.Respects R) (c d : Context) (hcd : R c d) :
    Ends R Lost (Op.evalBranches ops c) (Op.evalBranches ops d) := by
  match ops with
  | [] => exact .inl (h.conclude (.value .nil) hcd)
  | [default] =>
    obtain ⟨hdefault, -⟩ := List.forall_mem_append.mp hops
    exact h.nested hcd (.eval default) (eval h default hdefault)
  | test :: expr :: rest =>
    obtain ⟨htest, hops⟩ := List.forall_mem_append.mp hops
    obtain ⟨hexpr, hrest⟩ := List.forall_mem_append.mp hops
    have hstep (v : Value) : Effectual fun c ↦
        if v.truthy then c.nested expr.eval else Op.evalBranches rest c := by
      split
      · exact .nested expr
      · exact .evalBranches rest
    refine h.onResult (h.nested hcd (.eval test) (eval h test htest)) hstep fun v hcd ↦ ?_
    split
    · exact h.nested hcd (.eval expr) (eval h expr hexpr)
    · exact evalBranches h rest hrest _ _ hcd
termination_by structural ops

/-- Arguments are evaluated to the same values, unless the first run is lost. -/
theorem evalArgs (h : Simulation R Lost) (ops : List Op)
    (hops : ∀ n ∈ Op.nodesOf ops, n.Respects R) (c d : Context) (hcd : R c d) :
    (R (Op.evalArgs ops c).1 (Op.evalArgs ops d).1 ∧
        (Op.evalArgs ops c).2 = (Op.evalArgs ops d).2) ∨
      Lost (Op.evalArgs ops c).1 (Op.evalArgs ops d).1 := by
  match ops with
  | [] => exact .inl ⟨hcd, rfl⟩
  | op :: ops =>
    obtain ⟨hop, hops⟩ := List.forall_mem_append.mp hops
    rcases h.nested hcd (.eval op) (eval h op hop) with hnext | hlost
    · simp only [Op.evalArgs, ← h.outcome_eq hnext]
      split
      · exact .inl ⟨hnext, rfl⟩
      · rcases evalArgs h ops hops _ _ hnext with ⟨hrest, hvalues⟩ | hlost
        · exact .inl ⟨hrest, by rw [hvalues]⟩
        · exact .inr hlost
    · rw [Op.fst_evalArgs_cons, Op.fst_evalArgs_cons]
      exact .inr (h.lost_onResult (fun _ ↦ .evalArgs ops) hlost)
termination_by structural ops

end

end Simulation

end MeteredLedger
