import MeteredLedger.Proofs.Op.Calls
import MeteredLedger.Proofs.Op.Outcomes
import MeteredLedger.Proofs.Op.Terms

/-!
# The limit of the depth

The limit of the depth shows in one place only, where a part is to be evaluated one level deeper.
So an evaluation that is not refused a level does the same under a higher limit.  One that is
refused ends there, with an error that says so; and it must have come to a part that lies deeper
than the limit allows, which an operation of small height does not have.  The two are proved side by
side: `Agrees` compares a run with the run under the higher limit, up to a refusal and what a
refusal implies.
-/

namespace MeteredLedger

namespace Op

mutual

/-- How many levels an operation has below its own. -/
def height (op : Op) : Nat :=
  match op with
  | constant _ | lookup _ | undefine _ => 0
  | define _ body => 1 + height body
  | sequence ops | branch ops | invoke _ ops => heightOf ops
termination_by structural op

/-- How many levels there are with these parts: none without any, and else one more than the highest
of them has. -/
def heightOf (ops : List Op) : Nat :=
  match ops with
  | [] => 0
  | op :: ops => max (1 + height op) (heightOf ops)
termination_by structural ops

end

end Op

/-! ## Contexts under another limit -/

namespace Context

/-- The context with another limit of the depth. -/
def withMaxDepth (c : Context) (m : Nat) : Context :=
  { c with limits := { c.limits with maxDepth := m } }

variable {c : Context} {M n : Nat}

/-- The context is at the depth `n` of at most `M`. -/
structure IsAt (c : Context) (M n : Nat) : Prop where
  maxDepth_eq : c.limits.maxDepth = M
  depth_eq : c.depth = n

/-- A step that is made of effects and comes back to its depth stays at it. -/
theorem IsAt.of_effectual {f : Context → Context} (h : c.IsAt M n) (hf : Effectual f)
    (hdepth : (f c).depth = c.depth) : (f c).IsAt M n where
  maxDepth_eq := by rw [hf.limits_eq, h.maxDepth_eq]
  depth_eq := hdepth.trans h.depth_eq

theorem IsAt.charge (h : c.IsAt M n) (amount : Nat) : (c.charge amount).IsAt M n :=
  h.of_effectual (.of_run (.charge amount)) (c.depth_charge amount)

/-- A part that has been evaluated one level deeper has come back. -/
theorem IsAt.nested (h : c.IsAt M n) (hc : c.isExceptional = false) (op : Op) :
    (c.nested op.eval).IsAt M n :=
  h.of_effectual (.nested op) (depth_nested hc op.eval)

variable (c) (m : Nat)

/-- A charge does not ask for the limit of the depth. -/
theorem charge_withMaxDepth (amount : Nat) :
    (c.withMaxDepth m).charge amount = (c.charge amount).withMaxDepth m := by
  simp only [charge, apply_ite (withMaxDepth · m)]
  rfl

/-- No special variable shows the limit. -/
theorem lookup_withMaxDepth (s : Symbol) :
    (c.withMaxDepth m).lookup s = (c.lookup s).withMaxDepth m := by
  have houtcome : ((c.withMaxDepth m).lookup s).outcome = (c.lookup s).outcome := by
    refine outcome_lookup_onTerms (t := (c.withMaxDepth m).terms) fun special _ ↦ ?_
    exact special.valueIn_onTerms (fun _ ↦ rfl) (fun _ ↦ rfl) (fun _ ↦ rfl)
  rw [← run_conclude_lookup, ← c.run_conclude_lookup, houtcome]
  rfl

end Context

/-- An effect that is no charge does not ask for the limit of the depth. -/
theorem Effect.run_withMaxDepth {e : Effect} (he : e.IsFree) (c : Context) (m : Nat) :
    e.run (c.withMaxDepth m) = (e.run c).withMaxDepth m := by
  have hterms : (c.withMaxDepth m).terms =
      { (e.run c).terms with limits := { (e.run c).terms.limits with maxDepth := m } } := by
    rw [e.terms_run he]
    rfl
  calc e.run (c.withMaxDepth m)
      = (e.run c).onTerms (c.withMaxDepth m).terms :=
        e.run_onTerms he c (c.withMaxDepth m).terms
    _ = (e.run c).withMaxDepth m := by rw [hterms]; rfl

/-- No function asks for the limit of the depth. -/
theorem Builtin.apply_withMaxDepth (f : Builtin) (args : List Value) (c : Context) (m : Nat) :
    f.apply args (c.withMaxDepth m) = (f.apply args c).withMaxDepth m := by
  have heffect : f.effect args (c.withMaxDepth m) = f.effect args c :=
    f.effect_onTerms args c (c.withMaxDepth m).terms
  rw [← f.run_effect args c, ← f.run_effect args (c.withMaxDepth m), heffect]
  exact Effect.run_withMaxDepth (f.isFree_effect args c) c m

/-! ## Runs under two limits -/

/-- The second run is the first one under the limit `m`, or the first one was refused a level, which
implies `P`. -/
def Agrees (m : Nat) (P : Prop) (c d : Context) : Prop :=
  d = c.withMaxDepth m ∨ (c.outcome.HasCode .depth ∧ P)

namespace Agrees

variable {m M n k : Nat} {P Q : Prop} {c d : Context}

theorem same (c : Context) : Agrees m P c (c.withMaxDepth m) := .inl rfl

theorem mono (h : Agrees m P c d) (hPQ : P → Q) : Agrees m Q c d :=
  h.imp_right fun ⟨hcode, hP⟩ ↦ ⟨hcode, hPQ hP⟩

theorem level (h : Agrees m P c d) (depth : Nat) :
    Agrees m P { c with depth } { d with depth } := by
  rcases h with rfl | hrefused
  · exact .same { c with depth }
  · exact .inr hrefused

/-- A run that was refused does nothing any more, whatever the other one still does. -/
theorem andThen (h : Agrees m P c d) {f : Context → Context}
    (hf : c.isExceptional = false → Agrees m P (f c) (f (c.withMaxDepth m))) :
    Agrees m P (c.andThen f) (d.andThen f) := by
  rcases h with rfl | ⟨hcode, hP⟩
  · cases hc : c.isExceptional with
    | true =>
        rw [Context.andThen_of_exceptional hc,
          Context.andThen_of_exceptional (c := c.withMaxDepth m) hc]
        exact .same c
    | false =>
        rw [Context.andThen_of_normal hc, Context.andThen_of_normal (c := c.withMaxDepth m) hc]
        exact hf hc
  · rw [Context.andThen_of_exceptional hcode.isExceptional]
    exact .inr ⟨hcode, hP⟩

/-- Runs that agree go on with the same result. -/
theorem onResult (h : Agrees m P c d) {f : Context → Value → Context}
    (hf : ∀ v, c.isExceptional = false → Agrees m P (f c v) (f (c.withMaxDepth m) v)) :
    Agrees m P (c.onResult f) (d.onResult f) := by
  rcases h with rfl | ⟨hcode, hP⟩
  · have houtcome : (c.withMaxDepth m).outcome = c.outcome := rfl
    unfold Context.onResult
    rw [houtcome]
    cases hc : c.outcome with
    | value v => exact hf v (Context.isExceptional_of_value hc)
    | signal s => exact .same c
  · rw [Context.onResult_of_exceptional hcode.isExceptional]
    exact .inr ⟨hcode, hP⟩

/-- A context is charged alike under both limits, and has not moved when the step begins. -/
theorem charged (hc : c.IsAt M n) (amount : Nat) {f : Context → Context}
    (hf : ∀ d, d.IsAt M n → d.isExceptional = false →
      Agrees m P (f d) (f (d.withMaxDepth m))) :
    Agrees m P (c.charged amount f) ((c.withMaxDepth m).charged amount f) := by
  refine (same c).andThen fun _ ↦ ?_
  rw [c.charge_withMaxDepth]
  exact (same _).andThen (hf _ (hc.charge amount))

/-- A level that is refused is one level too many. -/
theorem nested (hm : M ≤ m) (hc : c.IsAt M n) {f : Context → Context}
    (hf : ∀ d, d.IsAt M (n + 1) → Agrees m (M < n + 1 + k) (f d) (f (d.withMaxDepth m))) :
    Agrees m (M < n + (1 + k)) (c.nested f) ((c.withMaxDepth m).nested f) := by
  obtain ⟨rfl, rfl⟩ := hc
  unfold Context.nested
  by_cases hdeep : c.limits.maxDepth ≤ c.depth
  · have hrefused : c.descend =
        c.fail .depth ("max depth " ++ Text.ofInt c.limits.maxDepth ++ " exceeded") := if_pos hdeep
    rw [hrefused]
    exact .inr ⟨⟨_, rfl⟩, by omega⟩
  · have hdescend : c.descend = { c with depth := c.depth + 1 } := if_neg hdeep
    have hdescend' : (c.withMaxDepth m).descend =
        ({ c with depth := c.depth + 1 } : Context).withMaxDepth m :=
      if_neg (show ¬ m ≤ c.depth by omega)
    rw [hdescend, hdescend']
    refine (same _).andThen fun _ ↦ ?_
    have hinner := hf { c with depth := c.depth + 1 } ⟨rfl, rfl⟩
    exact (hinner.level c.depth).mono (by omega)

end Agrees

namespace Op

variable {m M : Nat}

mutual

/-- An evaluation agrees with the one under a higher limit, unless it comes to a part that lies
deeper than its limit allows. -/
theorem agrees_eval (op : Op) (hm : M ≤ m) {n : Nat} (c : Context) (hc : c.IsAt M n) :
    Agrees m (M < n + op.height) (op.eval c) (op.eval (c.withMaxDepth m)) := by
  unfold eval
  refine .charged hc _ fun c hc hnormal ↦ ?_
  match op with
  | constant v => exact .same (c.produce v)
  | lookup s =>
    dsimp only
    rw [c.lookup_withMaxDepth]
    exact .same (c.lookup s)
  | define s body =>
    refine (Agrees.nested hm hc (agrees_eval body hm)).onResult fun v _ ↦ ?_
    exact .same _
  | undefine s =>
    have hundefine := Effect.run_withMaxDepth (e := .undefine s) trivial c m
    exact .inl (congrArg (·.produce .nil) hundefine)
  | sequence ops => exact agrees_evalSequence ops hm (c.produce .nil) ⟨hc.1, hc.2⟩ rfl
  | branch ops => exact agrees_evalBranches ops hm c hc hnormal
  | invoke f args =>
    rcases agrees_evalArgs args hm c hc hnormal with heq | ⟨hcode, hP⟩
    · dsimp only
      rw [heq]
      have hargs := hc.of_effectual (.evalArgs args) (depth_evalArgs args c hnormal)
      refine (Agrees.same _).andThen fun _ ↦ .charged hargs _ fun c _ _ ↦ ?_
      rw [f.apply_withMaxDepth]
      exact .same _
    · dsimp only
      rw [Context.andThen_of_exceptional hcode.isExceptional]
      exact .inr ⟨hcode, hP⟩
termination_by structural op

/-- One operation after the other: the height of the list bounds that of each. -/
theorem agrees_evalSequence (ops : List Op) (hm : M ≤ m) {n : Nat} (c : Context)
    (hc : c.IsAt M n) (hnormal : c.isExceptional = false) :
    Agrees m (M < n + heightOf ops) (evalSequence ops c)
      (evalSequence ops (c.withMaxDepth m)) := by
  match ops with
  | [] => exact .same c
  | op :: ops =>
    have hnext := Agrees.nested hm hc (agrees_eval op hm)
    refine (hnext.mono ?_).andThen fun hn ↦ ?_
    · unfold heightOf
      omega
    · refine (agrees_evalSequence ops hm _ (hc.nested hnormal op) hn).mono ?_
      rw [heightOf]
      omega
termination_by structural ops

/-- Tests and expressions count alike for the height, whichever of them are evaluated. -/
theorem agrees_evalBranches (ops : List Op) (hm : M ≤ m) {n : Nat} (c : Context)
    (hc : c.IsAt M n) (hnormal : c.isExceptional = false) :
    Agrees m (M < n + heightOf ops) (evalBranches ops c)
      (evalBranches ops (c.withMaxDepth m)) := by
  match ops with
  | [] => exact .same (c.produce .nil)
  | [default] =>
    refine (Agrees.nested hm hc (agrees_eval default hm)).mono ?_
    simp only [heightOf]
    omega
  | test :: expr :: rest =>
    have htest := Agrees.nested hm hc (agrees_eval test hm)
    have hnext := hc.nested hnormal test
    simp only [heightOf]
    refine (htest.mono (by omega)).onResult fun v hn ↦ ?_
    split
    · exact (Agrees.nested hm hnext (agrees_eval expr hm)).mono (by omega)
    · exact (agrees_evalBranches rest hm _ hnext hn).mono (by omega)
termination_by structural ops

/-- The values of the arguments agree as well. -/
theorem agrees_evalArgs (ops : List Op) (hm : M ≤ m) {n : Nat} (c : Context)
    (hc : c.IsAt M n) (hnormal : c.isExceptional = false) :
    evalArgs ops (c.withMaxDepth m) =
        ((evalArgs ops c).1.withMaxDepth m, (evalArgs ops c).2) ∨
      ((evalArgs ops c).1.outcome.HasCode .depth ∧ M < n + heightOf ops) := by
  match ops with
  | [] => exact .inl rfl
  | op :: ops =>
    rcases Agrees.nested hm hc (agrees_eval op hm) with heq | ⟨hcode, hP⟩
    · have houtcome' : ((c.nested op.eval).withMaxDepth m).outcome = (c.nested op.eval).outcome :=
        rfl
      cases houtcome : (c.nested op.eval).outcome with
      | signal s =>
        left
        simp only [evalArgs, heq, houtcome', houtcome]
      | value v =>
        have hn := Context.isExceptional_of_value houtcome
        rcases agrees_evalArgs ops hm _ (hc.nested hnormal op) hn with hrest | ⟨hcode, hP⟩
        · left
          simp only [evalArgs, heq, houtcome', houtcome, hrest]
        · right
          simp only [evalArgs, houtcome, heightOf]
          exact ⟨hcode, by omega⟩
    · right
      rw [fst_evalArgs_cons, Context.onResult_of_exceptional hcode.isExceptional, heightOf]
      exact ⟨hcode, by omega⟩
termination_by structural ops

end

/-- **The limit of the depth shows only where it is hit.** An evaluation that does not end with an
error of depth comes to the same under any higher limit, up to the limit itself, and so does one of
an operation whose height fits below the limit, whatever it ends with.  The evaluator is only ever
called within the limit, if it is so at first: this is said of the record of its calls, which has
the first one and leaves the result as it is. -/
theorem eval_depth_limit (op : Op) (c : Context) :
    (∀ m, c.limits.maxDepth ≤ m → ¬ (op.eval c).outcome.HasCode .depth →
      op.eval (c.withMaxDepth m) = (op.eval c).withMaxDepth m) ∧
    (∀ m, c.limits.maxDepth ≤ m → c.depth + op.height ≤ c.limits.maxDepth →
      op.eval (c.withMaxDepth m) = (op.eval c).withMaxDepth m) ∧
    (op.evalTraced c).context = op.eval c ∧ c ∈ (op.evalTraced c).calls ∧
    (c.depth ≤ c.limits.maxDepth →
      ∀ d ∈ (op.evalTraced c).calls, d.limits = c.limits ∧ d.depth ≤ c.limits.maxDepth) := by
  have hagrees (m : Nat) (hm : c.limits.maxDepth ≤ m) := agrees_eval op hm c ⟨rfl, rfl⟩
  refine ⟨?_, ?_, op.context_evalTraced c, op.mem_calls_evalTraced c, ?_⟩
  · intro m hm hcode
    rcases hagrees m hm with heq | ⟨hrefused, -⟩
    · exact heq
    · exact absurd hrefused hcode
  · intro m hm hheight
    rcases hagrees m hm with heq | ⟨-, htoo⟩
    · exact heq
    · omega
  · intro hdepth d hd
    obtain ⟨hlimits, hdepth⟩ := op.within_calls_evalTraced c hdepth d hd
    exact ⟨hlimits, hdepth⟩

/-- A definition within a sequence has the height 2.  Under the limit 2 it is evaluated as under the
limit 9, and the last call is made at the limit; under the limit 1 it is refused.  A failure that
only says it is one of depth is the same under both limits. -/
theorem eval_depth_limit_two_levels :
    let c := Context.start (.genesis [100]) ⟨0⟩ { maxDepth := 2 }
    let op := sequence [define ⟨"x"⟩ (constant (.long 1))]
    let fails := invoke .fail [constant ErrorCode.depth.toValue, constant .nil]
    op.height = 2 ∧ op.eval (c.withMaxDepth 9) = (op.eval c).withMaxDepth 9 ∧
    (op.evalTraced c).calls.map (·.depth) = [0, 1, 2] ∧
    (∀ d ∈ (op.evalTraced c).calls, d.depth ≤ 2) ∧
    (op.eval (c.withMaxDepth 1)).outcome.HasCode .depth ∧
    (fails.eval c).outcome.HasCode .depth ∧
    fails.eval (c.withMaxDepth 9) = (fails.eval c).withMaxDepth 9 := by
  intro c op fails
  have hheight : op.height = 2 := by decide
  have hrefused : (op.eval (c.withMaxDepth 1)).outcome =
      .signal (.coded .depth "max depth 1 exceeded") := by decide
  have hfails : (fails.eval c).outcome = .signal (.error ErrorCode.depth.toValue .nil) := by decide
  obtain ⟨-, hlow, -, -, hcalls⟩ := eval_depth_limit op c
  refine ⟨hheight, hlow 9 (by decide) (by decide), by decide, ?_, ⟨_, hrefused⟩, ⟨_, hfails⟩, ?_⟩
  · intro d hd
    exact (hcalls (by decide) d hd).2
  · exact (eval_depth_limit fails c).2.1 9 (by decide) (by decide)

end Op

end MeteredLedger
