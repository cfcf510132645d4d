import MeteredLedger.Proofs.Op.Terms

/-!
# Juice is a sharp threshold

An evaluation that does not ask for its juice has a price: with at least that much it takes the same
course whatever it is given, and with less it runs out.  A run with a smaller budget is compared
with a run with a larger one.  They go on alike and have used the same, until the smaller budget
does not cover a charge; at that moment the larger run has used more than the smaller budget, and
it never gets any of it back.
-/

namespace MeteredLedger

/-! ## Juice only goes down -/

namespace Context

variable {c : Context} {n : Nat}

theorem juice_charge (c : Context) (n : Nat) : (c.charge n).juice = c.juice.charge n :=
  congrArg Terms.juice (c.terms_charge n)

/-- A charge that is covered only takes juice. -/
theorem charge_of_le (h : n ≤ c.juice.remaining) :
    c.charge n = { c with juice := c.juice.charge n } := by
  have hcovers : c.juice.covers n = true := by simpa [Juice.covers] using h
  simp [charge, hcovers]

/-- Out of juice: nothing is left, and the outcome says so. -/
def Exhausted (c : Context) : Prop :=
  c.juice.remaining = 0 ∧
    ∃ message, c.outcome = .signal (.error ErrorCode.juice.toValue message)

theorem Exhausted.isExceptional (h : c.Exhausted) : c.isExceptional = true := by
  obtain ⟨-, message, ho⟩ := h
  rw [Context.isExceptional, ho]
  rfl

/-- A charge that is not covered exhausts the context. -/
theorem exhausted_charge (hc : c.isExceptional = false) (h : c.juice.remaining < n) :
    (c.charge n).Exhausted := by
  have hcovers : c.juice.covers n = false := by simpa [Juice.covers] using h
  refine ⟨?_, ?_⟩
  · rw [juice_charge, Juice.remaining_charge]
    omega
  · simp only [charge, hcovers, hc]
    exact ⟨_, rfl⟩

end Context

namespace Effect

/-- An effect charges juice or leaves it alone. -/
theorem juice_run (e : Effect) (c : Context) : ∃ n, (e.run c).juice = c.juice.charge n := by
  by_cases he : e.IsFree
  · exact ⟨0, (e.spares_run c).juice_eq he⟩
  · cases e with
    | charge n => exact ⟨n, c.juice_charge n⟩
    | _ => exact absurd trivial he

/-- No effect changes the limit of the juice. -/
theorem limit_run (e : Effect) (c : Context) : (e.run c).juice.limit = c.juice.limit :=
  (e.spares_run c).juice_limit_eq

/-- No effect gives juice back. -/
theorem used_le_used_run (e : Effect) (c : Context) : c.juice.used ≤ (e.run c).juice.used := by
  obtain ⟨n, hn⟩ := e.juice_run c
  rw [hn, Juice.used, Juice.used, Juice.limit_charge, Juice.remaining_charge]
  omega

end Effect

theorem Op.limit_eval (op : Op) (c : Context) : (op.eval c).juice.limit = c.juice.limit :=
  rel_of_mem_course (R := fun c d ↦ d.juice.limit = c.juice.limit) (fun _ ↦ rfl)
    (fun h h' ↦ h'.trans h) Effect.limit_run (op.eval_mem_course c)

/-! ## Two budgets -/

/-- The context with a budget of its own; a negative one counts as zero. -/
def Context.withBudget (c : Context) (b : Int64) : Context :=
  { c with juice := .full b, limits := { c.limits with juice := b } }

/-- The terms of two runs with the budgets `b` and `b'` that have used the same so far. -/
structure SameUse (b b' : Nat) (t t' : Terms) : Prop where
  limit : t.juice.limit = b
  limit' : t'.juice.limit = b'
  remaining_le : t.juice.remaining ≤ b
  remaining' : t'.juice.remaining = t.juice.remaining + (b' - b)
  maxDepth : t'.limits.maxDepth = t.limits.maxDepth
  offer : t'.offer = t.offer
  sequence : t'.sequence = t.sequence

/-- The first run is out of juice, and the second one has used more than the first one had. -/
def Overdrawn (b : Nat) (c d : Context) : Prop := c.Exhausted ∧ b < d.juice.used

/-- Two contexts have come to the same, and have used the same juice for it. -/
structure SameResult (c d : Context) : Prop where
  outcome_eq : c.outcome = d.outcome
  ledger_eq : c.ledger = d.ledger
  environment_eq : c.environment = d.environment
  depth_eq : c.depth = d.depth
  used_eq : c.juice.used = d.juice.used

theorem SameResult.symm {c d : Context} (h : SameResult c d) : SameResult d c :=
  ⟨h.outcome_eq.symm, h.ledger_eq.symm, h.environment_eq.symm, h.depth_eq.symm, h.used_eq.symm⟩

section Budgets

variable {b b' : Nat} {c d : Context}

/-- Runs that have used the same have the same result, within the smaller budget. -/
theorem sameResult_of_alike (hlt : b < b') (h : Alike (SameUse b b') c d) :
    SameResult c d ∧ c.juice.used ≤ b := by
  obtain ⟨t, ht, rfl⟩ := h
  have hlimit : c.juice.limit = b := ht.limit
  have hle : c.juice.remaining ≤ b := ht.remaining_le
  have hlimit' : (c.onTerms t).juice.limit = b' := ht.limit'
  have hremaining' : (c.onTerms t).juice.remaining = c.juice.remaining + (b' - b) := ht.remaining'
  refine ⟨⟨rfl, rfl, rfl, rfl, ?_⟩, ?_⟩
  · rw [Juice.used, Juice.used]
    omega
  · rw [Juice.used]
    omega

/-- A charge is covered by both budgets, or the smaller one is overdrawn. -/
theorem charge_sameUse (hlt : b < b') (n : Nat) (hc : c.isExceptional = false)
    (h : Alike (SameUse b b') c d) :
    Simulation.Ends (Alike (SameUse b b')) (Overdrawn b) (c.charge n) (d.charge n) := by
  obtain ⟨t, ht, rfl⟩ := h
  have hlimit' : (c.onTerms t).juice.limit = b' := ht.limit'
  have hle : c.juice.remaining ≤ b := ht.remaining_le
  have hremaining' : (c.onTerms t).juice.remaining = c.juice.remaining + (b' - b) := ht.remaining'
  by_cases hn : n ≤ c.juice.remaining
  · left
    rw [Context.charge_of_le hn, Context.charge_of_le (by omega)]
    refine ⟨{ t with juice := t.juice.charge n }, ?_, rfl⟩
    refine ⟨ht.limit, ht.limit', Nat.le_trans (Nat.sub_le ..) hle, ?_, ht.maxDepth, ht.offer,
      ht.sequence⟩
    change (c.onTerms t).juice.remaining - n = c.juice.remaining - n + (b' - b)
    omega
  · right
    refine ⟨Context.exhausted_charge hc (by omega), ?_⟩
    rw [Context.juice_charge, Juice.used, Juice.limit_charge, Juice.remaining_charge]
    omega

/-- Runs under two budgets stay alike until the smaller one is overdrawn. -/
theorem simulation_sameUse (hlt : b < b') : Simulation (Alike (SameUse b b')) (Overdrawn b) :=
  Alike.simulation (charge_sameUse hlt) (fun h ↦ .inl (h.descend SameUse.maxDepth))
    (fun h ↦ h.1.isExceptional) (fun _ h ↦ h)
    (fun e h ↦ ⟨h.1, Nat.lt_of_lt_of_le h.2 (e.used_le_used_run _)⟩)

/-- A run with the smaller budget comes to the same, or it is overdrawn. -/
theorem eval_sameUse (hlt : b < b') {op : Op} (hop : op.Ignores .juice)
    (h : Alike (SameUse b b') c d) :
    (SameResult (op.eval c) (op.eval d) ∧ (op.eval c).juice.used ≤ b) ∨
      Overdrawn b (op.eval c) (op.eval d) := by
  have hnodes : ∀ n ∈ op.nodes, n.Respects (Alike (SameUse b b')) :=
    Alike.respects (fun hjuice ↦ absurd hop hjuice) (fun _ ↦ SameUse.offer)
      (fun _ ↦ SameUse.sequence)
  rcases (simulation_sameUse hlt).eval op hnodes c d h with halike | hlost
  · exact .inl (sameResult_of_alike hlt halike)
  · exact .inr hlost

end Budgets

/-- Before any use, contexts under two budgets are alike. -/
theorem alike_withBudget (c : Context) {b b' : Int64} (hlt : b.toInt.toNat < b'.toInt.toNat) :
    Alike (SameUse b.toInt.toNat b'.toInt.toNat) (c.withBudget b) (c.withBudget b') := by
  -- The terms are written out: the kernel would compare those of `c.withBudget b'` with those of
  -- `c.withBudget b` down to the bits of the budgets.
  refine ⟨⟨.full b', { c.limits with juice := b' }, c.offer, c.sequence⟩,
    ⟨rfl, rfl, Nat.le_refl _, ?_, rfl, rfl, rfl⟩, rfl⟩
  change b'.toInt.toNat = b.toInt.toNat + (b'.toInt.toNat - b.toInt.toNat)
  omega

/-- **Juice is a sharp threshold.** Let an operation that does not look its juice up end with the
budget `B` otherwise than for lack of juice.  What it used is then its price: with any budget that
is at least the price it comes to the same outcome, ledger, environment and depth and uses the same,
and with any smaller budget it ends with an error for lack of juice and with nothing left. -/
theorem eval_juice_threshold (op : Op) (hop : op.Ignores .juice) (c : Context) (B : Int64)
    (hB : 0 ≤ B)
    (hend : ∀ message, (op.eval (c.withBudget B)).outcome ≠
      .signal (.error ErrorCode.juice.toValue message)) :
    (∀ b : Int64, ((op.eval (c.withBudget B)).juice.used : Int) ≤ b.toInt →
      SameResult (op.eval (c.withBudget b)) (op.eval (c.withBudget B))) ∧
    (∀ b : Int64, 0 ≤ b → b.toInt < (op.eval (c.withBudget B)).juice.used →
      (op.eval (c.withBudget b)).Exhausted) := by
  have hnot : ¬ (op.eval (c.withBudget B)).Exhausted := fun h ↦ h.2.elim hend
  have hB : 0 ≤ B.toInt := Int64.le_iff_toInt_le.mp hB
  constructor
  · intro b hb
    -- The run with the smaller budget is the first of the two that are compared.
    rcases Nat.lt_trichotomy b.toInt.toNat B.toInt.toNat with hlt | heq | hlt
    · rcases eval_sameUse hlt hop (alike_withBudget c hlt) with ⟨hsame, -⟩ | ⟨-, hover⟩
      · exact hsame
      · omega
    · obtain rfl : b = B := Int64.toInt_inj.mp (by omega)
      exact ⟨rfl, rfl, rfl, rfl, rfl⟩
    · rcases eval_sameUse hlt hop (alike_withBudget c hlt) with ⟨hsame, -⟩ | ⟨hout, -⟩
      · exact hsame.symm
      · exact absurd hout hnot
  · intro b hb hlt
    have hb : 0 ≤ b.toInt := Int64.le_iff_toInt_le.mp hb
    -- Nobody uses more than the budget, so `b` is the smaller one here.
    have hused : (op.eval (c.withBudget B)).juice.used ≤ B.toInt.toNat := by
      rw [Juice.used, op.limit_eval]
      exact Nat.sub_le ..
    have hbB : b.toInt.toNat < B.toInt.toNat := by omega
    rcases eval_sameUse hbB hop (alike_withBudget c hbB) with ⟨hsame, hle⟩ | ⟨hout, -⟩
    · rw [hsame.used_eq] at hle
      omega
    · exact hout

/-- A definition and a sum that uses it cost 165: with that they end in the sum, and with 164 they
run out of juice. -/
theorem eval_juice_threshold_sum :
    let c := Context.start (.genesis [100]) ⟨0⟩ { }
    let op := Op.sequence [.define ⟨"x"⟩ (.constant (.long 5)),
      .invoke .add [.lookup ⟨"x"⟩, .constant (.long 1)]]
    op.Ignores .juice ∧
    (∀ message, (op.eval (c.withBudget 1000)).outcome ≠
      .signal (.error ErrorCode.juice.toValue message)) ∧
    SameResult (op.eval (c.withBudget 165)) (op.eval (c.withBudget 1000)) ∧
    (op.eval (c.withBudget 164)).Exhausted := by
  intro c op
  have hop : op.Ignores .juice := by decide
  have hvalue : (op.eval (c.withBudget 1000)).outcome = .value (.long 6) := by decide
  have hused : (op.eval (c.withBudget 1000)).juice.used = 165 := by decide
  have hend : ∀ message, (op.eval (c.withBudget 1000)).outcome ≠
      .signal (.error ErrorCode.juice.toValue message) := by
    intro message
    simp [hvalue]
  obtain ⟨henough, hless⟩ := eval_juice_threshold op hop c 1000 (by decide) hend
  refine ⟨hop, hend, henough 165 ?_, hless 164 (by decide) ?_⟩
  · rw [hused]; decide
  · rw [hused]; decide

end MeteredLedger
