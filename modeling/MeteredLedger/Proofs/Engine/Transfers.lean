import MeteredLedger.Proofs.Engine.Settlement
import MeteredLedger.Proofs.Machine.Accounting
import MeteredLedger.Proofs.Op.Metering

/-!
# Two ways to send funds

A transaction moves funds directly, or it calls the transfer function with constants.  A call with
constants comes to one application of its function, at the total of the call, if it has the juice
for it and one level to go down (`Op.eval_call_constants`).  A transfer looks neither at the juice
nor at the outcome so far, so the two ways end in contexts that differ in the juice alone, and such
contexts are settled alike.
-/

namespace MeteredLedger

/-- What a counter that was full has been charged is what has been used of it. -/
theorem Juice.used_charge_full {budget : Int64} {n : Nat} (h : n ≤ (full budget).remaining) :
    ((full budget).charge n).used = n :=
  Nat.sub_sub_self h

namespace Context

/-- The context with another counter. -/
def withJuice (c : Context) (j : Juice) : Context := { c with juice := j }

/-- The context after an amount has been paid, with what it has come to. -/
def paid (c : Context) (n : Nat) (o : Outcome) : Context :=
  { c with juice := c.juice.charge n, outcome := o }

variable {c : Context} {n : Nat}

/-- After a payment of juice a normal context goes on. -/
theorem andThen_paid {o : Outcome} (ho : o.isExceptional = false) (f : Context → Context) :
    (c.paid n o).andThen f = f (c.paid n o) :=
  andThen_of_normal (c := c.paid n o) ho f

/-- Two payments of juice are one of both amounts together. -/
theorem paid_paid (c : Context) (m n : Nat) (o p : Outcome) :
    (c.paid m o).paid n p = c.paid (m + n) p := by
  simp only [paid, Juice.charge_charge]

/-- A step whose price is covered runs after it is paid. -/
theorem charged_of_le (hc : c.isExceptional = false) (hn : n ≤ c.juice.remaining)
    (f : Context → Context) : c.charged n f = f (c.paid n c.outcome) := by
  have hpaid : c.charge n = c.paid n c.outcome := charge_of_le hn
  rw [charged, andThen_of_normal hc, hpaid, andThen_paid hc]

/-- A step below the limit of the depth runs one level deeper. -/
theorem nested_of_lt (hc : c.isExceptional = false) (hdepth : c.depth < c.limits.maxDepth)
    (f : Context → Context) :
    c.nested f = { f { c with depth := c.depth + 1 } with depth := c.depth } := by
  have hinner : c.descend = { c with depth := c.depth + 1 } := if_neg (Nat.not_le.mpr hdepth)
  have hnormal : c.descend.isExceptional = false := by rw [hinner]; exact hc
  rw [nested, andThen_of_normal hnormal, hinner]

/-- A transfer depends neither on the juice nor on the outcome so far. -/
theorem transfer_paid (c : Context) (n : Nat) (o : Outcome) (target : Address) (amount : Int64) :
    (c.paid n o).transfer target amount =
      (c.transfer target amount).withJuice (c.juice.charge n) := by
  simp only [transfer, paid, withJuice]
  cases c.ledger.transfer c.address target amount <;> rfl

end Context

/-! ## Calls with constants -/

namespace Op

open Context

variable {c : Context}

/-- An argument that is a constant costs its price and nothing else. -/
theorem nested_constant (v : Value) (hc : c.isExceptional = false)
    (hdepth : c.depth < c.limits.maxDepth) (hjuice : (constant v).total ≤ c.juice.remaining) :
    c.nested (constant v).eval = c.paid (constant v).total (.value v) := by
  have hinner : (constant v).eval { c with depth := c.depth + 1 } =
      ({ c with depth := c.depth + 1 } : Context).paid (constant v).total (.value v) := by
    rw [eval]
    exact charged_of_le (c := { c with depth := c.depth + 1 }) hc hjuice _
  rw [nested_of_lt hc hdepth, hinner]
  rfl

/-- Constants are their own values, at the sum of their prices. -/
theorem evalArgs_constants (vs : List Value) (c : Context) (hc : c.isExceptional = false)
    (hdepth : c.depth < c.limits.maxDepth)
    (hjuice : totalOf (vs.map constant) ≤ c.juice.remaining) :
    ∃ o, o.isExceptional = false ∧
      evalArgs (vs.map constant) c = (c.paid (totalOf (vs.map constant)) o, vs) := by
  induction vs generalizing c with
  | nil => exact ⟨c.outcome, hc, rfl⟩
  | cons v vs ih =>
      rw [List.map_cons, totalOf_cons] at hjuice ⊢
      have hfirst := nested_constant v hc hdepth (by omega)
      -- The constant comes back to the depth of the call, so the others have the same room.
      obtain ⟨o, ho, hrest⟩ := ih (c.paid (constant v).total (.value v)) rfl hdepth
        (Nat.le_sub_of_add_le' hjuice)
      refine ⟨o, ho, ?_⟩
      rw [← c.paid_paid _ _ (.value v), evalArgs, hfirst]
      exact congrArg (fun r : Context × List Value ↦ (r.1, v :: r.2)) hrest

/-- A call with constants applies its function once, at the total of the call. -/
theorem eval_call_constants (f : Builtin) (vs : List Value) (hc : c.isExceptional = false)
    (hdepth : c.depth < c.limits.maxDepth)
    (hjuice : (invoke f (vs.map constant)).total ≤ c.juice.remaining) :
    ∃ o, (invoke f (vs.map constant)).eval c =
      f.apply vs (c.paid (invoke f (vs.map constant)).total o) := by
  rw [total_invoke, List.length_map] at hjuice ⊢
  have hcost : (invoke f (vs.map constant)).cost ≤ c.juice.remaining := by omega
  have hargs : totalOf (vs.map constant) + f.applyCost vs.length ≤
      (c.juice.charge (invoke f (vs.map constant)).cost).remaining := Nat.le_sub_of_add_le' hjuice
  obtain ⟨o, ho, hevaluated⟩ := evalArgs_constants vs
    (c.paid (invoke f (vs.map constant)).cost c.outcome) hc hdepth
    (Nat.le_of_add_right_le hargs)
  have happly := charged_of_le (c := (c.paid (invoke f (vs.map constant)).cost c.outcome).paid
    (totalOf (vs.map constant)) o) ho (Nat.le_sub_of_add_le' hargs) (f.apply vs)
  refine ⟨o, ?_⟩
  rw [eval, charged_of_le hc hcost]
  simp only [hevaluated]
  rw [andThen_paid ho, happly, paid_paid, paid_paid]
  rfl

/-- A call of the transfer function with constants. -/
def transferCall (target : Address) (amount : Int64) : Op :=
  invoke .transfer [constant (.address target), constant (.long amount)]

/-- The call does what the transfer does, for forty more. -/
theorem eval_transferCall (target : Address) (amount : Int64) (hc : c.isExceptional = false)
    (hdepth : c.depth < c.limits.maxDepth) (hjuice : Cost.transfer + 40 ≤ c.juice.remaining) :
    (transferCall target amount).eval c =
      (c.transfer target amount).withJuice (c.juice.charge (Cost.transfer + 40)) := by
  obtain ⟨o, hcall⟩ :=
    eval_call_constants .transfer [.address target, .long amount] hc hdepth hjuice
  exact hcall.trans (c.transfer_paid _ o target amount)

end Op

/-- The direct transfer does what the transfer does, at its price. -/
theorem Action.run_transfer {c : Context} (target : Address) (amount : Int64)
    (hc : c.isExceptional = false) (hjuice : Cost.transfer ≤ c.juice.remaining) :
    (transfer target amount).run c =
      (c.transfer target amount).withJuice (c.juice.charge Cost.transfer) := by
  have hpaid : c.charge Cost.transfer = c.paid Cost.transfer c.outcome :=
    Context.charge_of_le hjuice
  rw [run, hpaid, Context.andThen_paid hc, Context.transfer_paid]

/-! ## The settlement of both -/

/-- The settlement with another counter. -/
def Settlement.withJuice (s : Settlement) (j : Juice) : Settlement :=
  { s with context := s.context.withJuice j }

namespace Settlement

variable (s : Settlement) (j k : Juice)

@[simp] theorem ledger_withJuice : (s.withJuice j).ledger = s.ledger := rfl
@[simp] theorem outcome_withJuice : (s.withJuice j).context.outcome = s.context.outcome := rfl
@[simp] theorem juice_withJuice : (s.withJuice j).context.juice = j := rfl
@[simp] theorem withJuice_withJuice : (s.withJuice j).withJuice k = s.withJuice k := rfl

end Settlement

namespace Transaction

variable {base : Context}

/-- How a transaction is closed does not depend on the juice it has left. -/
theorem close_withJuice (s : Ledger Value) (tx : Transaction) (c : Context) (j : Juice) :
    close s tx (c.withJuice j) = (close s tx c).withJuice j := by
  have hcommit (d : Context) : commit s tx (d.withJuice j) = (commit s tx d).withJuice j := by
    simp only [commit, Context.withJuice]
    split <;> rfl
  rcases c.outcome.keeps_or_givesUp with ⟨v, ho⟩ | ⟨o, ho⟩
  · rw [close_of_keeps ho, close_of_keeps (c := c.withJuice j) ho]
    exact hcommit (c.produce v)
  · rcases c with ⟨ledger, environment, juice, limits, depth, outcome⟩
    cases ho <;> rfl

/-- A transaction that ends with other juice settles with other juice. -/
theorem settle_of_withJuice (tx : Transaction) {x : Account Value} {c : Context} {j : Juice}
    (hx : base.ledger.account? tx.origin = some x) (heq : tx.sequence = x.sequence + 1)
    (hending : tx.ending base = c.withJuice j) :
    tx.settle base = (close base.ledger tx c).withJuice j := by
  rw [settle_of_eq hx heq, hending, close_withJuice]

/-- A transaction is rejected exactly if it is not due. -/
theorem rejected_iff_not_due (tx : Transaction)
    (hroom : ∀ x, base.ledger.account? tx.origin = some x → x.sequence < Int64.maxValue) :
    (tx.settle base).disposition = .rejected ↔ ¬ tx.Due base.ledger := by
  refine settle_elim base tx ?_ ?_ ?_ ?_
  · intro habsent
    refine iff_of_true rfl ?_
    rintro ⟨x, hx, -⟩
    rw [habsent] at hx
    cases hx
  · intro x hx hne
    refine iff_of_true rfl ?_
    rintro ⟨y, hy, hseq⟩
    obtain rfl : x = y := Option.some.inj (hx.symm.trans hy)
    exact hne ((sequence_eq_iff (hroom x hx)).mpr hseq)
  · intro x o hx heq _
    exact iff_of_false (by simp) (not_not.mpr ⟨x, hx, (sequence_eq_iff (hroom x hx)).mp heq⟩)
  · intro x y v hx heq _ _
    exact iff_of_false (by simp) (not_not.mpr ⟨x, hx, (sequence_eq_iff (hroom x hx)).mp heq⟩)

/-- Transactions of one account with one sequence number are rejected alike. -/
theorem settle_eq_of_rejected (tx : Transaction) (offer : Int64) (action : Action)
    (h : (tx.settle base).disposition = .rejected) :
    settle base ⟨tx.origin, tx.sequence, offer, action⟩ = tx.settle base := by
  revert h
  refine settle_elim base tx ?_ ?_ ?_ ?_
  · intro hx _
    exact @settle_of_absent base ⟨tx.origin, tx.sequence, offer, action⟩ hx
  · intro x hx hne _
    exact @settle_of_ne base ⟨tx.origin, tx.sequence, offer, action⟩ x hx hne
  · intro _ _ _ _ _ h
    cases h
  · intro _ _ _ _ _ _ _ h
    cases h

/-- Two transactions that run, one each way, are settled alike from the same transfer, and differ in
what has been paid before it. -/
theorem exists_settle_eq_withJuice {x : Account Value} {origin : Address} {sequence : Int64}
    (offer : Int64) (target : Address) (amount : Int64)
    (hjuice : Cost.transfer + 40 ≤ (Juice.full base.limits.juice).remaining)
    (hdepth : 1 ≤ base.limits.maxDepth) (hx : base.ledger.account? origin = some x)
    (hnext : sequence = x.sequence + 1) :
    ∃ s : Settlement,
      settle base ⟨origin, sequence, offer, .transfer target amount⟩ =
        s.withJuice ((Juice.full base.limits.juice).charge Cost.transfer) ∧
      settle base ⟨origin, sequence, offer, .invoke (.transferCall target amount)⟩ =
        s.withJuice ((Juice.full base.limits.juice).charge (Cost.transfer + 40)) := by
  let direct : Transaction := ⟨origin, sequence, offer, .transfer target amount⟩
  let call : Transaction := ⟨origin, sequence, offer, .invoke (.transferCall target amount)⟩
  have hdirect : direct.ending base = _ := Action.run_transfer (c := direct.opening base) target
    amount rfl (Nat.le_of_add_right_le hjuice)
  have hcall : call.ending base = _ := Op.eval_transferCall (c := direct.opening base) target
    amount rfl hdepth hjuice
  exact ⟨close base.ledger direct ((direct.opening base).transfer target amount),
    settle_of_withJuice direct hx hnext hdirect, settle_of_withJuice call hx hnext hcall⟩

/-- **Two ways to send funds.** Let a base context give its forks at least 140 juice and one level
of depth.  Take a transaction that transfers an amount directly, and one that calls the transfer
function with the same target and amount as constants, of the same account and with the same
sequence number and offer.  They settle to the same ledger with the same outcome, and alike in all
but the juice.  If they are rejected there is no difference at all, and if they run the call uses
exactly 40 more. -/
theorem settle_call_eq_settle_transfer (base : Context) (hjuice : 140 ≤ base.limits.juice)
    (hdepth : 1 ≤ base.limits.maxDepth) (origin target : Address) (sequence offer amount : Int64)
    (hroom : ∀ x, base.ledger.account? origin = some x → x.sequence < Int64.maxValue) :
    let direct : Transaction := ⟨origin, sequence, offer, .transfer target amount⟩
    let call : Transaction := ⟨origin, sequence, offer, .invoke (.transferCall target amount)⟩
    (call.settle base).ledger = (direct.settle base).ledger ∧
    (call.settle base).context.outcome = (direct.settle base).context.outcome ∧
    call.settle base = (direct.settle base).withJuice (call.settle base).context.juice ∧
    ((direct.settle base).disposition = .rejected ↔ ¬ direct.Due base.ledger) ∧
    ((direct.settle base).disposition = .rejected → call.settle base = direct.settle base) ∧
    ((direct.settle base).disposition ≠ .rejected →
      (call.settle base).context.juice.used = (direct.settle base).context.juice.used + 40) := by
  intro direct call
  have hrejected := rejected_iff_not_due direct hroom
  by_cases h : (direct.settle base).disposition = .rejected
  · have heq : call.settle base = direct.settle base := settle_eq_of_rejected direct offer _ h
    rw [heq]
    exact ⟨rfl, rfl, rfl, hrejected, fun _ ↦ rfl, fun hne ↦ absurd h hne⟩
  · obtain ⟨x, hx, hseq⟩ := not_not.mp (mt hrejected.mpr h)
    have hnext : direct.sequence = x.sequence + 1 := (sequence_eq_iff (hroom x hx)).mpr hseq
    have hfull : Cost.transfer + 40 ≤ (Juice.full base.limits.juice).remaining :=
      Int.toNat_le_toNat (Int64.le_iff_toInt_le.mp hjuice)
    obtain ⟨s, hdirect, hcall⟩ :=
      exists_settle_eq_withJuice offer target amount hfull hdepth hx hnext
    rw [hdirect] at hrejected h ⊢
    rw [hcall]
    refine ⟨by simp, by simp, by simp, hrejected, fun hr ↦ absurd hr h, fun _ ↦ ?_⟩
    rw [Settlement.juice_withJuice, Settlement.juice_withJuice, Juice.used_charge_full hfull,
      Juice.used_charge_full (Nat.le_of_add_right_le hfull)]

/-- With just the juice and the depth for the call, a payment of thirty goes through either way, for
100 and for 140 juice, and one that the account does not cover is refused with the same error. -/
theorem settle_call_eq_settle_transfer_just_enough :
    let base := Context.start (.genesis [100, 5]) ⟨1⟩ { juice := 140, maxDepth := 1 }
    140 ≤ base.limits.juice ∧ 1 ≤ base.limits.maxDepth ∧
    (∀ x, base.ledger.account? ⟨0⟩ = some x → x.sequence < Int64.maxValue) ∧
    (settle base ⟨⟨0⟩, 1, 7, .invoke (.transferCall ⟨1⟩ 30)⟩).ledger =
      (settle base ⟨⟨0⟩, 1, 7, .transfer ⟨1⟩ 30⟩).ledger ∧
    (settle base ⟨⟨0⟩, 1, 7, .transfer ⟨1⟩ 30⟩).ledger.balance? ⟨1⟩ = some 35 ∧
    (settle base ⟨⟨0⟩, 1, 7, .transfer ⟨1⟩ 30⟩).context.juice.used = 100 ∧
    (settle base ⟨⟨0⟩, 1, 7, .invoke (.transferCall ⟨1⟩ 30)⟩).context.juice.used = 100 + 40 ∧
    (settle base ⟨⟨0⟩, 1, 7, .invoke (.transferCall ⟨1⟩ 101)⟩).context.outcome =
      (settle base ⟨⟨0⟩, 1, 7, .transfer ⟨1⟩ 101⟩).context.outcome ∧
    (settle base ⟨⟨0⟩, 1, 7, .transfer ⟨1⟩ 101⟩).context.isExceptional = true := by
  intro base
  have hroom : ∀ x, base.ledger.account? ⟨0⟩ = some x → x.sequence < Int64.maxValue := by
    intro x hx
    obtain rfl : Account.ofBalance 100 = x := Option.some.inj hx
    decide
  obtain ⟨hledger, -, -, -, -, hmore⟩ :=
    settle_call_eq_settle_transfer base (by decide) (by decide) ⟨0⟩ ⟨1⟩ 1 7 30 hroom
  obtain ⟨-, houtcome, -⟩ :=
    settle_call_eq_settle_transfer base (by decide) (by decide) ⟨0⟩ ⟨1⟩ 1 7 101 hroom
  have hused : (settle base ⟨⟨0⟩, 1, 7, .transfer ⟨1⟩ 30⟩).context.juice.used = 100 := by decide
  have hmore := hmore (by decide)
  rw [hused] at hmore
  exact ⟨by decide, by decide, hroom, hledger, by decide, hused, hmore, houtcome, by decide⟩

/-- With one less of the juice or of the depth, only a direct transfer goes through. -/
example :
    let disposition (limits : Limits) (action : Action) : Disposition :=
      (settle (.start (.genesis [100, 5]) ⟨1⟩ limits) ⟨⟨0⟩, 1, 7, action⟩).disposition
    disposition { juice := 139, maxDepth := 1 } (.transfer ⟨1⟩ 30) = .committed ∧
    disposition { juice := 139, maxDepth := 1 } (.invoke (.transferCall ⟨1⟩ 30)) = .discarded ∧
    disposition { juice := 140, maxDepth := 0 } (.transfer ⟨1⟩ 30) = .committed ∧
    disposition { juice := 140, maxDepth := 0 } (.invoke (.transferCall ⟨1⟩ 30)) = .discarded := by
  decide

end Transaction

end MeteredLedger
