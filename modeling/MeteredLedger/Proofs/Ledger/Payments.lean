import MeteredLedger.Proofs.Ledger.Adjust

/-!
# Payments

A transfer that succeeds credits one account with the amount and another with its negative, in
either order, and for a transfer to oneself the two cancel out.  Words add up in any order, so two
payments commute whatever accounts they share (`pay_comm`).  What depends on the order is whether a
payment is possible: it is a matter of numbers, and `Payable.after` is the one case distinction.
-/

namespace MeteredLedger

namespace Account

/-- Adds to the balance, modulo the word. -/
def credit (n : Int64) (x : Account Value) : Account Value := { x with balance := x.balance + n }

/-- Two credits are one of both amounts together. -/
theorem credit_comp_credit (m n : Int64) : credit n ∘ credit m = credit (m + n) := by
  funext x
  simp only [Function.comp, credit, Int64.add_assoc]

@[simp] theorem credit_zero : credit 0 = id := by
  funext x
  simp only [credit, Int64.add_zero, id]

theorem credit_comp_comm (m n : Int64) : credit n ∘ credit m = credit m ∘ credit n := by
  rw [credit_comp_credit, credit_comp_credit, Int64.add_comm]

end Account

namespace Ledger

variable {s t : Ledger Value} {source target a : Address} {amount b : Int64}

/-- The ledger after a payment, whether it is possible or not. -/
def pay (s : Ledger Value) (source target : Address) (amount : Int64) : Ledger Value :=
  (s.adjust source (.credit (-amount))).adjust target (.credit amount)

/-- What a payment adds to the balance of the account `a`. -/
def share (source target : Address) (amount : Int64) (a : Address) : Int64 :=
  (if a = source then -amount else 0) + (if a = target then amount else 0)

/-- The amount is not negative, the source is there and covers it, and the target is there and has
room for it unless it is the source. -/
structure Payable (s : Ledger Value) (source target : Address) (amount : Int64) : Prop where
  nonneg : 0 ≤ amount
  funds : ∃ b, s.balance? source = some b ∧ amount ≤ b
  room : ∃ b, s.balance? target = some b ∧
    (source ≠ target → b.toInt + amount.toInt ≤ Int64.maxValue.toInt)

/-! ## What a payment does -/

/-- A payment credits every account with its share, which is zero for most. -/
theorem account?_pay (s : Ledger Value) (source target : Address) (amount : Int64) (a : Address) :
    (s.pay source target amount).account? a =
      (s.account? a).map (.credit (share source target amount a)) := by
  unfold pay share
  by_cases htarget : a = target
  · subst htarget
    by_cases hsource : a = source
    · subst hsource
      simp [Account.credit_comp_credit]
    · simp [account?_adjust_of_ne hsource, hsource]
  · rw [account?_adjust_of_ne htarget]
    by_cases hsource : a = source
    · subst hsource
      simp [htarget]
    · simp [account?_adjust_of_ne hsource, hsource, htarget]

/-- A balance after a payment is the balance before and the share in it. -/
theorem balance?_pay (hb : s.balance? a = some b) (source target : Address) (amount : Int64) :
    (s.pay source target amount).balance? a = some (b + share source target amount a) := by
  obtain ⟨x, hx, rfl⟩ := Option.map_eq_some_iff.mp hb
  rw [balance?, account?_pay, hx]
  rfl

/-- A payment to its own source does nothing. -/
theorem pay_self (s : Ledger Value) (a : Address) (amount : Int64) : s.pay a a amount = s := by
  rw [pay, adjust_adjust, Account.credit_comp_credit, Int64.add_left_neg, Account.credit_zero,
    adjust_id]

/-- A payment commutes with whatever commutes with crediting an account. -/
theorem adjust_pay {f : Account Value → Account Value}
    (hf : ∀ n, Account.credit n ∘ f = f ∘ Account.credit n) (s : Ledger Value)
    (a source target : Address) (amount : Int64) :
    (s.adjust a f).pay source target amount = (s.pay source target amount).adjust a f := by
  rw [pay, pay, s.adjust_comm fun _ ↦ hf (-amount), adjust_comm _ fun _ ↦ hf amount]

/-- Payments commute. -/
theorem pay_comm (s : Ledger Value) (source target source' target' : Address)
    (amount amount' : Int64) :
    (s.pay source target amount).pay source' target' amount' =
      (s.pay source' target' amount').pay source target amount := by
  have hcredit (m n : Int64) := Account.credit_comp_comm m n
  calc (s.pay source target amount).pay source' target' amount'
      = ((s.adjust source (.credit (-amount))).pay source' target' amount').adjust target
          (.credit amount) := adjust_pay (hcredit amount) _ target source' target' amount'
    _ = (s.pay source' target' amount').pay source target amount := by
        rw [adjust_pay (hcredit (-amount)), pay.eq_def _ source target]

/-! ## When a payment is possible -/

/-- A balance is written as the number it is meant to be. -/
theorem Payable.toInt_share (h : Payable s source target amount) (hb : s.balance? a = some b) :
    (b + share source target amount a).toInt =
      b.toInt - (if a = source then amount.toInt else 0) +
        (if a = target then amount.toInt else 0) := by
  obtain ⟨hnonneg, ⟨x, hx, hcover⟩, ⟨y, hy, hroom⟩⟩ := h
  unfold share
  by_cases hsource : a = source
  · subst hsource
    obtain rfl : b = x := Option.some.inj (hb.symm.trans hx)
    by_cases htarget : a = target
    · simp only [↓reduceIte, if_pos htarget, Int64.add_left_neg, Int64.add_zero]
      omega
    · simp only [↓reduceIte, if_neg htarget, Int64.add_zero, Int.add_zero, ← Int64.sub_eq_add_neg]
      exact Int64.toInt_sub_of_le b amount hnonneg hcover
  · simp only [if_neg hsource, Int64.zero_add, Int.sub_zero]
    by_cases htarget : a = target
    · subst htarget
      obtain rfl : b = y := Option.some.inj (hb.symm.trans hy)
      rw [if_pos rfl, if_pos rfl, Int64.toInt_add]
      have hamount := Int64.le_iff_toInt_le.mp hnonneg
      rw [Int64.toInt_zero] at hamount
      have hlow := b.le_toInt
      exact Int.bmod_eq_of_le (by omega) (Int.lt_add_one_of_le (hroom (Ne.symm hsource)))
    · rw [if_neg htarget, if_neg htarget, Int64.add_zero, Int.add_zero]

/-- Whether a payment is possible depends on the balances alone. -/
theorem Payable.congr (h : Payable s source target amount)
    (hst : ∀ a, t.balance? a = s.balance? a) : Payable t source target amount := by
  obtain ⟨hnonneg, hfunds, hroom⟩ := h
  simp only [← hst] at hfunds hroom
  exact ⟨hnonneg, hfunds, hroom⟩

/-- A transfer that can be paid is the payment. -/
theorem transfer_of_payable (h : Payable s source target amount) :
    s.transfer source target amount = .ok (s.pay source target amount) := by
  obtain ⟨hnonneg, ⟨_, hsource, hcover⟩, ⟨_, htarget, hroom⟩⟩ := h
  obtain ⟨x, hx, rfl⟩ := Option.map_eq_some_iff.mp hsource
  obtain ⟨y, hy, rfl⟩ := Option.map_eq_some_iff.mp htarget
  simp only [transfer, hx, hy]
  rw [if_neg (Int64.not_lt.mpr hnonneg), if_neg (Int64.not_lt.mpr hcover)]
  by_cases hst : source = target
  · rw [if_pos hst, ← hst, pay_self]
  · have hy' : (s.adjust source (.credit (-amount))).account? target = some y := by
      rw [account?_adjust_of_ne (Ne.symm hst), hy]
    have hamount := Int64.le_iff_toInt_le.mp hnonneg
    rw [Int64.toInt_zero] at hamount
    have hlow : Int64.minValue.toInt ≤ y.balance.toInt := y.balance.minValue_le_toInt
    have hadd : addExact? y.balance amount = some (y.balance + amount) :=
      if_pos ⟨by omega, hroom hst⟩
    rw [if_neg hst, hadd]
    simp only [Except.ok.injEq]
    rw [pay, ← setAccount_eq_adjust hy', ← setAccount_eq_adjust hx]
    simp only [Account.credit, Int64.sub_eq_add_neg]

theorem payable_of_transfer (h : s.transfer source target amount = .ok t) :
    Payable s source target amount := by
  unfold transfer at h
  split at h
  · cases h
  · rename_i hneg
    split at h
    · cases h
    · cases h
    · rename_i x y hx hy
      split at h
      · cases h
      · rename_i hfunds
        refine ⟨Int64.not_lt.mp hneg, ⟨x.balance, ?_, Int64.not_lt.mp hfunds⟩, y.balance, ?_, ?_⟩
        · rw [balance?, hx, Option.map_some]
        · rw [balance?, hy, Option.map_some]
        · intro hst
          rw [if_neg hst, addExact?] at h
          split at h
          · cases h
          · rename_i hsome
            by_contra hroom
            rw [if_neg fun hr ↦ hroom hr.2] at hsome
            cases hsome

/-- A transfer is a payment that is possible. -/
theorem transfer_eq_ok_iff :
    s.transfer source target amount = .ok t ↔
      Payable s source target amount ∧ t = s.pay source target amount := by
  constructor
  · intro h
    have hpayable := payable_of_transfer h
    rw [transfer_of_payable hpayable, Except.ok.injEq] at h
    exact ⟨hpayable, h.symm⟩
  · rintro ⟨h, rfl⟩
    exact transfer_of_payable h

/-- A payment stays possible after another one from a different source, if the other one is still
possible after it. -/
theorem Payable.after {source' target' : Address} {amount' : Int64} (hne : source ≠ source')
    (h : Payable s source target amount) (h' : Payable s source' target' amount')
    (hafter : Payable (s.pay source target amount) source' target' amount') :
    Payable (s.pay source' target' amount') source target amount := by
  have hnonneg' := Int64.le_iff_toInt_le.mp h'.nonneg
  have hnonneg := Int64.le_iff_toInt_le.mp h.nonneg
  rw [Int64.toInt_zero] at hnonneg hnonneg'
  obtain ⟨x, hx, hcover⟩ := h.funds
  obtain ⟨y, hy, hroom⟩ := h.room
  refine ⟨h.nonneg, ⟨_, balance?_pay hx .., ?_⟩, _, balance?_pay hy .., ?_⟩
  · -- The source can only have been paid in between.
    rw [Int64.le_iff_toInt_le, h'.toInt_share hx, if_neg hne]
    rw [Int64.le_iff_toInt_le] at hcover
    split <;> omega
  · intro hst
    rw [h'.toInt_share hy]
    have hroom := hroom hst
    by_cases htarget : target = target'
    · subst htarget
      by_cases hsource' : target = source'
      · rw [if_pos hsource', if_pos rfl]
        omega
      · -- Both pay the target, which has room for both in the first order.
        obtain ⟨z, hz, hroom'⟩ := hafter.room
        obtain rfl : _ = z := Option.some.inj ((balance?_pay hy ..).symm.trans hz)
        have hroom' := hroom' (Ne.symm hsource')
        rw [h.toInt_share hy, if_neg (Ne.symm hst), if_pos rfl] at hroom'
        rw [if_neg hsource', if_pos rfl]
        omega
    · rw [if_neg htarget]
      split <;> omega

end Ledger

end MeteredLedger
