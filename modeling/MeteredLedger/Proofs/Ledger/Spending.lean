import MeteredLedger.Proofs.Ledger.Accounts

/-!
# What one account can do to a ledger

`Spends owner s t` bounds the difference between two ledgers by what the account `owner` may bring
about on its own: it can pay out of its balance and change its holdings, and other accounts can be
paid.  Sequence numbers, stored definitions, the accounts themselves and the time stay.  The
relation is reflexive and transitive, so it bounds whole executions as soon as it bounds their
parts.
-/

namespace MeteredLedger.Ledger

/-- `t` differs from `s` by what the account `owner` can do on its own. -/
structure Spends (owner : Address) (s t : Ledger Value) : Prop where
  timestamp_eq : t.timestamp = s.timestamp
  length_eq : t.accounts.length = s.accounts.length
  /-- The account may have paid and changed what it holds. -/
  own : ∀ {x}, s.account? owner = some x →
    ∃ b h, b ≤ x.balance ∧ t.account? owner = some { x with balance := b, holdings := h }
  /-- Any other account may have been paid. -/
  other : ∀ {a x}, a ≠ owner → s.account? a = some x →
    ∃ b, x.balance ≤ b ∧ t.account? a = some { x with balance := b }

variable {owner : Address} {s t u : Ledger Value}

theorem Spends.refl (owner : Address) (s : Ledger Value) : Spends owner s s where
  timestamp_eq := rfl
  length_eq := rfl
  own hx := ⟨_, _, Int64.le_refl _, hx⟩
  other _ hx := ⟨_, Int64.le_refl _, hx⟩

theorem Spends.trans (h : Spends owner s t) (h' : Spends owner t u) : Spends owner s u where
  timestamp_eq := h'.timestamp_eq.trans h.timestamp_eq
  length_eq := h'.length_eq.trans h.length_eq
  own hx := by
    obtain ⟨b, m, hb, ht⟩ := h.own hx
    obtain ⟨b', m', hb', hu⟩ := h'.own ht
    exact ⟨b', m', Int64.le_trans hb' hb, hu⟩
  other hne hx := by
    obtain ⟨b, hb, ht⟩ := h.other hne hx
    obtain ⟨b', hb', hu⟩ := h'.other hne ht
    exact ⟨b', Int64.le_trans hb hb', hu⟩

/-- Setting the holdings of an account is its own business. -/
theorem spends_of_setHolding {v : Value} {a : Address} (h : s.setHolding owner a v = .ok t) :
    Spends owner s t := by
  obtain ⟨x, hx, rfl⟩ := setHolding_eq_ok h
  refine ⟨rfl, length_accounts_setAccount .., ?_, ?_⟩
  · intro x' hx'
    obtain rfl : x = x' := Option.some.inj (hx.symm.trans hx')
    exact ⟨x.balance, _, Int64.le_refl _, account?_setAccount_self hx _⟩
  · intro a' y hne hy
    exact ⟨y.balance, Int64.le_refl _, by rw [account?_setAccount_of_ne hne, hy]⟩

/-- A transfer is paid by its source. -/
theorem spends_of_transfer {target : Address} {amount : Int64}
    (h : s.transfer owner target amount = .ok t) : Spends owner s t := by
  rcases transfer_eq_ok h with ⟨-, rfl⟩ | ⟨hne, x, y, hx, hy, hamount, hcover, hcredit, rfl⟩
  · exact .refl owner t
  · rw [Int64.le_iff_toInt_le, Int64.toInt_zero] at hamount
    have hy' : (s.setAccount owner { x with balance := x.balance - amount }).account? target =
        some y := by rw [account?_setAccount_of_ne hne.symm, hy]
    refine ⟨rfl, by simp, ?_, ?_⟩
    · intro x' hx'
      obtain rfl : x = x' := Option.some.inj (hx.symm.trans hx')
      refine ⟨x.balance - amount, x.holdings, ?_, ?_⟩
      · rw [Int64.le_iff_toInt_le, Int64.toInt_sub_of_le _ _ (Int64.le_iff_toInt_le.mpr hamount)
          hcover]
        omega
      · rw [account?_setAccount_of_ne hne, account?_setAccount_self hx]
    · intro a z ha hz
      by_cases hat : a = target
      · subst hat
        obtain rfl : y = z := Option.some.inj (hy.symm.trans hz)
        refine ⟨y.balance + amount, ?_, account?_setAccount_self hy' _⟩
        rw [Int64.le_iff_toInt_le, hcredit]
        omega
      · refine ⟨z.balance, Int64.le_refl _, ?_⟩
        rw [account?_setAccount_of_ne hat, account?_setAccount_of_ne ha, hz]

end MeteredLedger.Ledger
