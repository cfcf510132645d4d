import MeteredLedger.Ledger.Transfer

/-!
# Accounts under updates

What reading an account gives after a ledger has been updated, and what a successful update can
have been.  Everything that is proved of an evaluation later goes through `transfer_eq_ok` and
`setHolding_eq_ok`: no other operation of the machine makes a new ledger.
-/

namespace MeteredLedger

@[simp] theorem Address.toNat_inj {a b : Address} : a.toNat = b.toNat ↔ a = b := by
  cases a
  cases b
  simp [Address.toNat, UInt64.toNat_inj]

/-- A checked sum is the sum of the numbers. -/
theorem addExact?_eq_some {a b n : Int64} (h : addExact? a b = some n) :
    n = a + b ∧ (a + b).toInt = a.toInt + b.toInt := by
  unfold addExact? at h
  split at h
  · rename_i hroom
    cases h
    refine ⟨rfl, ?_⟩
    rw [Int64.toInt_add]
    exact Int.bmod_eq_of_le hroom.1 (Int.lt_add_one_of_le hroom.2)
  · cases h

namespace Ledger

/-! ## Reading after writing -/

/-- The account that was put in is there. -/
theorem account?_setAccount_self {s : Ledger Value} {a : Address} {x : Account Value}
    (hx : s.account? a = some x) (y : Account Value) : (s.setAccount a y).account? a = some y := by
  have hlt : a.toNat < s.accounts.length := (List.getElem?_eq_some_iff.mp hx).1
  simp only [account?, setAccount]
  rw [List.getElem?_set_self hlt]

/-- An account that is put in does not show at other addresses. -/
theorem account?_setAccount_of_ne {a b : Address} (h : b ≠ a) (s : Ledger Value)
    (y : Account Value) : (s.setAccount a y).account? b = s.account? b := by
  have hne : a.toNat ≠ b.toNat := fun he ↦ h (Address.toNat_inj.mp he).symm
  simp only [account?, setAccount]
  rw [List.getElem?_set_ne hne]

/-- An account that is read back unchanged is the one that was there. -/
theorem setAccount_eq_self {s : Ledger Value} {a : Address} {x : Account Value}
    (hx : s.account? a = some x) : s.setAccount a x = s := by
  obtain ⟨hlt, hget⟩ := List.getElem?_eq_some_iff.mp hx
  simp only [setAccount]
  rw [← hget, List.set_getElem_self]

/-- Whether an account is there depends on the number of accounts alone. -/
theorem account?_isSome_iff (s : Ledger Value) (a : Address) :
    (s.account? a).isSome ↔ a.toNat < s.accounts.length := by
  simp [account?]

/-- A ledger of as many accounts has the same addresses. -/
theorem exists_account?_of_length_eq {s t : Ledger Value} {a : Address} {x : Account Value}
    (hlen : t.accounts.length = s.accounts.length) (hx : s.account? a = some x) :
    ∃ y, t.account? a = some y := by
  rw [← Option.isSome_iff_exists, account?_isSome_iff, hlen, ← account?_isSome_iff, hx]
  rfl

/-! ## What a successful update can have been -/

theorem modifyAccount_of_some {s : Ledger Value} {a : Address} {x : Account Value}
    (hx : s.account? a = some x) (f : Account Value → Account Value) :
    s.modifyAccount a f = .ok (s.setAccount a (f x)) := by
  simp only [modifyAccount, hx]

/-- A change that succeeds has found its account. -/
theorem modifyAccount_eq_ok {s t : Ledger Value} {a : Address} {f : Account Value → Account Value}
    (h : s.modifyAccount a f = .ok t) :
    ∃ x, s.account? a = some x ∧ t = s.setAccount a (f x) := by
  cases hx : s.account? a with
  | none => simp [modifyAccount, hx] at h
  | some x =>
      rw [modifyAccount_of_some hx, Except.ok.injEq] at h
      exact ⟨x, rfl, h.symm⟩

theorem setHolding_eq_ok {s t : Ledger Value} {a owner : Address} {v : Value}
    (h : s.setHolding a owner v = .ok t) :
    ∃ x, s.account? a = some x ∧ t = s.setAccount a (x.setHolding owner v) :=
  modifyAccount_eq_ok h

/-- A transfer that succeeds was to oneself, and then nothing happened, or it debited one account
and credited another, and neither number wrapped. -/
theorem transfer_eq_ok {s t : Ledger Value} {source target : Address} {amount : Int64}
    (h : s.transfer source target amount = .ok t) :
    (source = target ∧ t = s) ∨
    (source ≠ target ∧ ∃ x y, s.account? source = some x ∧ s.account? target = some y ∧
      0 ≤ amount ∧ amount ≤ x.balance ∧
      (y.balance + amount).toInt = y.balance.toInt + amount.toInt ∧
      t = (s.setAccount source { x with balance := x.balance - amount }).setAccount target
        { y with balance := y.balance + amount }) := by
  unfold transfer at h
  split at h
  · cases h
  · rename_i hneg
    split at h
    · cases h
    · cases h
    · rename_i x y hx hy
      split at h
      · cases h
      · rename_i hfunds
        by_cases hst : source = target
        · rw [if_pos hst, Except.ok.injEq] at h
          exact .inl ⟨hst, h.symm⟩
        · rw [if_neg hst] at h
          cases hadd : addExact? y.balance amount with
          | none => simp [hadd] at h
          | some credited =>
              obtain ⟨rfl, hexact⟩ := addExact?_eq_some hadd
              rw [hadd, Except.ok.injEq] at h
              exact .inr ⟨hst, x, y, hx, hy, Int64.not_lt.mp hneg, Int64.not_lt.mp hfunds,
                hexact, h.symm⟩

end Ledger

end MeteredLedger
