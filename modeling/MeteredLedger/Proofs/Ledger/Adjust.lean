import Mathlib.Data.List.Basic
import MeteredLedger.Proofs.Ledger.Accounts

/-!
# Adjusting accounts

Every update of a ledger is a function applied to one account in its place.  Seen this way, updates
commute as soon as their functions do, and those of different accounts always do: `adjust_comm` is
all that the order of two transactions comes down to.
-/

namespace MeteredLedger.Ledger

/-- Applies a function to the account at `a`, if there is one. -/
def adjust (s : Ledger Value) (a : Address) (f : Account Value → Account Value) : Ledger Value :=
  { s with accounts := s.accounts.modify a.toNat f }

variable {s : Ledger Value} {a b : Address} {f g : Account Value → Account Value}

@[simp] theorem adjust_id (s : Ledger Value) (a : Address) : s.adjust a id = s := by
  rw [adjust, List.modify_id]

@[simp] theorem account?_adjust_self (s : Ledger Value) (a : Address)
    (f : Account Value → Account Value) : (s.adjust a f).account? a = (s.account? a).map f := by
  simp [account?, adjust]

/-- A change to one account does not show at other addresses. -/
theorem account?_adjust_of_ne (h : b ≠ a) (s : Ledger Value) (f : Account Value → Account Value) :
    (s.adjust a f).account? b = s.account? b := by
  have hne : a.toNat ≠ b.toNat := fun he ↦ h (Address.toNat_inj.mp he).symm
  simp [account?, adjust, hne]

/-- Two changes to an account are one. -/
theorem adjust_adjust (s : Ledger Value) (a : Address) (f g : Account Value → Account Value) :
    (s.adjust a f).adjust a g = s.adjust a (g ∘ f) := by
  simp only [adjust, List.modify_modify_eq]

/-- Changes to different accounts commute, and to one account if they do. -/
theorem adjust_comm (s : Ledger Value) (h : a = b → g ∘ f = f ∘ g) :
    (s.adjust a f).adjust b g = (s.adjust b g).adjust a f := by
  by_cases hab : a = b
  · subst hab
    rw [adjust_adjust, adjust_adjust, h rfl]
  · have hne : a.toNat ≠ b.toNat := fun he ↦ hab (Address.toNat_inj.mp he)
    simp only [adjust, List.modify_modify_ne f g _ hne]

/-- A change that keeps the balance of an account keeps all balances. -/
theorem balance?_adjust (hf : ∀ x, (f x).balance = x.balance) (s : Ledger Value) (a b : Address) :
    (s.adjust a f).balance? b = s.balance? b := by
  by_cases hab : b = a
  · subst hab
    simp [balance?, Function.comp_def, hf]
  · rw [balance?, account?_adjust_of_ne hab, balance?]

/-! ## Updates as adjustments -/

/-- Writing an account that was computed from the old one adjusts it. -/
theorem setAccount_eq_adjust {x : Account Value} (hx : s.account? a = some x)
    (f : Account Value → Account Value) : s.setAccount a (f x) = s.adjust a f := by
  rw [account?] at hx
  rw [setAccount, adjust, List.modify_eq_set_getElem?, hx]
  rfl

/-- Changing an account adjusts it, unless it is not there. -/
theorem modifyAccount_eq_ite (s : Ledger Value) (a : Address)
    (f : Account Value → Account Value) :
    s.modifyAccount a f =
      if (s.account? a).isSome then .ok (s.adjust a f) else .error (.noSuchAccount a) := by
  cases hx : s.account? a with
  | none => simp [modifyAccount, hx]
  | some x => simp [modifyAccount_of_some hx, setAccount_eq_adjust hx]

end MeteredLedger.Ledger
