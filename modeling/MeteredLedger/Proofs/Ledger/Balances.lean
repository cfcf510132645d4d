import Mathlib.Algebra.BigOperators.Group.List.Basic
import Mathlib.Algebra.Ring.Int.Defs
import Mathlib.Logic.Relation
import MeteredLedger.Proofs.Ledger.Accounts

/-!
# Movements of funds

The balances of a ledger change in one way only: an amount leaves one account and arrives in
another.  `Moves s t` says that `t` has the balances of `s` up to at most one such movement, and
that neither the debited nor the credited number wrapped around.  A movement keeps the total, and
it keeps balances from getting negative.
-/

namespace MeteredLedger.Ledger

/-- The balances by account number. -/
def balances (s : Ledger Value) : List Int64 := s.accounts.map (·.balance)

/-- No balance is negative. -/
def Solvent (s : Ledger Value) : Prop := ∀ b ∈ s.balances, 0 ≤ b

-- Named, since a search may also go through all the words there are.
instance (s : Ledger Value) : Decidable s.Solvent := List.decidableBAll (0 ≤ ·) s.balances

/-- The balances of one ledger come from those of another by at most one movement of funds, in
which the words that are stored are the difference and the sum as numbers. -/
inductive Moves (s t : Ledger Value) : Prop
  /-- Nothing moved. -/
  | still (h : t.balances = s.balances)
  /-- An amount that the source covers went to another account. -/
  | moved {source target : Address} {amount x y : Int64} (hne : source ≠ target)
      (hx : s.balances[source.toNat]? = some x) (hy : s.balances[target.toNat]? = some y)
      (hamount : 0 ≤ amount) (hcover : amount ≤ x)
      (hdebit : (x - amount).toInt = x.toInt - amount.toInt)
      (hcredit : (y + amount).toInt = y.toInt + amount.toInt)
      (h : t.balances = (s.balances.set source.toNat (x - amount)).set target.toNat (y + amount))

/-- The balances of one ledger come from those of another by movements of funds. -/
abbrev Flows : Ledger Value → Ledger Value → Prop := Relation.ReflTransGen Moves

/-! ## Balances under updates -/

/-- The balance of an account stands at its address. -/
theorem balances_getElem? (s : Ledger Value) (a : Address) :
    s.balances[a.toNat]? = s.balance? a := by
  simp [balances, balance?, account?]

theorem balances_setAccount (s : Ledger Value) (a : Address) (x : Account Value) :
    (s.setAccount a x).balances = s.balances.set a.toNat x.balance := by
  simp [balances, setAccount, List.map_set]

/-- Replacing an account by one with its balance moves nothing. -/
theorem balances_setAccount_of_balance_eq {s : Ledger Value} {a : Address} {x y : Account Value}
    (hx : s.account? a = some x) (hy : y.balance = x.balance) :
    (s.setAccount a y).balances = s.balances := by
  have h := balances_setAccount s a x
  rw [setAccount_eq_self hx] at h
  rw [balances_setAccount, hy, ← h]

/-- A holding moves nothing. -/
theorem moves_of_setHolding {s t : Ledger Value} {a owner : Address} {v : Value}
    (h : s.setHolding a owner v = .ok t) : Moves s t := by
  obtain ⟨x, hx, rfl⟩ := setHolding_eq_ok h
  exact .still (balances_setAccount_of_balance_eq hx rfl)

/-- A transfer moves its amount, or nothing if it goes to its own source. -/
theorem moves_of_transfer {s t : Ledger Value} {source target : Address} {amount : Int64}
    (h : s.transfer source target amount = .ok t) : Moves s t := by
  rcases transfer_eq_ok h with ⟨-, rfl⟩ | ⟨hne, x, y, hx, hy, hamount, hcover, hcredit, rfl⟩
  · exact .still rfl
  · refine .moved hne (x := x.balance) (y := y.balance) ?_ ?_ hamount hcover
      (Int64.toInt_sub_of_le _ _ hamount hcover) hcredit ?_
    · rw [balances_getElem?, balance?, hx, Option.map_some]
    · rw [balances_getElem?, balance?, hy, Option.map_some]
    · rw [balances_setAccount, balances_setAccount]

/-! ## What a movement keeps -/

/-- The funds of a ledger are the sum of its balances as numbers. -/
theorem totalFunds_eq_sum (s : Ledger Value) :
    s.totalFunds = (s.balances.map Int64.toInt).sum := by
  simp only [totalFunds, balances]
  induction s.accounts with
  | nil => rfl
  | cons a as ih => simp only [fundsOf, ih, List.map_cons, List.sum_cons]

/-- Writing one balance changes the sum by the difference. -/
theorem sum_toInt_set {l : List Int64} {i : Nat} {x : Int64} (hx : l[i]? = some x) (y : Int64) :
    ((l.set i y).map Int64.toInt).sum = (l.map Int64.toInt).sum - x.toInt + y.toInt := by
  obtain ⟨hlt, rfl⟩ := List.getElem?_eq_some_iff.mp hx
  rw [List.map_set, List.sum_set', dif_pos (by rw [List.length_map]; exact hlt), List.getElem_map]
  omega

/-- What is taken in one place is put in another. -/
theorem Moves.totalFunds_eq {s t : Ledger Value} (h : Moves s t) :
    t.totalFunds = s.totalFunds := by
  rw [totalFunds_eq_sum, totalFunds_eq_sum]
  cases h with
  | still h => rw [h]
  | @moved source target amount x y hne hx hy hamount hcover hdebit hcredit h =>
      have hidx : source.toNat ≠ target.toNat := fun he ↦ hne (Address.toNat_inj.mp he)
      have hy' : (s.balances.set source.toNat (x - amount))[target.toNat]? = some y := by
        rw [List.getElem?_set_ne hidx, hy]
      rw [h, sum_toInt_set hy', sum_toInt_set hx, hdebit, hcredit]
      omega

/-- Nothing is taken from an account that it does not have. -/
theorem Moves.solvent {s t : Ledger Value} (h : Moves s t) (hs : s.Solvent) : t.Solvent := by
  intro b hb
  cases h with
  | still h => exact hs b (h ▸ hb)
  | @moved source target amount x y hne hx hy hamount hcover hdebit hcredit h =>
      have hy0 : 0 ≤ y := hs y (List.mem_of_getElem? hy)
      rw [h] at hb
      rw [Int64.le_iff_toInt_le] at hamount hcover hy0 ⊢
      rw [Int64.toInt_zero] at *
      rcases List.mem_or_eq_of_mem_set hb with hb | rfl
      · rcases List.mem_or_eq_of_mem_set hb with hb | rfl
        · exact Int64.le_iff_toInt_le.mp (hs b hb)
        · omega
      · omega

theorem Flows.totalFunds_eq {s t : Ledger Value} (h : Flows s t) :
    t.totalFunds = s.totalFunds := by
  induction h with
  | refl => rfl
  | tail _ hmove ih => exact hmove.totalFunds_eq.trans ih

theorem Flows.solvent {s t : Ledger Value} (h : Flows s t) (hs : s.Solvent) : t.Solvent := by
  induction h with
  | refl => exact hs
  | tail _ hmove ih => exact hmove.solvent ih

end MeteredLedger.Ledger
