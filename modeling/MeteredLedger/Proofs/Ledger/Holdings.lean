import Mathlib.Logic.ExistsUnique
import MeteredLedger.Proofs.Bytes.BigEndian
import MeteredLedger.Proofs.Ledger.Accounts
import MeteredLedger.Proofs.Sorted.Map
import MeteredLedger.Proofs.Value.Order

/-!
# Holdings

What an account holds is kept under the big-endian blob of an owner's address, and nil is never
kept.  An account is built step by step, and no step but `setHolding` writes holdings, so this holds
of every account that was ever built.  That the keys of different owners differ is all that keeps
their holdings apart: it is read off the number that a key writes.
-/

namespace MeteredLedger

/-! ## Keys -/

namespace Address

@[simp] theorem size_toBlob (a : Address) : a.toBlob.size = 8 := Bytes.length_ofUInt64 a.number

/-- The bytes of an address stand for its number. -/
theorem number_toBlob (a : Address) : Bytes.number a.toBlob.bytes = a.toNat :=
  Bytes.number_ofUInt64 a.number

@[simp] theorem toBlob_inj {a b : Address} : a.toBlob = b.toBlob ↔ a = b := by
  constructor
  · intro h
    rw [← toNat_inj, ← number_toBlob, ← number_toBlob, h]
  · rintro rfl
    rfl

end Address

/-- The holdings of an account: each key is the blob of exactly one address, and no value is nil. -/
structure SoundHoldings (m : BlobMap) : Prop where
  ascending : m.Ascending
  key : ∀ k ∈ m.keys, ∃! a : Address, k = a.toBlob
  value : ∀ e ∈ m.entries, e.2 ≠ .nil

namespace SoundHoldings

variable {m : BlobMap}

theorem empty : SoundHoldings .empty where
  ascending := .empty
  key _ hk := by cases hk
  value _ he := by cases he

/-- A holding that is not nil may be put in for an owner. -/
theorem insert (h : SoundHoldings m) (owner : Address) {v : Value} (hv : v ≠ .nil) :
    SoundHoldings (m.insert owner.toBlob v) where
  ascending := h.ascending.insert owner.toBlob v
  key := by
    intro k hk
    rcases SortedMap.mem_keys_insert hk with rfl | hk
    · exact ⟨owner, rfl, fun a ha ↦ (Address.toBlob_inj.mp ha).symm⟩
    · exact h.key k hk
  value := by
    intro e he
    rcases SortedMap.mem_insertIn he with rfl | he
    · exact hv
    · exact h.value e he

theorem erase (h : SoundHoldings m) (k : Blob) : SoundHoldings (m.erase k) where
  ascending := h.ascending.erase k
  key l hl := h.key l (SortedMap.mem_keys_of_mem_keys_erase hl)
  value e he := h.value e ((SortedMap.eraseIn_sublist k m.entries).subset he)

end SoundHoldings

/-! ## Accounts -/

namespace Account

variable {x : Account Value} {owner o : Address} {v : Value}

theorem setHolding_of_ne_nil (hv : v ≠ .nil) (x : Account Value) (owner : Address) :
    x.setHolding owner v = { x with holdings := x.holdings.insert owner.toBlob v } := by
  cases v with
  | nil => exact absurd rfl hv
  | _ => rfl

/-- What was set for an owner is found, and nothing if it was nil. -/
theorem holding?_setHolding_self (hx : x.holdings.Ascending) (owner : Address) (v : Value) :
    (x.setHolding owner v).holding? owner = if v = .nil then none else some v := by
  by_cases hv : v = .nil
  · rw [if_pos hv, hv]
    exact hx.find?_erase_self owner.toBlob
  · rw [if_neg hv, setHolding_of_ne_nil hv]
    exact x.holdings.find?_insert_self owner.toBlob v

/-- What is set for one owner does not show at others. -/
theorem holding?_setHolding_of_ne (ho : o ≠ owner) (x : Account Value) (v : Value) :
    (x.setHolding owner v).holding? o = x.holding? o := by
  have hkey : o.toBlob ≠ owner.toBlob := fun he ↦ ho (Address.toBlob_inj.mp he)
  by_cases hv : v = .nil
  · rw [hv]
    exact SortedMap.find?_erase_of_ne hkey x.holdings
  · rw [setHolding_of_ne_nil hv]
    exact SortedMap.find?_insert_of_ne hkey x.holdings v

/-- The accounts that can be built: a new one, and one with a part of another one set anew. -/
inductive Built : Account Value → Prop
  | ofBalance (balance : Int64) : Built (.ofBalance balance)
  | setBalance {x : Account Value} (balance : Int64) : Built x → Built { x with balance }
  | setSequence {x : Account Value} (sequence : Int64) : Built x → Built { x with sequence }
  | setEnvironment {x : Account Value} (environment : Map) :
      Built x → Built { x with environment }
  | setHolding {x : Account Value} (owner : Address) (v : Value) :
      Built x → Built (x.setHolding owner v)

/-- The holdings of an account that has been built are sound. -/
theorem Built.soundHoldings (h : x.Built) : SoundHoldings x.holdings := by
  induction h with
  | ofBalance balance => exact .empty
  | setBalance balance _ ih => exact ih
  | setSequence sequence _ ih => exact ih
  | setEnvironment environment _ ih => exact ih
  | @setHolding x owner v _ ih =>
      by_cases hv : v = .nil
      · rw [hv]
        exact ih.erase owner.toBlob
      · rw [setHolding_of_ne_nil hv]
        exact ih.insert owner hv

end Account

/-! ## Ledgers -/

namespace Ledger

/-- Every account of the ledger has been built. -/
def AllBuilt (s : Ledger Value) : Prop := ∀ x ∈ s.accounts, x.Built

variable {s t : Ledger Value} {a owner : Address} {v : Value} {x : Account Value}

theorem AllBuilt.account (h : s.AllBuilt) (hx : s.account? a = some x) : x.Built :=
  h x (List.mem_of_getElem? hx)

theorem AllBuilt.setAccount (h : s.AllBuilt) (a : Address) (hx : x.Built) :
    (s.setAccount a x).AllBuilt := by
  intro y hy
  rcases List.mem_or_eq_of_mem_set hy with hy | rfl
  · exact h y hy
  · exact hx

/-- A change that keeps accounts built may be made to one of them. -/
theorem AllBuilt.modifyAccount (h : s.AllBuilt) {f : Account Value → Account Value}
    (hf : ∀ x, Account.Built x → (f x).Built) (ht : s.modifyAccount a f = .ok t) :
    t.AllBuilt := by
  obtain ⟨x, hx, rfl⟩ := modifyAccount_eq_ok ht
  exact h.setAccount a (hf x (h.account hx))

theorem AllBuilt.setHolding (h : s.AllBuilt) (ht : s.setHolding a owner v = .ok t) :
    t.AllBuilt :=
  h.modifyAccount (fun _ hx ↦ hx.setHolding owner v) ht

theorem AllBuilt.transfer (h : s.AllBuilt) {source target : Address} {amount : Int64}
    (ht : s.transfer source target amount = .ok t) : t.AllBuilt := by
  rcases transfer_eq_ok ht with ⟨-, rfl⟩ | ⟨-, x, y, hx, hy, -, -, -, rfl⟩
  · exact h
  · exact (h.setAccount source ((h.account hx).setBalance _)).setAccount target
      ((h.account hy).setBalance _)

/-- The ledgers differ in what the account `a` holds for the owner, and this is now `v`, where nil
stands for nothing. -/
structure HoldingSet (a owner : Address) (v : Value) (s t : Ledger Value) : Prop where
  holding : t.holding? a owner = if v = .nil then none else some v
  other_owner : ∀ o, o ≠ owner → t.holding? a o = s.holding? a o
  other_account : ∀ b, b ≠ a → t.account? b = s.account? b
  other_field : ∃ x m, s.account? a = some x ∧ t.account? a = some { x with holdings := m }
  length_eq : t.accounts.length = s.accounts.length
  timestamp_eq : t.timestamp = s.timestamp

/-- To put in the account with its new holding sets this holding and no other. -/
theorem holdingSet_setAccount (hx : s.account? a = some x) (hm : x.holdings.Ascending)
    (owner : Address) (v : Value) :
    HoldingSet a owner v s (s.setAccount a (x.setHolding owner v)) := by
  have ht : (s.setAccount a (x.setHolding owner v)).account? a = some (x.setHolding owner v) :=
    account?_setAccount_self hx _
  refine ⟨?_, fun o ho ↦ ?_, fun b hb ↦ ?_, ⟨x, _, hx, ht⟩, ?_, rfl⟩
  · rw [holding?, ht]
    exact x.holding?_setHolding_self hm owner v
  · rw [holding?, holding?, ht, hx]
    exact x.holding?_setHolding_of_ne ho v
  · exact account?_setAccount_of_ne hb s _
  · exact length_accounts_setAccount s a _

/-- Setting a holding of an account that is there succeeds, and does just that. -/
theorem exists_setHolding (hx : s.account? a = some x) (hm : x.holdings.Ascending)
    (owner : Address) (v : Value) :
    ∃ t, s.setHolding a owner v = .ok t ∧ HoldingSet a owner v s t :=
  ⟨_, modifyAccount_of_some hx _, holdingSet_setAccount hx hm owner v⟩

end Ledger

end MeteredLedger
