import MeteredLedger.Proofs.Ledger.Payments

/-!
# What stands against a transfer

Several things can stand against a transfer at once.  `objections` lists all of them, each judged by
itself, in the order in which they count.  A transfer is possible if the list is empty, and it is
refused with the head of the list otherwise.  One that is possible moves the amount and does nothing
else: `Delivered` says so of every account and every number.
-/

namespace MeteredLedger.Ledger

/-- All that stands against a transfer, in the order in which it counts. -/
def objections (s : Ledger Value) (source target : Address) (amount : Int64) : List UpdateError :=
  (if amount < 0 then [.invalidAmount amount] else []) ++
  (if (s.account? source).isNone then [.noSuchAccount source] else []) ++
  (if (s.account? target).isNone then [.noSuchAccount target] else []) ++
  (match s.balance? source with
    | some b => if b < amount then [.insufficientFunds source b amount] else []
    | none => []) ++
  (match s.balance? target with
    | some b =>
      -- A transfer to oneself credits nothing.
      if source ≠ target ∧ Int64.maxValue.toInt < b.toInt + amount.toInt
      then [.invalidAmount amount] else []
    | none => [])

/-- The amount has gone from one account to another.  Both balances are the numbers they are meant
to be, both accounts could be replaced, and nothing else has changed. -/
structure Delivered (s t : Ledger Value) (source target : Address) (amount : Int64) : Prop where
  timestamp_eq : t.timestamp = s.timestamp
  length_eq : t.accounts.length = s.accounts.length
  others : ∀ i, i ≠ source.toNat → i ≠ target.toNat → t.accounts[i]? = s.accounts[i]?
  debited : ∃ x b, s.account? source = some x ∧ b.toInt = x.balance.toInt - amount.toInt ∧
    t.account? source = some { x with balance := b }
  credited : ∃ y b, s.account? target = some y ∧ b.toInt = y.balance.toInt + amount.toInt ∧
    t.account? target = some { y with balance := b }
  replaced : ∃ x y, t.account? source = some x ∧ t.account? target = some y ∧
    (s.replaceAccount source x).bind (·.replaceAccount target y) = .ok t

variable {s t : Ledger Value} {source target : Address} {amount : Int64}

/-! ## When a transfer is possible -/

/-- What a payment needs, with the room of the target in numbers. -/
theorem payable_iff :
    Payable s source target amount ↔
      0 ≤ amount ∧ ∃ x y, s.account? source = some x ∧ s.account? target = some y ∧
        amount ≤ x.balance ∧
        (source = target ∨ y.balance.toInt + amount.toInt ≤ Int64.maxValue.toInt) := by
  constructor
  · rintro ⟨hnonneg, ⟨_, hsource, hcover⟩, ⟨_, htarget, hroom⟩⟩
    obtain ⟨x, hx, rfl⟩ := Option.map_eq_some_iff.mp hsource
    obtain ⟨y, hy, rfl⟩ := Option.map_eq_some_iff.mp htarget
    exact ⟨hnonneg, x, y, hx, hy, hcover, Decidable.or_iff_not_imp_left.mpr hroom⟩
  · rintro ⟨hnonneg, x, y, hx, hy, hcover, hroom⟩
    refine ⟨hnonneg, ⟨x.balance, ?_, hcover⟩, y.balance, ?_,
      Decidable.or_iff_not_imp_left.mp hroom⟩
    · rw [balance?, hx, Option.map_some]
    · rw [balance?, hy, Option.map_some]

/-- A transfer succeeds exactly if it can be paid. -/
theorem exists_transfer_eq_ok_iff :
    (∃ t, s.transfer source target amount = .ok t) ↔ Payable s source target amount :=
  ⟨fun ⟨_, h⟩ ↦ payable_of_transfer h, fun h ↦ ⟨_, transfer_of_payable h⟩⟩

/-- With a summand that is not negative, a sum can only be too large. -/
theorem addExact?_eq_none_iff {a b : Int64} (hb : 0 ≤ b) :
    addExact? a b = none ↔ Int64.maxValue.toInt < a.toInt + b.toInt := by
  have hlow : Int64.minValue.toInt ≤ a.toInt := a.minValue_le_toInt
  have hb := Int64.le_iff_toInt_le.mp hb
  rw [Int64.toInt_zero] at hb
  simp only [addExact?, ite_eq_right_iff, reduceCtorEq, imp_false]
  omega

/-- A transfer that is refused is refused with the first objection. -/
theorem transfer_eq_error_iff {e : UpdateError} :
    s.transfer source target amount = .error e ↔
      (s.objections source target amount).head? = some e := by
  unfold transfer objections
  by_cases hneg : amount < 0
  · simp [hneg]
  have hnonneg : 0 ≤ amount := Int64.not_lt.mp hneg
  cases hx : s.account? source with
  | none => simp [hneg]
  | some x =>
      cases hy : s.account? target with
      | none => simp [hneg]
      | some y =>
          by_cases hfunds : x.balance < amount
          · simp [hneg, balance?, hx, hfunds]
          by_cases hst : source = target
          · subst hst
            simp [hneg, balance?, hx, hfunds]
          have hnone := addExact?_eq_none_iff (a := y.balance) hnonneg
          cases hadd : addExact? y.balance amount with
          | none => simp [hneg, balance?, hx, hy, hfunds, hst, hadd, hnone.mp hadd]
          | some b =>
              have hroom : ¬ Int64.maxValue.toInt < y.balance.toInt + amount.toInt := by
                rw [← hnone, hadd]
                exact Option.some_ne_none b
              simp [hneg, balance?, hx, hy, hfunds, hst, hadd, hroom]

/-! ## What a transfer does -/

theorem getElem?_accounts_setAccount_of_ne {i : Nat} {a : Address} (h : i ≠ a.toNat)
    (s : Ledger Value) (x : Account Value) : (s.setAccount a x).accounts[i]? = s.accounts[i]? :=
  List.getElem?_set_ne (Ne.symm h)

theorem replaceAccount_of_some {a : Address} {x : Account Value} (hx : s.account? a = some x)
    (y : Account Value) : s.replaceAccount a y = .ok (s.setAccount a y) :=
  modifyAccount_of_some hx fun _ ↦ y

/-- A transfer that succeeds takes the amount from its source, gives it to its target and does
nothing else. -/
theorem delivered_of_transfer (hne : source ≠ target)
    (h : s.transfer source target amount = .ok t) : Delivered s t source target amount := by
  rcases transfer_eq_ok h with ⟨heq, -⟩ | ⟨-, x, y, hx, hy, hamount, hcover, hcredit, rfl⟩
  · exact absurd heq hne
  -- The debit is still there after the credit, which was computed from an account it left alone.
  have hy' : (s.setAccount source { x with balance := x.balance - amount }).account? target =
      some y := by rw [account?_setAccount_of_ne hne.symm, hy]
  have hsource : ((s.setAccount source { x with balance := x.balance - amount }).setAccount target
      { y with balance := y.balance + amount }).account? source =
        some { x with balance := x.balance - amount } := by
    rw [account?_setAccount_of_ne hne, account?_setAccount_self hx]
  have htarget := account?_setAccount_self hy' { y with balance := y.balance + amount }
  refine ⟨rfl, by simp, ?_, ⟨x, _, hx, Int64.toInt_sub_of_le _ _ hamount hcover, hsource⟩,
    ⟨y, _, hy, hcredit, htarget⟩, _, _, hsource, htarget, ?_⟩
  · intro i hi hi'
    rw [getElem?_accounts_setAccount_of_ne hi', getElem?_accounts_setAccount_of_ne hi]
  · rw [replaceAccount_of_some hx]
    exact replaceAccount_of_some hy' _

/-- **Transfers, exactly.** A transfer is possible if and only if the amount is not negative, both
accounts are there, the source covers the amount, and the target has room for it or is the source.
If it is refused, it is for the first thing that stands against it.  If it is not, then a transfer
to oneself changes nothing, and any other moves the amount from the source to the target and leaves
everything else as it was. -/
theorem transfer_exact (s : Ledger Value) (source target : Address) (amount : Int64) :
    ((∃ t, s.transfer source target amount = .ok t) ↔
      0 ≤ amount ∧ ∃ x y, s.account? source = some x ∧ s.account? target = some y ∧
        amount ≤ x.balance ∧
        (source = target ∨ y.balance.toInt + amount.toInt ≤ Int64.maxValue.toInt)) ∧
    (∀ e, s.transfer source target amount = .error e ↔
      (s.objections source target amount).head? = some e) ∧
    (∀ t, s.transfer source target amount = .ok t →
      (source = target → t = s) ∧ (source ≠ target → Delivered s t source target amount)) := by
  refine ⟨exists_transfer_eq_ok_iff.trans payable_iff, fun e ↦ transfer_eq_error_iff, ?_⟩
  intro t h
  refine ⟨?_, fun hne ↦ delivered_of_transfer hne h⟩
  rintro rfl
  rw [(transfer_eq_ok_iff.mp h).2, pay_self]

/-- An account can be filled up to the largest word, and it can pay itself when it is full.  One
more is an invalid amount, and an account in debt cannot even pay nothing. -/
theorem transfer_exact_full_account :
    let s := genesis [10, Int64.maxValue - 3, -7]
    (∃ t, s.transfer ⟨0⟩ ⟨1⟩ 3 = .ok t ∧ Delivered s t ⟨0⟩ ⟨1⟩ 3 ∧
      t.transfer ⟨1⟩ ⟨1⟩ 5 = .ok t ∧ t.transfer ⟨0⟩ ⟨1⟩ 1 = .error (.invalidAmount 1)) ∧
    s.objections ⟨2⟩ ⟨9⟩ 0 = [.noSuchAccount ⟨9⟩, .insufficientFunds ⟨2⟩ (-7) 0] ∧
    s.transfer ⟨2⟩ ⟨9⟩ 0 = .error (.noSuchAccount ⟨9⟩) ∧
    s.transfer ⟨2⟩ ⟨1⟩ 0 = .error (.insufficientFunds ⟨2⟩ (-7) 0) := by
  intro s
  have hok : s.transfer ⟨0⟩ ⟨1⟩ 3 = .ok (genesis [7, Int64.maxValue, -7]) := by decide
  refine ⟨⟨_, hok, ((transfer_exact s ⟨0⟩ ⟨1⟩ 3).2.2 _ hok).2 (by decide), by decide, ?_⟩,
    by decide, ?_, ?_⟩
  · exact ((transfer_exact _ ⟨0⟩ ⟨1⟩ 1).2.1 _).mpr (by decide)
  · exact ((transfer_exact s ⟨2⟩ ⟨9⟩ 0).2.1 _).mpr (by decide)
  · exact ((transfer_exact s ⟨2⟩ ⟨1⟩ 0).2.1 _).mpr (by decide)

end MeteredLedger.Ledger
