import MeteredLedger.Proofs.Engine.Settlement

/-!
# Accounts are isolated from each other

A transaction is the business of its origin: it may pay others, but it cannot spend their funds,
replace their definitions or change what they hold.
-/

namespace MeteredLedger.Transaction

open Ledger

/-- **Isolation.** Whatever a transaction does, the time and the number of accounts stay; every
account other than its origin keeps its sequence number, definitions and holdings and has at least
the balance it had; and the origin has at most the balance it had. -/
theorem settle_isolated (base : Context) (tx : Transaction) :
    (tx.settle base).ledger.timestamp = base.ledger.timestamp ∧
    (tx.settle base).ledger.accounts.length = base.ledger.accounts.length ∧
    (∀ a x, a ≠ tx.origin → base.ledger.account? a = some x →
      ∃ y, (tx.settle base).ledger.account? a = some y ∧ y.sequence = x.sequence ∧
        y.environment = x.environment ∧ y.holdings = x.holdings ∧ x.balance ≤ y.balance) ∧
    (∀ x, base.ledger.account? tx.origin = some x →
      ∃ y, (tx.settle base).ledger.account? tx.origin = some y ∧ y.balance ≤ x.balance) := by
  have hother : ∀ a x, a ≠ tx.origin → base.ledger.account? a = some x →
      ∃ y, (tx.settle base).ledger.account? a = some y ∧ y.sequence = x.sequence ∧
        y.environment = x.environment ∧ y.holdings = x.holdings ∧ x.balance ≤ y.balance := by
    intro a x ha hx
    obtain ⟨b, hb, hy⟩ := account?_settle_of_ne ha hx
    exact ⟨_, hy, rfl, rfl, rfl, hb⟩
  rcases tx.settle_cases base with ⟨-, hs⟩ | ⟨-, _, z, -, -, hz, hs⟩
  · refine ⟨by rw [hs], by rw [hs], hother, fun x hx ↦ ⟨x, ?_, Int64.le_refl _⟩⟩
    rw [hs, hx]
  · have h := tx.spends_ending base
    refine ⟨?_, ?_, hother, fun x hx ↦ ?_⟩
    · rw [hs]
      exact h.timestamp_eq
    · rw [hs, stored, length_accounts_setAccount, h.length_eq]
    · obtain ⟨b, m, hb, hy⟩ := h.own hx
      obtain rfl : z = _ := Option.some.inj (hz.symm.trans hy)
      rw [hs, account?_stored_origin hz]
      exact ⟨_, rfl, hb⟩

/-- The second account receives what the first one pays, next to a definition and a holding that
the first one makes, and it is otherwise as it was. -/
theorem settle_isolated_payment :
    let base := Context.start (.genesis [100, 20]) ⟨0⟩ { }
    let op : Op := .sequence
      [.define ⟨"x"⟩ (.constant (.long 1)),
        .invoke .setHolding [.constant (.address ⟨1⟩), .constant (.long 2)],
        .invoke .transfer [.constant (.address ⟨1⟩), .constant (.long 30)]]
    let tx : Transaction := ⟨⟨0⟩, 1, 0, .invoke op⟩
    (tx.settle base).disposition = .committed ∧ (⟨1⟩ : Address) ≠ tx.origin ∧
      base.ledger.account? ⟨1⟩ = some (.ofBalance 20) ∧
      ∃ y, (tx.settle base).ledger.account? ⟨1⟩ = some y ∧ y.sequence = 0 ∧
        y.environment = (Account.ofBalance 20 : Account Value).environment ∧
        y.holdings = (Account.ofBalance 20 : Account Value).holdings ∧ 20 ≤ y.balance := by
  intro base op tx
  have hne : (⟨1⟩ : Address) ≠ tx.origin := by decide
  obtain ⟨-, -, hother, -⟩ := settle_isolated base tx
  exact ⟨by decide, hne, rfl, hother ⟨1⟩ (.ofBalance 20) hne rfl⟩

end MeteredLedger.Transaction
