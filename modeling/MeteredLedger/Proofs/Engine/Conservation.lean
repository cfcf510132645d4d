import MeteredLedger.Proofs.Engine.Requests
import MeteredLedger.Proofs.Engine.Settlement

/-!
# Funds are conserved

No evaluation and no run of an engine makes or destroys funds, and none gets a balance below zero.
Every balance that is written on the way is the sum or the difference that it is meant to be, so
nothing ever wraps around.  An evaluation is looked at effect by effect, along its `course`; a run
is a chain of such movements, by way of `Lasting`.
-/

namespace MeteredLedger

open Ledger

/-- A log leads from one context to another, and all the way the balances change by exact movements
only, the total stays and no balance gets negative. -/
structure Conserves (log : List Effect) (c d : Context) : Prop where
  ends : (course log c).getLast? = some d
  moves : (course log c).IsChain fun c d ↦ Moves c.ledger d.ledger
  totalFunds_eq : ∀ d ∈ course log c, d.ledger.totalFunds = c.ledger.totalFunds
  solvent : c.ledger.Solvent → ∀ d ∈ course log c, d.ledger.Solvent

/-- Making a log conserves funds in each of its steps. -/
theorem conserves_replay (log : List Effect) (c : Context) : Conserves log c (replay log c) where
  ends := getLast?_course log c
  moves := isChain_course Effect.moves_run log c
  totalFunds_eq _ hd := (flows_of_mem_course hd).totalFunds_eq
  solvent hc _ hd := (flows_of_mem_course hd).solvent hc

/-- Settling a transaction only moves funds. -/
theorem Transaction.flows_settle (base : Context) (tx : Transaction) :
    Flows base.ledger (tx.settle base).ledger := by
  rcases tx.settle_cases base with ⟨-, hs⟩ | ⟨-, x, y, -, -, hy, hs⟩
  · rw [hs]
  · rw [hs]
    have hrun : Flows base.ledger (tx.ending base).ledger := tx.action.flows_run (tx.opening base)
    exact hrun.tail (.still (balances_setAccount_of_balance_eq hy rfl))

/-- Across every request, funds only flow. -/
theorem lasting_flows : Lasting Flows where
  refl _ := .refl
  trans h h' := h.trans h'
  settle base tx := tx.flows_settle base
  timestamp _ _ := .single (.still rfl)

/-- **Conservation and solvency.** An evaluation ends with the funds it began with, whatever its
outcome, and so does every run of an engine, hence also every part of a run and every transaction
of a block.  If no balance is negative at the start, none is in between or at the end.  No balance
that is stored on the way is a number that wrapped around: the contexts of an evaluation, and the
ledgers of a run, follow each other by exact movements. -/
theorem funds_conserved :
    (∀ (op : Op) (c : Context),
      (op.eval c).ledger.totalFunds = c.ledger.totalFunds ∧
      (c.ledger.Solvent → (op.eval c).ledger.Solvent)) ∧
    (∀ (op : Op) (c : Context), Conserves (op.log c) c (op.eval c)) ∧
    (∀ (a : Action) (c : Context), Conserves (a.log c) c (a.run c)) ∧
    (∀ (e : Engine) (rs : List Request),
      (e.serveAll rs).1.ledger.totalFunds = e.ledger.totalFunds ∧
      (e.ledger.Solvent → (e.serveAll rs).1.ledger.Solvent) ∧
      Flows e.ledger (e.serveAll rs).1.ledger) ∧
    (∀ (e : Engine) (timestamp : Int64) (txs : List Transaction),
      ∀ s ∈ (e.executeBlock timestamp txs).2,
        s.ledger.totalFunds = e.ledger.totalFunds ∧ (e.ledger.Solvent → s.ledger.Solvent) ∧
        Flows e.ledger s.ledger) := by
  have heval (op : Op) (c : Context) : Conserves (op.log c) c (op.eval c) :=
    op.replay_log c ▸ conserves_replay (op.log c) c
  have hrun (a : Action) (c : Context) : Conserves (a.log c) c (a.run c) :=
    a.replay_log c ▸ conserves_replay (a.log c) c
  refine ⟨fun op c ↦ ?_, heval, hrun, fun e rs ↦ ?_, fun e timestamp txs s hs ↦ ?_⟩
  · have hmem : op.eval c ∈ course (op.log c) c := List.mem_of_getLast? (heval op c).ends
    exact ⟨(heval op c).totalFunds_eq _ hmem, fun hc ↦ (heval op c).solvent hc _ hmem⟩
  · have hflows := lasting_flows.serveAll e rs
    exact ⟨hflows.totalFunds_eq, hflows.solvent, hflows⟩
  · have hflows := lasting_flows.of_mem_executeBlock hs
    exact ⟨hflows.totalFunds_eq, hflows.solvent, hflows⟩

/-- A run with a payment, a payment that would overflow its target, and an empty block, over a
ledger whose total is more than a word holds. -/
theorem funds_conserved_near_limit :
    let e := Engine.start (.genesis [100, Int64.maxValue]) { }
    let rs : List Request :=
      [.execute ⟨⟨1⟩, 1, 0, .transfer ⟨0⟩ 30⟩, .submit 7 ⟨⟨0⟩, 1, 0, .transfer ⟨1⟩ 31⟩, .block 5 []]
    (e.serveAll rs).1.ledger.balances = [130, Int64.maxValue - 30] ∧
      e.ledger.Solvent ∧ (e.serveAll rs).1.ledger.Solvent ∧
      (e.serveAll rs).1.ledger.totalFunds = 9223372036854775907 := by
  intro e rs
  obtain ⟨-, -, -, hserve, -⟩ := funds_conserved
  have hsolvent : e.ledger.Solvent := by decide
  exact ⟨by decide, hsolvent, (hserve e rs).2.1 hsolvent, (hserve e rs).1.trans (by decide)⟩

end MeteredLedger
