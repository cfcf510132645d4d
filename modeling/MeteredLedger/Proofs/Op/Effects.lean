import MeteredLedger.Engine.Transaction
import MeteredLedger.Proofs.Ledger.Balances
import MeteredLedger.Proofs.Ledger.Spending
import MeteredLedger.Proofs.Op.Log

/-!
# What an evaluation can do to the ledger

An effect leaves the ledger alone, or it is a transfer or a holding of the executing account, and
the executing account stays the same.  From this one case distinction it follows, first for an
effect and then for every log, what becomes of balances and accounts.
-/

namespace MeteredLedger

open Ledger

namespace Effect

/-- An effect moves funds between two accounts, or it leaves all balances alone. -/
theorem moves_run (e : Effect) (c : Context) : Moves c.ledger (e.run c).ledger := by
  rcases (e.spares_run c).ledger with h | ⟨target, amount, -, h⟩ | ⟨owner, v, -, h⟩
  · exact .still (by rw [h])
  · exact moves_of_transfer h
  · exact moves_of_setHolding h

/-- An effect takes funds from the executing account only, and all it does to others is to give. -/
theorem spends_run (e : Effect) (c : Context) : Spends c.address c.ledger (e.run c).ledger := by
  rcases (e.spares_run c).ledger with h | ⟨target, amount, -, h⟩ | ⟨owner, v, -, h⟩
  · rw [h]
    exact .refl c.address c.ledger
  · exact spends_of_transfer h
  · exact spends_of_setHolding h

end Effect

/-! ## Logs -/

/-- All along a course funds only flow. -/
theorem flows_of_mem_course {log : List Effect} {c d : Context} (hd : d ∈ course log c) :
    Flows c.ledger d.ledger :=
  rel_of_mem_course (R := fun c d ↦ Flows c.ledger d.ledger) (fun _ ↦ .refl) (fun h h' ↦ h.trans h')
    (fun e c ↦ .single (e.moves_run c)) hd

/-- All along a course only the executing account spends. -/
theorem spends_of_mem_course {log : List Effect} {c d : Context} (hd : d ∈ course log c) :
    Spends c.address c.ledger d.ledger := by
  refine (rel_of_mem_course
    (R := fun c d ↦ d.address = c.address ∧ Spends c.address c.ledger d.ledger)
    (fun c ↦ ⟨rfl, .refl _ _⟩) ?_ (fun e c ↦ ⟨(e.spares_run c).address_eq, e.spends_run c⟩) hd).2
  rintro c d e ⟨ha, h⟩ ⟨ha', h'⟩
  exact ⟨ha'.trans ha, h.trans (ha ▸ h')⟩

/-! ## Actions -/

namespace Action

/-- The effects of an action, in order. -/
def log (a : Action) (c : Context) : List Effect :=
  match a with
  | invoke op => op.log c
  | transfer target amount =>
    .charge Cost.transfer ::
      if (c.charge Cost.transfer).isExceptional then [] else [.transfer target amount]

/-- Making the effects of an action one after the other is the action. -/
theorem replay_log (a : Action) (c : Context) : replay (a.log c) c = a.run c := by
  cases a with
  | invoke op => exact op.replay_log c
  | transfer target amount =>
      rw [log, replay_cons, run, Effect.run, Context.andThen]
      split <;> rfl

theorem run_mem_course (a : Action) (c : Context) : a.run c ∈ course (a.log c) c :=
  a.replay_log c ▸ replay_mem_course (a.log c) c

theorem flows_run (a : Action) (c : Context) : Flows c.ledger (a.run c).ledger :=
  flows_of_mem_course (a.run_mem_course c)

theorem spends_run (a : Action) (c : Context) : Spends c.address c.ledger (a.run c).ledger :=
  spends_of_mem_course (a.run_mem_course c)

end Action

end MeteredLedger
