import MeteredLedger.Proofs.Engine.Replay

/-!
# Blocks can be split anywhere

A block sets the time of the ledger and executes its transactions.  No way through a settlement
changes the time again: an action cannot, storing what it did does not, and what is discarded gives
way to a ledger of the same time.  So the time still stands when a block is cut in two, and setting
it once more for the second half does nothing, to neither of the two base contexts.
-/

namespace MeteredLedger

open Ledger

/-! ## The time in a settlement -/

namespace Transaction

/-- A settlement does not change the time. -/
theorem timestamp_settle (base : Context) (tx : Transaction) :
    (tx.settle base).ledger.timestamp = base.ledger.timestamp := by
  rcases tx.settle_cases base with ⟨-, hs⟩ | ⟨-, x, y, -, -, -, hs⟩
  · rw [hs]
  · rw [hs]
    exact (tx.spends_ending base).timestamp_eq

/-- The context that is reported holds the ledger that was settled to. -/
theorem ledger_context_settle (base : Context) (tx : Transaction) :
    (tx.settle base).context.ledger = (tx.settle base).ledger := by
  refine settle_elim base tx ?_ ?_ ?_ ?_
  · intro hx
    rfl
  · intro x hx hne
    rfl
  · intro x o hx heq ho
    rfl
  · intro x y v hx heq hy ho
    rfl

end Transaction

/-! ## The time in an action -/

namespace Trial

/-- The contexts that the action of the transaction goes through, with the first and the last. -/
def stages (t : Trial) : List Context :=
  course (t.tx.action.log (t.tx.opening t.base)) (t.tx.opening t.base)

/-- The last stage of a trial is what the transaction ends in. -/
theorem getLast?_stages (t : Trial) : t.stages.getLast? = some (t.tx.ending t.base) := by
  rw [stages, getLast?_course, Action.replay_log]
  rfl

/-- All stages of a trial have the time of its base. -/
theorem timestamp_of_mem_stages {t : Trial} {d : Context} (hd : d ∈ t.stages) :
    d.timestamp = t.base.ledger.timestamp :=
  (spends_of_mem_course hd).timestamp_eq

/-- All trials of a run begin at the same time. -/
theorem timestamp_of_mem_all {base : Context} {txs : List Transaction} {t : Trial}
    (ht : t ∈ all base txs) : t.base.ledger.timestamp = base.ledger.timestamp := by
  induction txs generalizing base with
  | nil => cases ht
  | cons tx txs ih =>
      rcases List.mem_cons.mp ht with rfl | ht
      · rfl
      · exact (ih ht).trans (tx.timestamp_settle base)

end Trial

/-- A lookup of the time comes to the time of the ledger, whatever is defined. -/
theorem Context.outcome_lookup_timestamp (c : Context) :
    (c.lookup Special.timestamp.symbol).outcome = .value (.long c.timestamp) := by
  have hsymbol : Special.ofSymbol? Special.timestamp.symbol = some .timestamp := by decide
  rw [Context.lookup, hsymbol]
  rfl

/-! ## The time of an engine -/

namespace Engine

/-- Both base contexts of the engine are over one ledger, and this has the given time. -/
structure StandsAt (e : Engine) (timestamp : Int64) : Prop where
  timestamp_eq : e.ledger.timestamp = timestamp
  queryBase_eq : e.queryBase.ledger = e.ledger

/-- An engine that is moved to a ledger stands at its time. -/
theorem standsAt_moveTo (e : Engine) (s : Ledger Value) : (e.moveTo s).StandsAt s.timestamp :=
  ⟨rfl, rfl⟩

namespace StandsAt

variable {e : Engine} {timestamp : Int64}

theorem execute (h : e.StandsAt timestamp) (tx : Transaction) :
    (e.execute tx).1.StandsAt timestamp := by
  have htime : (tx.settle e.base).ledger.timestamp = timestamp :=
    (tx.timestamp_settle e.base).trans h.timestamp_eq
  exact htime ▸ e.standsAt_moveTo (tx.settle e.base).ledger

theorem executeAll (h : e.StandsAt timestamp) (txs : List Transaction) :
    (e.executeAll txs).1.StandsAt timestamp := by
  induction txs generalizing e with
  | nil => exact h
  | cons tx txs ih => exact ih (h.execute tx)

/-- To set the time that stands already changes nothing. -/
theorem moveTo_eq (h : e.StandsAt timestamp) : e.moveTo { e.ledger with timestamp } = e := by
  obtain ⟨rfl, hquery⟩ := h
  obtain ⟨base, queryBase, config⟩ := e
  change queryBase.ledger = base.ledger at hquery
  change Engine.mk base { queryBase with ledger := base.ledger } config = _
  rw [← hquery]

end StandsAt

/-- After a block the engine stands at the time of the block. -/
theorem standsAt_executeBlock (e : Engine) (timestamp : Int64) (txs : List Transaction) :
    (e.executeBlock timestamp txs).1.StandsAt timestamp :=
  (e.standsAt_moveTo { e.ledger with timestamp }).executeAll txs

/-- Two lists of transactions are executed one after the other. -/
theorem executeAll_append (e : Engine) (xs ys : List Transaction) :
    e.executeAll (xs ++ ys) =
      (((e.executeAll xs).1.executeAll ys).1,
        (e.executeAll xs).2 ++ ((e.executeAll xs).1.executeAll ys).2) := by
  induction xs generalizing e with
  | nil => rfl
  | cons tx xs ih => simp only [List.cons_append, executeAll, ih]

/-- **Blocks can be split anywhere.** A block of two lists gives the settlements of the first list
and then those of the second, and ends with the very engine that two blocks of the same time end
with.  Every transaction of a block is settled against a context of the time of the block, every
context that its action goes through resolves the time to that of the block, and so does the context
that is reported.  Both base contexts of the engine have that time at the end. -/
theorem executeBlock_append (e : Engine) (timestamp : Int64) :
    (∀ xs ys, e.executeBlock timestamp (xs ++ ys) =
      let first := e.executeBlock timestamp xs
      let second := first.1.executeBlock timestamp ys
      (second.1, first.2 ++ second.2)) ∧
    (∀ txs,
      let trials := Trial.all (e.moveTo { e.ledger with timestamp }).base txs
      trials.map Trial.tx = txs ∧ (e.executeBlock timestamp txs).2 = trials.map Trial.settlement ∧
      ∀ t ∈ trials,
        t.stages.getLast? = some (t.tx.ending t.base) ∧
        (∀ d ∈ t.stages,
          (d.lookup Special.timestamp.symbol).outcome = .value (.long timestamp)) ∧
        t.settlement.ledger.timestamp = timestamp ∧ t.settlement.context.timestamp = timestamp) ∧
    (∀ txs,
      (e.executeBlock timestamp txs).1.base.timestamp = timestamp ∧
      (e.executeBlock timestamp txs).1.queryBase.timestamp = timestamp) := by
  refine ⟨fun xs ys ↦ ?_, fun txs ↦ ⟨?_, ?_, fun t ht ↦ ?_⟩, fun txs ↦ ?_⟩
  · have hstands := e.standsAt_executeBlock timestamp xs
    dsimp only
    rw [executeBlock, executeAll_append, executeBlock.eq_def (executeBlock e timestamp xs).1,
      hstands.moveTo_eq]
    rfl
  · exact Trial.map_tx_all _ txs
  · exact ((e.moveTo { e.ledger with timestamp }).executeAll_trials txs).2
  · have htime : t.base.ledger.timestamp = timestamp := Trial.timestamp_of_mem_all ht
    have hsettled : t.settlement.ledger.timestamp = timestamp :=
      (t.tx.timestamp_settle t.base).trans htime
    refine ⟨t.getLast?_stages, fun d hd ↦ ?_, hsettled, ?_⟩
    · rw [d.outcome_lookup_timestamp, Trial.timestamp_of_mem_stages hd, htime]
    · rw [Context.timestamp, Trial.settlement, Transaction.ledger_context_settle]
      exact hsettled
  · have hstands := e.standsAt_executeBlock timestamp txs
    refine ⟨hstands.timestamp_eq, ?_⟩
    rw [Context.timestamp, hstands.queryBase_eq]
    exact hstands.timestamp_eq

/-- A block that is cut between a payment without funds and a definition of the time, over an engine
whose ledger has another time. -/
theorem executeBlock_append_late_definition :
    let e := Engine.start { Ledger.genesis [100, 0] with timestamp := 3 } { }
    let xs : List Transaction := [⟨⟨0⟩, 1, 0, .transfer ⟨1⟩ 30⟩, ⟨⟨1⟩, 1, 0, .transfer ⟨0⟩ 50⟩]
    let ys : List Transaction := [⟨⟨0⟩, 2, 0, .invoke (.define ⟨"t"⟩ (.lookup ⟨"*timestamp*"⟩))⟩]
    (e.executeBlock 42 (xs ++ ys)).1 = ((e.executeBlock 42 xs).1.executeBlock 42 ys).1 ∧
      (e.executeBlock 42 (xs ++ ys)).2.map (·.disposition) = [.committed, .discarded, .committed] ∧
      (e.executeBlock 42 (xs ++ ys)).1.lookup? ⟨0⟩ "t" = some (.long 42) ∧
      (e.executeBlock 42 (xs ++ ys)).1.base.timestamp = 42 := by
  intro e xs ys
  obtain ⟨hsplit, -, htime⟩ := executeBlock_append e 42
  exact ⟨by rw [hsplit], by decide, by decide, (htime (xs ++ ys)).1⟩

end Engine

end MeteredLedger
