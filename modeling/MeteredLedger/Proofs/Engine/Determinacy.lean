import MeteredLedger.Proofs.Engine.Requests
import MeteredLedger.Proofs.Engine.Settlement

/-!
# Engines are determined by their ledger

The base contexts of an engine are made once and then only moved from ledger to ledger, so the
definitions in them are those of a ledger that is long gone.  Nothing comes of it, because every
request forks a base context and changes to its own account.  An engine that has served any requests
is therefore as good as a new one over its ledger: `Twins` is kept by each request, and twins give
the same replies.
-/

namespace MeteredLedger

namespace Context

/-- A context like a new one over the ledger, but for its definitions, which may be out of date. -/
def IsBase (c : Context) (s : Ledger Value) (limits : Limits) : Prop :=
  ∃ environment, c = { start s Engine.baseAddress limits with environment }

theorem isBase_start (s : Ledger Value) (limits : Limits) :
    (start s Engine.baseAddress limits).IsBase s limits :=
  ⟨_, rfl⟩

namespace IsBase

variable {c d : Context} {s : Ledger Value} {limits : Limits}

theorem ledger_eq (h : c.IsBase s limits) : c.ledger = s := by
  obtain ⟨environment, rfl⟩ := h
  rfl

theorem moveTo (h : c.IsBase s limits) (t : Ledger Value) :
    IsBase { c with ledger := t } t limits := by
  obtain ⟨environment, rfl⟩ := h
  exact ⟨environment, rfl⟩

/-- To fork and to change to an account overwrites all that may be out of date. -/
theorem actAs_fork (h : c.IsBase s limits) (a : Address) : c.fork.actAs a = start s a limits := by
  obtain ⟨environment, rfl⟩ := h
  rfl

/-- A settlement reads the ledger of its base and a fork of it, on the early ways out too. -/
theorem settle_eq (hc : c.IsBase s limits) (hd : d.IsBase s limits) (tx : Transaction) :
    tx.settle c = tx.settle d := by
  simp only [Transaction.settle, hc.ledger_eq, hd.ledger_eq, hc.actAs_fork, hd.actAs_fork]

end IsBase

end Context

namespace Engine

/-- The base contexts of the engine are over the ledger. -/
structure IsOver (e : Engine) (s : Ledger Value) (config : Config) : Prop where
  base : e.base.IsBase s config.limits
  queryBase : e.queryBase.IsBase s config.queryLimits

theorem isOver_start (s : Ledger Value) (config : Config) : (start s config).IsOver s config :=
  ⟨Context.isBase_start s config.limits, Context.isBase_start s config.queryLimits⟩

namespace IsOver

variable {e f : Engine} {s : Ledger Value} {config : Config}

theorem ledger_eq (h : e.IsOver s config) : e.ledger = s := h.base.ledger_eq

theorem moveTo (h : e.IsOver s config) (t : Ledger Value) : (e.moveTo t).IsOver t config :=
  ⟨h.base.moveTo t, h.queryBase.moveTo t⟩

/-- A query is evaluated in a new context of its account. -/
theorem query_eq (h : e.IsOver s config) (a : Address) (op : Op) :
    e.query a op = op.eval (.start s a config.queryLimits) :=
  congrArg op.eval (h.queryBase.actAs_fork a)

end IsOver

/-! ## Engines over the same ledger -/

/-- Two engines over the same ledger. -/
def Twins (config : Config) (e f : Engine) : Prop := ∃ s, e.IsOver s config ∧ f.IsOver s config

namespace Twins

variable {config : Config} {e f : Engine}

/-- Twins have the same ledger. -/
theorem ledger_eq (h : Twins config e f) : e.ledger = f.ledger := by
  obtain ⟨s, he, hf⟩ := h
  rw [he.ledger_eq, hf.ledger_eq]

theorem moveTo (h : Twins config e f) (t : Ledger Value) :
    Twins config (e.moveTo t) (f.moveTo t) := by
  obtain ⟨s, he, hf⟩ := h
  exact ⟨t, he.moveTo t, hf.moveTo t⟩

/-- Twins settle a transaction alike. -/
theorem settlement_eq (h : Twins config e f) (tx : Transaction) :
    (e.execute tx).2 = (f.execute tx).2 := by
  obtain ⟨s, he, hf⟩ := h
  exact he.base.settle_eq hf.base tx

theorem execute (h : Twins config e f) (tx : Transaction) :
    Twins config (e.execute tx).1 (f.execute tx).1 := by
  have hledger : (tx.settle e.base).ledger = (tx.settle f.base).ledger :=
    congrArg Settlement.ledger (h.settlement_eq tx)
  simp only [Engine.execute, hledger]
  exact h.moveTo _

/-- Twins stay so after a list of transactions, and settle them alike. -/
theorem executeAll (h : Twins config e f) (txs : List Transaction) :
    Twins config (e.executeAll txs).1 (f.executeAll txs).1 ∧
      (e.executeAll txs).2 = (f.executeAll txs).2 := by
  induction txs generalizing e f with
  | nil => exact ⟨h, rfl⟩
  | cons tx txs ih =>
      obtain ⟨hrest, hsettlements⟩ := ih (h.execute tx)
      refine ⟨hrest, ?_⟩
      simp only [Engine.executeAll, h.settlement_eq tx, hsettlements]

theorem executeBlock (h : Twins config e f) (timestamp : Int64) (txs : List Transaction) :
    Twins config (e.executeBlock timestamp txs).1 (f.executeBlock timestamp txs).1 ∧
      (e.executeBlock timestamp txs).2 = (f.executeBlock timestamp txs).2 := by
  unfold Engine.executeBlock
  rw [h.ledger_eq]
  exact (h.moveTo _).executeAll txs

theorem query (h : Twins config e f) (a : Address) (op : Op) : e.query a op = f.query a op := by
  obtain ⟨s, he, hf⟩ := h
  rw [he.query_eq, hf.query_eq]

theorem queryAll (h : Twins config e f) (queries : List (Address × Op)) :
    e.queryAll queries = f.queryAll queries :=
  List.map_congr_left fun q _ ↦ h.query q.1 q.2

/-- Twins give the same reply to a request and are twins after it. -/
theorem serve (h : Twins config e f) (r : Request) :
    Twins config (e.serve r).1 (f.serve r).1 ∧ (e.serve r).2 = (f.serve r).2 := by
  cases r with
  | execute tx => exact ⟨h.execute tx, by simp only [Engine.serve, h.settlement_eq tx]⟩
  | submit id tx =>
      exact ⟨h.execute tx, by simp only [Engine.serve, Engine.submit, h.settlement_eq tx]⟩
  | block timestamp txs =>
      obtain ⟨htwins, hsettlements⟩ := h.executeBlock timestamp txs
      exact ⟨htwins, by simp only [Engine.serve, hsettlements]⟩
  | query a op => exact ⟨h, congrArg Reply.context (h.query a op)⟩
  | queryAll queries => exact ⟨h, congrArg Reply.contexts (h.queryAll queries)⟩

/-- Twins stay so after a run of requests, and reply alike. -/
theorem serveAll (h : Twins config e f) (rs : List Request) :
    Twins config (e.serveAll rs).1 (f.serveAll rs).1 ∧ (e.serveAll rs).2 = (f.serveAll rs).2 := by
  induction rs generalizing e f with
  | nil => exact ⟨h, rfl⟩
  | cons r rs ih =>
      obtain ⟨hnext, hreply⟩ := h.serve r
      obtain ⟨hlast, hreplies⟩ := ih hnext
      refine ⟨hlast, ?_⟩
      simp only [Engine.serveAll, hreply, hreplies]

end Twins

/-- An engine is over its own ledger, whatever it has served. -/
theorem isOver_serveAll (s : Ledger Value) (config : Config) (rs : List Request) :
    ((start s config).serveAll rs).1.IsOver ((start s config).serveAll rs).1.ledger config := by
  -- A new engine is its own twin, so the induction over the requests is the one for twins.
  have hstart : Twins config (start s config) (start s config) :=
    ⟨s, isOver_start s config, isOver_start s config⟩
  obtain ⟨⟨t, ht, -⟩, -⟩ := hstart.serveAll rs
  rwa [ht.ledger_eq]

/-- **An engine is determined by its ledger.** After any requests the base contexts of an engine
hold the same ledger, and a new engine over that ledger with the same configuration cannot be told
apart from it: they give the same replies to all further requests and come to the same ledgers.  A
query evaluates in a new context over the ledger. -/
theorem serveAll_eq_fresh (s : Ledger Value) (config : Config) (rs : List Request) :
    let e := ((start s config).serveAll rs).1
    let fresh := start e.ledger config
    e.queryBase.ledger = e.base.ledger ∧
    (∀ more, (e.serveAll more).2 = (fresh.serveAll more).2 ∧
      (e.serveAll more).1.ledger = (fresh.serveAll more).1.ledger) ∧
    ∀ a op, e.query a op = op.eval (.start e.ledger a config.queryLimits) := by
  intro e fresh
  have he : e.IsOver e.ledger config := isOver_serveAll s config rs
  have htwins : Twins config e fresh := ⟨e.ledger, he, isOver_start e.ledger config⟩
  refine ⟨he.queryBase.ledger_eq, ?_, he.query_eq⟩
  intro more
  obtain ⟨hlast, hreplies⟩ := htwins.serveAll more
  exact ⟨hreplies, hlast.ledger_eq⟩

end Engine

end MeteredLedger
