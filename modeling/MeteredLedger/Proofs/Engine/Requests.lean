import MeteredLedger.Engine.Basic

/-!
# Runs of an engine

What a host can ask of an engine, and runs as lists of requests.  `Lasting` names what a relation
between ledgers has to satisfy to hold across every run: it is enough to look at one transaction
and at the timestamp of a block.
-/

namespace MeteredLedger

/-- What a host can ask of an engine. -/
inductive Request where
  | execute (tx : Transaction)
  | submit (id : UInt64) (tx : Transaction)
  | block (timestamp : Int64) (txs : List Transaction)
  | query (a : Address) (op : Op)
  | queryAll (queries : List (Address × Op))

/-- What a host is answered. -/
inductive Reply where
  | context (c : Context)
  | response (r : Response)
  | contexts (cs : List Context)

/-- A relation between ledgers that holds across everything an engine does to its ledger. -/
structure Lasting (R : Ledger Value → Ledger Value → Prop) : Prop where
  refl (s : Ledger Value) : R s s
  trans {s t u : Ledger Value} : R s t → R t u → R s u
  settle (base : Context) (tx : Transaction) : R base.ledger (tx.settle base).ledger
  timestamp (s : Ledger Value) (timestamp : Int64) : R s { s with timestamp }

namespace Engine

/-- Serves one request.  Queries leave the engine as it is. -/
def serve (e : Engine) (r : Request) : Engine × Reply :=
  match r with
  | .execute tx => ((e.execute tx).1, .context (e.execute tx).2.context)
  | .submit id tx => ((e.submit id tx).1, .response (e.submit id tx).2)
  | .block timestamp txs =>
    ((e.executeBlock timestamp txs).1,
      .contexts ((e.executeBlock timestamp txs).2.map (·.context)))
  | .query a op => (e, .context (e.query a op))
  | .queryAll queries => (e, .contexts (e.queryAll queries))

/-- Serves requests in order. -/
def serveAll (e : Engine) (rs : List Request) : Engine × List Reply :=
  match rs with
  | [] => (e, [])
  | r :: rs =>
    let rest := (e.serve r).1.serveAll rs
    (rest.1, (e.serve r).2 :: rest.2)

end Engine

namespace Lasting

variable {R : Ledger Value → Ledger Value → Prop}

/-- What lasts across transactions lasts across a list of them. -/
theorem executeAll (hR : Lasting R) (e : Engine) (txs : List Transaction) :
    R e.ledger (e.executeAll txs).1.ledger := by
  induction txs generalizing e with
  | nil => exact hR.refl e.ledger
  | cons tx txs ih => exact hR.trans (hR.settle e.base tx) (ih (e.execute tx).1)

/-- It also holds up to the ledger of each transaction in between. -/
theorem of_mem_executeAll (hR : Lasting R) {e : Engine} {txs : List Transaction} {s : Settlement}
    (hs : s ∈ (e.executeAll txs).2) : R e.ledger s.ledger := by
  induction txs generalizing e with
  | nil => cases hs
  | cons tx txs ih =>
      rcases List.mem_cons.mp hs with rfl | hs
      · exact hR.settle e.base tx
      · exact hR.trans (hR.settle e.base tx) (ih hs)

theorem executeBlock (hR : Lasting R) (e : Engine) (timestamp : Int64) (txs : List Transaction) :
    R e.ledger (e.executeBlock timestamp txs).1.ledger :=
  hR.trans (hR.timestamp e.ledger timestamp)
    (hR.executeAll (e.moveTo { e.ledger with timestamp }) txs)

/-- Every settlement of a block is reached from the ledger before it. -/
theorem of_mem_executeBlock (hR : Lasting R) {e : Engine} {timestamp : Int64}
    {txs : List Transaction} {s : Settlement} (hs : s ∈ (e.executeBlock timestamp txs).2) :
    R e.ledger s.ledger :=
  hR.trans (hR.timestamp e.ledger timestamp) (hR.of_mem_executeAll hs)

theorem serve (hR : Lasting R) (e : Engine) (r : Request) : R e.ledger (e.serve r).1.ledger := by
  cases r with
  | execute tx => exact hR.settle e.base tx
  | submit id tx => exact hR.settle e.base tx
  | block timestamp txs => exact hR.executeBlock e timestamp txs
  | query a op => exact hR.refl e.ledger
  | queryAll queries => exact hR.refl e.ledger

/-- What lasts across a request lasts across a run of requests. -/
theorem serveAll (hR : Lasting R) (e : Engine) (rs : List Request) :
    R e.ledger (e.serveAll rs).1.ledger := by
  induction rs generalizing e with
  | nil => exact hR.refl e.ledger
  | cons r rs ih => exact hR.trans (hR.serve e r) (ih (e.serve r).1)

end Lasting

end MeteredLedger
