import MeteredLedger.Engine.Transaction

/-!
# Settling transactions

A transaction runs in a fork of a base context.  It is rejected before it runs if its account
does not exist or its sequence number is not the next one.  If it ends with a value, or returns
or halts, the ledger it leaves is committed, with the new sequence number and the definitions of
its account; after an error or a rollback the ledger is the one before.
-/

namespace MeteredLedger

/-- What became of a transaction. -/
inductive Disposition where
  /-- It did not run. -/
  | rejected
  /-- It ran, and what it changed was given up. -/
  | discarded
  /-- It ran, and what it changed was kept. -/
  | committed
deriving DecidableEq, Repr

/-- The ledger after a transaction, the context it ended in, and what became of it. -/
structure Settlement where
  ledger : Ledger Value
  context : Context
  disposition : Disposition

namespace Transaction

/-- Keeps what a transaction changed, and stores its sequence number and definitions. -/
def commit (base : Ledger Value) (tx : Transaction) (c : Context) : Settlement :=
  let update (a : Account Value) : Account Value :=
    { a with sequence := tx.sequence, environment := c.environment.bindings }
  match c.ledger.modifyAccount tx.origin update with
  | .ok next => ⟨next, { c with ledger := next }, .committed⟩
  | .error e => ⟨base, { c.raise (.ofUpdateError e) with ledger := base }, .discarded⟩

/-- Gives up what a transaction changed. -/
def discard (base : Ledger Value) (c : Context) : Settlement :=
  ⟨base, { c with ledger := base }, .discarded⟩

/-- Turns the context in which a transaction ended into a ledger and a reported outcome. -/
def close (base : Ledger Value) (tx : Transaction) (c : Context) : Settlement :=
  match c.outcome with
  | .value _ => commit base tx c
  | .signal (.control .ret v) => commit base tx (c.produce v)
  | .signal (.control .halt v) => commit base tx (c.produce v)
  | .signal (.control .rollback v) => discard base (c.produce v)
  | .signal (.error _ _) => discard base c

/-- Settles a transaction against the ledger of a base context. -/
def settle (base : Context) (tx : Transaction) : Settlement :=
  let c := base.fork.actAs tx.origin
  match base.ledger.account? tx.origin with
  | none =>
    ⟨base.ledger, c.fail .nobody ("no account " ++ tx.origin.edn), .rejected⟩
  | some account =>
    let expected := account.sequence + 1
    if tx.sequence = expected then
      close base.ledger tx
        (tx.action.run { c with sequence := tx.sequence, offer := tx.offer })
    else
      ⟨base.ledger,
        c.fail .sequence
          ("expected " ++ Text.ofInt expected.toInt ++ ", got " ++ Text.ofInt tx.sequence.toInt),
        .rejected⟩

end Transaction

end MeteredLedger
