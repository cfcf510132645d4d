import MeteredLedger.Op.Eval

/-!
# Transactions

A transaction comes from one account and carries the next sequence number of that account.  It
evaluates an operation, or moves funds directly.
-/

namespace MeteredLedger

/-- What a transaction does. -/
inductive Action where
  | invoke (op : Op)
  | transfer (target : Address) (amount : Int64)

structure Transaction where
  origin : Address
  sequence : Int64
  /-- Funds offered to the code that is executed. -/
  offer : Int64
  action : Action

namespace Action

/-- Runs an action in a context.  A direct transfer is charged once and needs no evaluation. -/
def run (a : Action) (c : Context) : Context :=
  match a with
  | invoke op => op.eval c
  | transfer target amount => (c.charge Cost.transfer).andThen (·.transfer target amount)

def inspect : Action → String
  | invoke op => Text.tagged "Invoke" [op.inspect]
  | transfer target amount =>
    Text.record "Transfer"
      [("target", Value.inspect (.address target)), ("amount", Text.ofInt amount.toInt)]

end Action

namespace Transaction

def inspect (tx : Transaction) : String :=
  Text.record "Transaction"
    [("origin", Value.inspect (.address tx.origin)), ("sequence", Text.ofInt tx.sequence.toInt),
      ("offer", Text.ofInt tx.offer.toInt), ("kind", tx.action.inspect)]

end Transaction

end MeteredLedger
