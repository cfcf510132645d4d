import MeteredLedger.Value.Edn

/-!
# Failures of data operations

What can go wrong when a sequence or a ledger is updated, and how it is told.
-/

namespace MeteredLedger

/-- Why a new sequence or ledger could not be made. -/
inductive UpdateError where
  /-- The index is not in `[0, length)`. -/
  | indexOutOfBounds (index : Int64) (length : Nat)
  | noSuchAccount (address : Address)
  /-- The balance does not cover a debit. -/
  | insufficientFunds (address : Address) (balance required : Int64)
  /-- The amount is negative, or crediting it would overflow. -/
  | invalidAmount (amount : Int64)
deriving DecidableEq, Repr

namespace UpdateError

def message : UpdateError → String
  | indexOutOfBounds index length =>
    "index " ++ Text.ofInt index.toInt ++ " out of bounds for sequence of length " ++
      Text.ofInt length
  | noSuchAccount address => "account " ++ address.edn ++ " does not exist"
  | insufficientFunds address balance required =>
    "insufficient funds in " ++ address.edn ++ ": balance " ++ Text.ofInt balance.toInt ++
      ", required " ++ Text.ofInt required.toInt
  | invalidAmount amount => "invalid amount: " ++ Text.ofInt amount.toInt

end UpdateError

end MeteredLedger
