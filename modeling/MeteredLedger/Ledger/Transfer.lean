import MeteredLedger.Ledger.Basic

/-!
# Transfers

Moving an amount between accounts.  The amount may not be negative, both accounts have to exist, the
source has to cover it, and the target must have room for it.  A transfer to oneself changes
nothing.
-/

namespace MeteredLedger

/-- The sum of two words, if it is a word. -/
def addExact? (a b : Int64) : Option Int64 :=
  if Int64.minValue.toInt ≤ a.toInt + b.toInt ∧ a.toInt + b.toInt ≤ Int64.maxValue.toInt
  then some (a + b) else none

namespace Ledger

/-- Moves `amount` from one account to another, or gives the first reason against it. -/
def transfer (s : Ledger Value) (source target : Address) (amount : Int64) :
    Except UpdateError (Ledger Value) :=
  if amount < 0 then .error (.invalidAmount amount)
  else match s.account? source, s.account? target with
    | none, _ => .error (.noSuchAccount source)
    | some _, none => .error (.noSuchAccount target)
    | some sender, some receiver =>
      if sender.balance < amount then
        .error (.insufficientFunds source sender.balance amount)
      else if source = target then .ok s
      else match addExact? receiver.balance amount with
        | none => .error (.invalidAmount amount)
        | some credited =>
          let debited := s.setAccount source { sender with balance := sender.balance - amount }
          .ok (debited.setAccount target { receiver with balance := credited })

end Ledger

end MeteredLedger
