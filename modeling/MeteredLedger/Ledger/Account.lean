import MeteredLedger.Text.Record
import MeteredLedger.Value.Edn
import MeteredLedger.Value.Order

/-!
# Accounts

An account has a balance, the sequence number of its last transaction, the environment of its
definitions, and the holdings it keeps for owners, under the blob of the owner's address.
-/

namespace MeteredLedger.Account

/-- A new account: nothing but a balance. -/
def ofBalance (balance : Int64) : Account Value := ⟨balance, 0, .empty, .empty⟩

/-- What the account holds for `owner`. -/
def holding? (a : Account Value) (owner : Address) : Option Value := a.holdings.find? owner.toBlob

/-- Sets what the account holds for `owner`; nil removes it. -/
def setHolding (a : Account Value) (owner : Address) (v : Value) : Account Value :=
  { a with
    holdings :=
      match v with
      | .nil => a.holdings.erase owner.toBlob
      | v => a.holdings.insert owner.toBlob v }

/-- The account with the names of its fields. -/
def inspect (a : Account Value) : String :=
  Text.record "AccountStatus"
    [("balance", Text.ofInt a.balance.toInt), ("sequence", Text.ofInt a.sequence.toInt),
      ("environment", Value.inspect (.map a.environment)),
      ("holdings", Value.edn (.blobMap a.holdings))]

end MeteredLedger.Account
