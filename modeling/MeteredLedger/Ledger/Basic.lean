import MeteredLedger.Ledger.Account
import MeteredLedger.Value.Error

/-!
# Ledger states

A ledger state is a block timestamp and the accounts by number.  No operation here adds or removes
an account; one that names an account that is not there fails.
-/

namespace MeteredLedger.Ledger

/-- A first ledger: one account per balance, at time 0. -/
def genesis (balances : List Int64) : Ledger Value := ⟨0, balances.map .ofBalance⟩

instance : Inhabited (Ledger Value) := ⟨genesis []⟩

def account? (s : Ledger Value) (a : Address) : Option (Account Value) := s.accounts[a.toNat]?

def balance? (s : Ledger Value) (a : Address) : Option Int64 := (s.account? a).map (·.balance)

/-- What account `a` holds for `owner`. -/
def holding? (s : Ledger Value) (a owner : Address) : Option Value :=
  (s.account? a).bind (·.holding? owner)

/-- Puts an account in the place of the one at `a`, if there is one. -/
def setAccount (s : Ledger Value) (a : Address) (account : Account Value) : Ledger Value :=
  { s with accounts := s.accounts.set a.toNat account }

/-- Changes the account at `a`, which has to exist. -/
def modifyAccount (s : Ledger Value) (a : Address) (f : Account Value → Account Value) :
    Except UpdateError (Ledger Value) :=
  match s.account? a with
  | none => .error (.noSuchAccount a)
  | some account => .ok (s.setAccount a (f account))

/-- Replaces the account at `a`, which has to exist. -/
def replaceAccount (s : Ledger Value) (a : Address) (account : Account Value) :
    Except UpdateError (Ledger Value) :=
  s.modifyAccount a fun _ ↦ account

def setBalance (s : Ledger Value) (a : Address) (balance : Int64) :
    Except UpdateError (Ledger Value) :=
  s.modifyAccount a fun account ↦ { account with balance }

def setHolding (s : Ledger Value) (a owner : Address) (v : Value) :
    Except UpdateError (Ledger Value) :=
  s.modifyAccount a (·.setHolding owner v)

/-- The sum of the balances of some accounts, which may be more than a word holds. -/
def fundsOf : List (Account Value) → Int
  | [] => 0
  | a :: as => a.balance.toInt + fundsOf as

/-- The sum of all balances. -/
def totalFunds (s : Ledger Value) : Int := fundsOf s.accounts

@[simp] theorem timestamp_setAccount (s : Ledger Value) (a : Address) (x : Account Value) :
    (s.setAccount a x).timestamp = s.timestamp := rfl
@[simp] theorem length_accounts_setAccount (s : Ledger Value) (a : Address) (x : Account Value) :
    (s.setAccount a x).accounts.length = s.accounts.length := List.length_set

end MeteredLedger.Ledger
