import MeteredLedger.Config.Basic
import MeteredLedger.Engine.Response
import MeteredLedger.Engine.Settlement
import MeteredLedger.Host.Conversion

/-!
# Engines

An engine keeps two base contexts over its committed ledger, one with the limits of transactions
and one with those of queries.  A transaction forks the first and moves both to the ledger it
settles to; a query forks the second and changes nothing.
-/

namespace MeteredLedger

structure Engine where
  base : Context
  queryBase : Context
  config : Config

namespace Engine

/-- The account as which the base contexts are made; every request changes to its own. -/
def baseAddress : Address := ⟨0⟩

/-- An engine over a ledger. -/
def start (ledger : Ledger Value) (config : Config) : Engine where
  base := .start ledger baseAddress config.limits
  queryBase := .start ledger baseAddress config.queryLimits
  config := config

/-- The committed ledger. -/
def ledger (e : Engine) : Ledger Value := e.base.ledger

/-- Moves both base contexts to a ledger. -/
def moveTo (e : Engine) (ledger : Ledger Value) : Engine :=
  { e with base := { e.base with ledger }, queryBase := { e.queryBase with ledger } }

/-- Executes a transaction and moves to the ledger it settles to. -/
def execute (e : Engine) (tx : Transaction) : Engine × Settlement :=
  let settlement := tx.settle e.base
  (e.moveTo settlement.ledger, settlement)

/-- Executes a transaction and reports its outcome. -/
def submit (e : Engine) (id : UInt64) (tx : Transaction) : Engine × Response :=
  let executed := e.execute tx
  (executed.1, .ofContext id executed.2.context)

/-- Executes transactions in order. -/
def executeAll (e : Engine) : List Transaction → Engine × List Settlement
  | [] => (e, [])
  | tx :: txs =>
    let first := e.execute tx
    let rest := executeAll first.1 txs
    (rest.1, first.2 :: rest.2)

/-- Sets the timestamp of a block and executes its transactions in order. -/
def executeBlock (e : Engine) (timestamp : Int64) (txs : List Transaction) :
    Engine × List Settlement :=
  (e.moveTo { e.ledger with timestamp }).executeAll txs

/-- Evaluates an operation as an account without committing anything. -/
def query (e : Engine) (a : Address) (op : Op) : Context :=
  op.eval (e.queryBase.fork.actAs a)

/-- Evaluates independent queries. -/
def queryAll (e : Engine) (queries : List (Address × Op)) : List Context :=
  queries.map fun q ↦ e.query q.1 q.2

/-- What an account has defined a name as. -/
def lookup? (e : Engine) (a : Address) (name : String) : Option Value :=
  (e.ledger.account? a).bind fun account ↦ account.environment.find? (.symbol ⟨name⟩)

/-- What an account has defined a name as, if it is of a host type. -/
def read? (e : Engine) (a : Address) (name : String) (t : HostType) : Option t.Data :=
  (e.lookup? a name).bind fun v ↦ (t.read v).toOption

def inspect (e : Engine) : String :=
  Text.record "Engine"
    [("base", e.base.inspect), ("query_base", e.queryBase.inspect), ("config", e.config.inspect)]

end Engine

end MeteredLedger
