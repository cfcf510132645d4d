import MeteredLedger.Ledger.Transfer
import MeteredLedger.Machine.Environment
import MeteredLedger.Machine.Juice
import MeteredLedger.Machine.Outcome
import MeteredLedger.Value.ContentHash

/-!
# Execution contexts

A context carries what one transaction or query needs while it runs: the ledger it reads and writes,
the environment of its definitions, its juice and depth, who executes it, and what it has come to so
far.  Every operation makes a new context from an old one.
-/

namespace MeteredLedger

/-- Which of the two shared parts of a context have been made anew by an effect since it was forked.
A part that has not is still the very one the context began with. -/
structure Touched where
  ledger : Bool := false
  environment : Bool := false
deriving DecidableEq, Repr

/-- The state of an execution. -/
structure Context where
  ledger : Ledger Value
  environment : Environment
  juice : Juice
  limits : Limits
  depth : Nat
  outcome : Outcome
  /-- The account that executes. -/
  address : Address
  /-- The account that the execution began with. -/
  origin : Address
  caller : Option Address
  offer : Int64
  sequence : Int64
  touched : Touched
deriving DecidableEq

namespace Context

/-- The definitions that an account has stored, and none for an unknown account. -/
def storedEnvironment (s : Ledger Value) (a : Address) : Environment :=
  match s.account? a with
  | none => .empty
  | some account => ⟨account.environment⟩

/-- A context that executes as an account, with its stored definitions and full juice. -/
def start (ledger : Ledger Value) (address : Address) (limits : Limits) : Context where
  ledger := ledger
  environment := storedEnvironment ledger address
  juice := .full limits.juice
  limits := limits
  depth := 0
  outcome := .value .nil
  address := address
  origin := address
  caller := none
  offer := 0
  sequence := 0
  touched := { }

/-- A context for a new unit of work: full juice, depth 0 and nil as its result. -/
def fork (c : Context) : Context :=
  { c with juice := .full c.limits.juice, depth := 0, outcome := .value .nil, touched := { } }

/-- Executes as another account, which also becomes the origin, with its stored definitions. -/
def actAs (c : Context) (a : Address) : Context :=
  { c with environment := storedEnvironment c.ledger a, address := a, origin := a, caller := none }

/-- Forgets what has been made anew so far. -/
def settled (c : Context) : Context := { c with touched := { } }

def timestamp (c : Context) : Int64 := c.ledger.timestamp

/-! ### Outcomes -/

def isExceptional (c : Context) : Bool := c.outcome.isExceptional

/-- Comes to a value. -/
def produce (c : Context) (v : Value) : Context := { c with outcome := .value v }

/-- Comes to a signal. -/
def raise (c : Context) (s : Signal) : Context := { c with outcome := .signal s }

/-- Comes to an error of the machine. -/
def fail (c : Context) (code : ErrorCode) (message : String) : Context :=
  c.raise (.coded code message)

/-- Comes to what a computation gives. -/
def conclude (c : Context) (r : Except Signal Value) : Context := { c with outcome := .ofExcept r }

/-- The result, which an exceptional context does not have. -/
def result (c : Context) : Except Defect Value :=
  match c.outcome with
  | .value v => .ok v
  | .signal s => .error (.noResult s)

/-! ### Depth and juice -/

/-- Goes one level deeper, unless the limit is reached. -/
def descend (c : Context) : Context :=
  if c.limits.maxDepth ≤ c.depth then
    c.fail .depth ("max depth " ++ Text.ofInt c.limits.maxDepth ++ " exceeded")
  else { c with depth := c.depth + 1 }

/-- Charges juice.  If it does not suffice the juice is gone, and a context that was not exceptional
before becomes so. -/
def charge (c : Context) (amount : Nat) : Context :=
  let charged := { c with juice := c.juice.charge amount }
  if c.juice.covers amount || c.isExceptional then charged
  else charged.fail .juice
    ("out of juice: needed " ++ Text.ofInt amount ++ ", had " ++ Text.ofInt c.juice.remaining)

/-- Charges an amount that a host gives, which may not be negative. -/
def chargeChecked (c : Context) (amount : Int64) : Except Defect Context :=
  if amount < 0 then .error (.negativeCharge amount) else .ok (c.charge amount.toInt.toNat)

/-! ### Definitions -/

/-- Puts bindings in the place of the current ones, as an effect. -/
def rebind (c : Context) (environment : Environment) : Context :=
  { c with environment, touched := { c.touched with environment := true } }

/-- Binds a symbol and leaves the outcome as it is. -/
def define (c : Context) (s : Symbol) (v : Value) : Context := c.rebind (c.environment.define s v)

/-- Takes a binding away; a context without it stays as it is. -/
def undefine (c : Context) (s : Symbol) : Context :=
  if c.environment.isDefined s then c.rebind (c.environment.undefine s) else c

/-! ### Effects on the ledger -/

/-- Moves an amount from the executing account.  The result is the amount. -/
def transfer (c : Context) (target : Address) (amount : Int64) : Context :=
  match c.ledger.transfer c.address target amount with
  | .error e => c.raise (.ofUpdateError e)
  | .ok ledger =>
    { c with
      ledger
      outcome := .value (.long amount)
      touched := { c.touched with ledger := c.touched.ledger || c.address != target } }

/-- Sets what the executing account holds for `owner`; nil removes it.  The result is the value. -/
def setHolding (c : Context) (owner : Address) (v : Value) : Context :=
  match c.ledger.setHolding c.address owner v with
  | .error e => c.raise (.ofUpdateError e)
  | .ok ledger =>
    { c with ledger, outcome := .value v, touched := { c.touched with ledger := true } }

/-! ### Printing -/

/-- The context as a map of its parts, where a digest stands for the ledger. -/
def summary (c : Context) : Map :=
  let key (name : String) : Value := .keyword ⟨name⟩
  let fields : Map := .ofList
    [(key "address", .address c.address),
      (key "origin", .address c.origin),
      (key "caller", .ofAddress? c.caller),
      (key "juice", .long (.ofNat c.juice.remaining)),
      (key "juice-limit", .long (.ofNat c.juice.limit)),
      (key "depth", .long (.ofNat c.depth)),
      (key "offer", .long c.offer),
      (key "sequence", .long c.sequence),
      (key "timestamp", .long c.timestamp),
      (key "environment", .map c.environment.bindings),
      (key "state-hash", .string c.ledger.contentHash.text)]
  match c.outcome with
  | .value v => fields.insert (key "result") v
  | .signal s =>
    fields.insert (key "exceptional")
      (.map (.ofList [(key "code", s.code), (key "message", s.message)]))

def edn (c : Context) : String := Value.edn (.map c.summary)

def inspect (c : Context) : String := "Context" ++ c.edn

end Context

end MeteredLedger
