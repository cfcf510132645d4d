import MeteredLedger.Machine.Context

/-!
# Special variables

Names between asterisks that stand for a part of the running context.  They are resolved before any
definition, so no definition can hide them.
-/

namespace MeteredLedger

inductive Special where
  | address | origin | caller | result | juice | depth
  | balance | offer | sequence | timestamp | state | holdings
deriving DecidableEq, Repr

namespace Special

def all : List Special :=
  [address, origin, caller, result, juice, depth, balance, offer, sequence, timestamp, state,
    holdings]

def name : Special → String
  | address => "*address*"
  | origin => "*origin*"
  | caller => "*caller*"
  | result => "*result*"
  | juice => "*juice*"
  | depth => "*depth*"
  | balance => "*balance*"
  | offer => "*offer*"
  | sequence => "*sequence*"
  | timestamp => "*timestamp*"
  | state => "*state*"
  | holdings => "*holdings*"

def inspect : Special → String
  | address => "Address"
  | origin => "Origin"
  | caller => "Caller"
  | result => "Result"
  | juice => "Juice"
  | depth => "Depth"
  | balance => "Balance"
  | offer => "Offer"
  | sequence => "Sequence"
  | timestamp => "Timestamp"
  | state => "State"
  | holdings => "Holdings"

def symbol (s : Special) : Symbol := ⟨s.name⟩

/-- The special variable that a symbol names. -/
def ofSymbol? (s : Symbol) : Option Special :=
  if s.isStarred then all.find? (·.name == s.name) else none

/-- The current value in a context; what is absent there is nil. -/
def valueIn (s : Special) (c : Context) : Value :=
  match s with
  | address => .address c.address
  | origin => .address c.origin
  | caller => .ofAddress? c.caller
  | result => c.outcome.value?.getD .nil
  | juice => .long (.ofNat c.juice.remaining)
  | depth => .long (.ofNat c.depth)
  | balance => .ofLong? (c.ledger.balance? c.address)
  | offer => .long c.offer
  | sequence => .long c.sequence
  | timestamp => .long c.timestamp
  | state => .ledger c.ledger
  | holdings =>
    .blobMap (match c.ledger.account? c.address with
      | none => .empty
      | some account => account.holdings)

end Special

namespace Context

/-- Resolves a special variable into the result, if the symbol names one. -/
def lookupSpecial? (c : Context) (s : Symbol) : Option Context :=
  (Special.ofSymbol? s).map fun special ↦ c.produce (special.valueIn c)

/-- Resolves a symbol into the result: a special variable first, then a definition. -/
def lookup (c : Context) (s : Symbol) : Context :=
  match Special.ofSymbol? s with
  | some special => c.produce (special.valueIn c)
  | none =>
    match c.environment.lookup? s with
    | some v => c.produce v
    | none => c.fail .undeclared s.name

end Context

end MeteredLedger
