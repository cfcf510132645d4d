import MeteredLedger.Value.Edn

/-!
# Error codes

The codes under which the machine reports its own failures and control signals.  As a value, a
code is the keyword of its name; a program may fail with any other value as its code.
-/

namespace MeteredLedger

inductive ErrorCode where
  /-- A symbol that nothing defines. -/
  | undeclared
  /-- The juice ran out. -/
  | juice
  /-- A transaction that is not the next one of its account. -/
  | sequence
  /-- An index outside its sequence. -/
  | bounds
  /-- An assertion that does not hold. -/
  | assert
  /-- The nesting went too deep. -/
  | depth
  /-- A balance that does not cover a debit. -/
  | funds
  /-- An account that does not exist. -/
  | nobody
  /-- An argument outside its range. -/
  | argument
  /-- A value of the wrong kind. -/
  | cast
  /-- The wrong number of arguments. -/
  | arity
  /-- An internal failure. -/
  | unexpected
  | ret
  | rollback
  | halt
deriving DecidableEq, Repr

namespace ErrorCode

/-- All codes, in order. -/
def all : List ErrorCode :=
  [undeclared, juice, sequence, bounds, assert, depth, funds, nobody, argument, cast, arity,
    unexpected, ret, rollback, halt]

def name : ErrorCode → String
  | undeclared => "UNDECLARED"
  | juice => "JUICE"
  | sequence => "SEQUENCE"
  | bounds => "BOUNDS"
  | assert => "ASSERT"
  | depth => "DEPTH"
  | funds => "FUNDS"
  | nobody => "NOBODY"
  | argument => "ARGUMENT"
  | cast => "CAST"
  | arity => "ARITY"
  | unexpected => "UNEXPECTED"
  | ret => "RETURN"
  | rollback => "ROLLBACK"
  | halt => "HALT"

/-- The name in mixed case. -/
def inspect : ErrorCode → String
  | undeclared => "Undeclared"
  | juice => "Juice"
  | sequence => "Sequence"
  | bounds => "Bounds"
  | assert => "Assert"
  | depth => "Depth"
  | funds => "Funds"
  | nobody => "Nobody"
  | argument => "Argument"
  | cast => "Cast"
  | arity => "Arity"
  | unexpected => "Unexpected"
  | ret => "Return"
  | rollback => "Rollback"
  | halt => "Halt"

/-- The place in the list of all codes. -/
def index (c : ErrorCode) : Nat := c.ctorIdx

def isControl : ErrorCode → Bool
  | ret | rollback | halt => true
  | _ => false

def keyword (c : ErrorCode) : Keyword := ⟨c.name⟩
def toValue (c : ErrorCode) : Value := .keyword c.keyword

def ofName? (name : String) : Option ErrorCode := all.find? (·.name == name)

/-- The code whose keyword a value is. -/
def ofValue? : Value → Option ErrorCode
  | .keyword k => ofName? k.name
  | _ => none

end ErrorCode

end MeteredLedger
