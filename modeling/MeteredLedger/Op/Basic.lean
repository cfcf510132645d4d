import MeteredLedger.Text.Record
import MeteredLedger.Value.Edn
import MeteredLedger.Value.Order

/-!
# Operations

The trees that the machine evaluates: constants, lookups and definitions of symbols, sequences,
conditionals, and calls of the built-in functions.
-/

namespace MeteredLedger

/-- The built-in functions. -/
inductive Builtin where
  | vector | list | conj | assoc | count | add | sub | eq | assert | fail
  | ret | rollback | halt | transfer | balance | setHolding
deriving DecidableEq, Repr

namespace Builtin

def all : List Builtin :=
  [vector, list, conj, assoc, count, add, sub, eq, assert, fail, ret, rollback, halt, transfer,
    balance, setHolding]

def name : Builtin → String
  | vector => "vector"
  | list => "list"
  | conj => "conj"
  | assoc => "assoc"
  | count => "count"
  | add => "+"
  | sub => "-"
  | eq => "="
  | assert => "assert"
  | fail => "fail"
  | ret => "return"
  | rollback => "rollback"
  | halt => "halt"
  | transfer => "transfer"
  | balance => "balance"
  | setHolding => "set-holding"

def inspect : Builtin → String
  | vector => "Vector"
  | list => "List"
  | conj => "Conj"
  | assoc => "Assoc"
  | count => "Count"
  | add => "Add"
  | sub => "Sub"
  | eq => "Eq"
  | assert => "Assert"
  | fail => "Fail"
  | ret => "Return"
  | rollback => "Rollback"
  | halt => "Halt"
  | transfer => "Transfer"
  | balance => "Balance"
  | setHolding => "SetHolding"

def ofName? (name : String) : Option Builtin := all.find? (·.name == name)

end Builtin

/-- An operation to evaluate in a context. -/
inductive Op where
  | constant (v : Value)
  | lookup (s : Symbol)
  | define (s : Symbol) (body : Op)
  | undefine (s : Symbol)
  /-- One after the other; the last result is the result. -/
  | sequence (ops : List Op)
  /-- Pairs of a test and an expression, and at the end possibly a default. -/
  | branch (ops : List Op)
  | invoke (f : Builtin) (args : List Op)

namespace Op

mutual

/-- The printed form. -/
def text : Op → String
  | constant v => v.edn
  | lookup s => s.name
  | define s body => "(def " ++ s.name ++ " " ++ text body ++ ")"
  | undefine s => "(undef " ++ s.name ++ ")"
  | sequence ops => "(do" ++ texts ops ++ ")"
  | branch ops => "(cond" ++ texts ops ++ ")"
  | invoke f args => "(" ++ f.name ++ texts args ++ ")"
termination_by structural op => op

def texts : List Op → String
  | [] => ""
  | op :: ops => " " ++ text op ++ texts ops
termination_by structural ops => ops

end

mutual

/-- The form that names every node. -/
def inspect : Op → String
  | constant v => Text.tagged "Constant" [v.edn]
  | lookup s => Text.tagged "Lookup" [Value.inspect (.symbol s)]
  | define s body => Text.tagged "Def" [Value.inspect (.symbol s), inspect body]
  | undefine s => Text.tagged "Undef" [Value.inspect (.symbol s)]
  | sequence ops => Text.tagged "Do" [Text.bracketed (inspectAll ops)]
  | branch ops => Text.tagged "Cond" [Text.bracketed (inspectAll ops)]
  | invoke f args => Text.tagged "Invoke" [f.inspect, Text.bracketed (inspectAll args)]
termination_by structural op => op

def inspectAll : List Op → List String
  | [] => []
  | op :: ops => inspect op :: inspectAll ops
termination_by structural ops => ops

end

end Op

end MeteredLedger
