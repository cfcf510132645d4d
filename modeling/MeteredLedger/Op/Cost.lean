import MeteredLedger.Op.Basic

/-!
# The price list

What an operation costs before its parts are evaluated, and what a built-in function costs when
it is applied.
-/

namespace MeteredLedger

namespace Cost

def constant : Nat := 5
def lookup : Nat := 15
def define : Nat := 100
def sequence : Nat := 10
def branch : Nat := 20
def invoke : Nat := 30
/-- Per argument of a function that builds a collection. -/
def buildPerElement : Nat := 10
def transfer : Nat := 100
def balance : Nat := 50
def setHolding : Nat := 100
/-- The largest word, above which no price goes. -/
def most : Nat := 9223372036854775807

end Cost

namespace Op

/-- The juice an operation takes for itself, without its parts. -/
def cost : Op → Nat
  | constant _ => Cost.constant
  | lookup _ => Cost.lookup
  | define .. => Cost.define
  | undefine _ => Cost.define
  | sequence _ => Cost.sequence
  | branch _ => Cost.branch
  | invoke .. => Cost.invoke

end Op

namespace Builtin

/-- The juice for applying a function to so many arguments.  A price that is not a word is the
largest word. -/
def applyCost (f : Builtin) (argc : Nat) : Nat :=
  match f with
  | vector | list | conj | assoc => min (Cost.buildPerElement * argc) Cost.most
  | transfer => Cost.transfer
  | balance => Cost.balance
  | setHolding => Cost.setHolding
  | _ => 0

end Builtin

end MeteredLedger
