import MeteredLedger.Text.Record
import MeteredLedger.Value.Edn
import MeteredLedger.Value.Order

/-!
# Environments

The bindings of symbols to values.  They are kept as a map of values, since that is how an account
stores them; a stored map may hold keys that are no symbols, and these are left alone.
-/

namespace MeteredLedger

structure Environment where
  bindings : Map
deriving DecidableEq

namespace Environment

def empty : Environment := ⟨.empty⟩

instance : Inhabited Environment := ⟨empty⟩

def isEmpty (e : Environment) : Bool := e.bindings.isEmpty
def size (e : Environment) : Nat := e.bindings.size

def lookup? (e : Environment) (s : Symbol) : Option Value := e.bindings.find? (.symbol s)
def isDefined (e : Environment) (s : Symbol) : Bool := e.bindings.contains (.symbol s)
def define (e : Environment) (s : Symbol) (v : Value) : Environment :=
  ⟨e.bindings.insert (.symbol s) v⟩
def undefine (e : Environment) (s : Symbol) : Environment := ⟨e.bindings.erase (.symbol s)⟩

/-- The bindings of symbols, in the order of their names. -/
def definitions (e : Environment) : List (Symbol × Value) :=
  e.bindings.entries.filterMap fun (k, v) ↦ k.symbol?.map (·, v)

def inspect (e : Environment) : String :=
  Text.record "Environment" [("bindings", Value.inspect (.map e.bindings))]

end Environment

end MeteredLedger
