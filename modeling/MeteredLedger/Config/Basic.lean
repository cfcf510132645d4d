import MeteredLedger.Config.Settings
import MeteredLedger.Machine.Juice
import MeteredLedger.Text.Quoted

/-!
# Engine configurations

The limits of an engine, read from a document of integer settings.  A setting that is not given has
a default; one that is unknown, given twice or out of range makes the document invalid.
-/

namespace MeteredLedger

/-- The limits that an engine applies. -/
structure Config where
  /-- The juice of a transaction. -/
  juiceLimit : Int64 := 1000000
  maxDepth : Nat := 256
  /-- The juice of a query. -/
  queryJuiceLimit : Int64 := 1000000
deriving DecidableEq, Repr

/-- Why there is no configuration. -/
inductive ConfigError where
  /-- There is no file at the path. -/
  | missing (path : String)
  /-- The file is no UTF-8 text. -/
  | notText (path : String)
  /-- The text is no valid configuration. -/
  | invalid
deriving DecidableEq, Repr

namespace ConfigError

def message : ConfigError → String
  | missing path =>
    "failed to read " ++ Text.quote path ++ ": No such file or directory (os error 2)"
  | notText path =>
    "failed to read " ++ Text.quote path ++ ": stream did not contain valid UTF-8"
  | invalid => "invalid configuration"

end ConfigError

namespace Config

instance : Inhabited Config := ⟨{ }⟩

/-- The limits of a transaction. -/
def limits (c : Config) : Limits := ⟨c.juiceLimit, c.maxDepth⟩

/-- The limits of a query. -/
def queryLimits (c : Config) : Limits := ⟨c.queryJuiceLimit, c.maxDepth⟩

/-- An integer that is a word. -/
def word? (n : Int) : Option Int64 :=
  if Int64.minValue.toInt ≤ n ∧ n ≤ Int64.maxValue.toInt then some (.ofInt n) else none

/-- Takes one setting over. -/
def set? (c : Config) (key : String) (n : Int) : Option Config :=
  match key, word? n with
  | "juice_limit", some w => some { c with juiceLimit := w }
  | "max_depth", some _ => if 0 ≤ n then some { c with maxDepth := n.toNat } else none
  | "query_juice_limit", some w => some { c with queryJuiceLimit := w }
  | _, _ => none

/-- The configuration of a list of settings, none of which is given twice. -/
def ofSettings? (settings : List (String × Int)) : Option Config :=
  if (settings.map (·.1)).Nodup then
    settings.foldlM (fun c s ↦ c.set? s.1 s.2) { }
  else none

/-- Reads a configuration. -/
def parse (text : String) : Except ConfigError Config :=
  match (Settings.parse? text).bind ofSettings? with
  | some c => .ok c
  | none => .error .invalid

/-- Reads a configuration from what stands at a path, if anything does. -/
def load (path : String) (content : Option ByteArray) : Except ConfigError Config :=
  match content with
  | none => .error (.missing path)
  | some bytes =>
    match String.fromUTF8? bytes with
    | none => .error (.notText path)
    | some text => parse text

def inspect (c : Config) : String :=
  Text.record "EngineConfig"
    [("juice_limit", Text.ofInt c.juiceLimit.toInt), ("max_depth", Text.ofInt c.maxDepth),
      ("query_juice_limit", Text.ofInt c.queryJuiceLimit.toInt)]

end Config

end MeteredLedger
