import MeteredLedger.Text.Decimal
import MeteredLedger.Text.Quoted
import MeteredLedger.Value.Basic

/-!
# The printed form of values

Every value has an EDN-style text: lists in parentheses, vectors in brackets, maps in braces with
commas between the entries, and a hash sign before addresses, sets, blob-maps and ledger states.
-/

namespace MeteredLedger

namespace Blob

/-- The digits of the bytes after `0x`. -/
def ednChars (b : Blob) : List Char := '0' :: 'x' :: b.hexChars

def edn (b : Blob) : String := String.ofList b.ednChars

end Blob

namespace Address

/-- The number after a hash sign. -/
def ednChars (a : Address) : List Char := '#' :: Text.natChars a.toNat

def edn (a : Address) : String := String.ofList a.ednChars

end Address

namespace Keyword

def edn (k : Keyword) : String := ":" ++ k.name

end Keyword

namespace Value

/-- The balance and the sequence of an account, which is all a ledger's text shows of it. -/
def accountChars (a : Account Value) : List Char :=
  "\x7b:balance ".toList ++ Text.intChars a.balance.toInt ++
    ", :sequence ".toList ++ Text.intChars a.sequence.toInt ++ ['\x7d']

mutual

/-- The characters of the printed form. -/
def ednChars : Value → List Char
  | .nil => "nil".toList
  | .bool true => "true".toList
  | .bool false => "false".toList
  | .long n => Text.intChars n.toInt
  | .string s => Text.quoteChars s
  | .blob b => b.ednChars
  | .address a => a.ednChars
  | .symbol s => s.name.toList
  | .keyword k => ':' :: k.name.toList
  | .list xs => '(' :: [' '].intercalate (itemTexts xs) ++ [')']
  | .vector xs => '[' :: [' '].intercalate (itemTexts xs) ++ [']']
  | .map ⟨es⟩ => '\x7b' :: [',', ' '].intercalate (entryTexts es) ++ ['\x7d']
  | .set ⟨xs⟩ => "#\x7b".toList ++ [' '].intercalate (itemTexts xs) ++ ['\x7d']
  | .blobMap ⟨es⟩ =>
    "#blob-map \x7b".toList ++ [',', ' '].intercalate (blobEntryTexts es) ++ ['\x7d']
  | .ledger s =>
    "#state \x7b:timestamp ".toList ++ Text.intChars s.timestamp.toInt ++
      ", :accounts [".toList ++ [' '].intercalate (s.accounts.map accountChars) ++ "]\x7d".toList
termination_by structural v => v

def itemTexts : List Value → List (List Char)
  | [] => []
  | v :: vs => ednChars v :: itemTexts vs
termination_by structural vs => vs

def entryTexts : List (Value × Value) → List (List Char)
  | [] => []
  | (k, v) :: es => (ednChars k ++ ' ' :: ednChars v) :: entryTexts es
termination_by structural es => es

def blobEntryTexts : List (Blob × Value) → List (List Char)
  | [] => []
  | (k, v) :: es => (k.ednChars ++ ' ' :: ednChars v) :: blobEntryTexts es
termination_by structural es => es

end

/-- The printed form of a value. -/
def edn (v : Value) : String := String.ofList v.ednChars

theorem itemTexts_eq_map (vs : List Value) : itemTexts vs = vs.map ednChars := by
  induction vs with
  | nil => rfl
  | cons v vs ih => rw [itemTexts, ih, List.map_cons]

/-- The form of a value that names its kind: names, blobs, addresses and collections say what they
are, and all other values show as they print. -/
def inspect : Value → String
  | .blob b => "Blob(" ++ b.edn ++ ")"
  | .address a => "Address(" ++ Text.ofInt a.toNat ++ ")"
  | .symbol s => "Symbol(" ++ s.name ++ ")"
  | .keyword k => "Keyword(" ++ k.edn ++ ")"
  | .list xs => "List" ++ edn (.list xs)
  | .vector xs => "Vector" ++ edn (.vector xs)
  | .map m => "Map" ++ edn (.map m)
  | .set s => "Set" ++ edn (.set s)
  | v => v.edn

end Value

namespace Ledger

def edn (s : Ledger Value) : String := Value.edn (.ledger s)

end Ledger

end MeteredLedger
