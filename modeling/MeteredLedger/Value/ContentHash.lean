import MeteredLedger.Digest.Blake3
import MeteredLedger.Value.Encoding

/-!
# Content hashes

The digest of the canonical encoding identifies a value by its content.
-/

namespace MeteredLedger

/-- A digest that identifies a value by its content. -/
structure ContentHash where
  bytes : List UInt8
deriving DecidableEq, Repr

namespace ContentHash

def ofBytes (bytes : List UInt8) : ContentHash := ⟨Digest.Blake3.digest bytes⟩

instance : Ord ContentHash := ⟨fun a b ↦ compare a.bytes b.bytes⟩

def toHex (h : ContentHash) : String := String.ofList (Hex.encode h.bytes)

/-- The digits after `0x`. -/
def text (h : ContentHash) : String := "0x" ++ h.toHex

def inspect (h : ContentHash) : String := "ContentHash(" ++ h.text ++ ")"

end ContentHash

namespace Value

def contentHash (v : Value) : ContentHash := .ofBytes v.encode

end Value

namespace Ledger

def contentHash (s : Ledger Value) : ContentHash := .ofBytes s.encode

end Ledger

end MeteredLedger
