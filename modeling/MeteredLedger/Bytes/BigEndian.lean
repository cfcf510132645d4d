/-!
# Fixed-width big-endian numbers

A number is written with the most significant byte first, so that the order of numbers of one
width is the lexicographic order of their bytes.
-/

namespace MeteredLedger.Bytes

/-- The `width` low bytes of `n`, the most significant one first. -/
def bigEndian : Nat → Nat → List UInt8
  | 0, _ => []
  | width + 1, n => bigEndian width (n / 256) ++ [n.toUInt8]

@[simp] theorem length_bigEndian (width n : Nat) : (bigEndian width n).length = width := by
  induction width generalizing n with
  | zero => rfl
  | succ width ih => simp [bigEndian, ih]

/-- An unsigned word as eight bytes. -/
def ofUInt64 (w : UInt64) : List UInt8 :=
  bigEndian 8 w.toNat

/-- A signed word as the eight bytes of its two's complement. -/
def ofInt64 (n : Int64) : List UInt8 :=
  bigEndian 8 n.toUInt64.toNat

/-- A length as eight bytes. -/
def ofLength (n : Nat) : List UInt8 :=
  bigEndian 8 n

/-- A string of bytes after its length. -/
def withLength (bytes : List UInt8) : List UInt8 :=
  ofLength bytes.length ++ bytes

@[simp] theorem length_ofUInt64 (w : UInt64) : (ofUInt64 w).length = 8 := length_bigEndian 8 _
@[simp] theorem length_ofInt64 (n : Int64) : (ofInt64 n).length = 8 := length_bigEndian 8 _
@[simp] theorem length_ofLength (n : Nat) : (ofLength n).length = 8 := length_bigEndian 8 n

end MeteredLedger.Bytes
