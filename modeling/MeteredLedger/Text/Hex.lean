/-!
# Hexadecimal text

A byte is two digits.  Writing uses lower case, reading takes either case.
-/

namespace MeteredLedger.Hex

/-- The value of a hexadecimal digit of either case. -/
def digitValue? (c : Char) : Option Nat :=
  if '0' ≤ c ∧ c ≤ '9' then some (c.toNat - '0'.toNat)
  else if 'a' ≤ c ∧ c ≤ 'f' then some (c.toNat - 'a'.toNat + 10)
  else if 'A' ≤ c ∧ c ≤ 'F' then some (c.toNat - 'A'.toNat + 10)
  else none

/-- The two lower-case digits of a byte. -/
def byteDigits (b : UInt8) : List Char :=
  [Nat.digitChar (b.toNat / 16), Nat.digitChar (b.toNat % 16)]

def encode : List UInt8 → List Char
  | [] => []
  | b :: bs => byteDigits b ++ encode bs

/-- Reads pairs of digits; an odd digit at the end or any other character is refused. -/
def decode : List Char → Option (List UInt8)
  | [] => some []
  | [_] => none
  | c :: d :: cs =>
    match digitValue? c, digitValue? d with
    | some hi, some lo => (decode cs).map ((16 * hi + lo).toUInt8 :: ·)
    | _, _ => none

@[simp] theorem encode_nil : encode [] = [] := rfl
@[simp] theorem encode_cons (b : UInt8) (bs : List UInt8) :
    encode (b :: bs) = byteDigits b ++ encode bs := rfl

end MeteredLedger.Hex
