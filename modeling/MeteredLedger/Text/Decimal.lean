/-!
# Decimal text

Integers are written without leading zeros, and with a sign only if they are negative.
-/

namespace MeteredLedger.Text

/-- A natural number in decimal. -/
def natChars (n : Nat) : List Char := Nat.toDigits 10 n

/-- An integer in decimal. -/
def intChars : Int → List Char
  | .ofNat n => natChars n
  | .negSucc n => '-' :: natChars (n + 1)

def ofInt (n : Int) : String := String.ofList (intChars n)

end MeteredLedger.Text
