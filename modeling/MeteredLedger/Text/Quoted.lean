import MeteredLedger.Text.Printable

/-!
# Quoted text

A text between double quotes.  Quotes, backslashes and four control characters take a backslash and
a letter, every other character that cannot be shown takes its code point in hexadecimal, and all
others stand as they are.
-/

namespace MeteredLedger.Text

/-- The code point of a character in hexadecimal, as `\u{7f}`. -/
def codePointEscape (c : Char) : List Char :=
  ['\\', 'u', '\x7b'] ++ Nat.toDigits 16 c.toNat ++ ['\x7d']

/-- A character inside double quotes. -/
def quoteChar (c : Char) : List Char :=
  if c = '"' then ['\\', '"']
  else if c = '\\' then ['\\', '\\']
  else if c = '\n' then ['\\', 'n']
  else if c = '\r' then ['\\', 'r']
  else if c = '\t' then ['\\', 't']
  else if c = '\x00' then ['\\', '0']
  else if isPrintable c then [c]
  else codePointEscape c

/-- The characters of a quoted text, both quotes included. -/
def quoteChars (s : String) : List Char :=
  '"' :: s.toList.flatMap quoteChar ++ ['"']

def quote (s : String) : String :=
  String.ofList (quoteChars s)

end MeteredLedger.Text
