import MeteredLedger.Text.Hex

/-!
# Integer settings in TOML

The part of TOML that an engine's configuration uses: lines with a key and an integer, blank
lines and comments.  Keys are bare or quoted, integers are decimal, hexadecimal, octal or binary.
Tables, dotted keys and values of other types are refused.
-/

namespace MeteredLedger.Settings

/-! ### Lines -/

/-- The lines of a text.  A line ends with a line feed, and a carriage return before it belongs
to it. -/
def lines (cs : List Char) : List (List Char) :=
  match cs with
  | [] => [[]]
  | '\n' :: cs => [] :: lines cs
  | '\r' :: '\n' :: cs => [] :: lines cs
  | c :: cs =>
    match lines cs with
    | [] => [[c]]
    | line :: rest => (c :: line) :: rest

def isBlank (c : Char) : Bool := c = ' ' || c = '\t'

def skipBlanks (cs : List Char) : List Char := cs.dropWhile isBlank

/-- What may stand in a line after a quote or a number sign: no control character but the tab. -/
def isPlain (c : Char) : Bool :=
  c = '\t' || (decide (0x20 ≤ c.toNat) && decide (c.toNat ≠ 0x7f))

/-- Nothing more on the line than blanks and a comment. -/
def isTrailer (cs : List Char) : Bool :=
  match skipBlanks cs with
  | [] => true
  | c :: cs => c = '#' && cs.all isPlain

/-! ### Keys -/

def isBareKeyChar (c : Char) : Bool :=
  ('a' ≤ c && c ≤ 'z') || ('A' ≤ c && c ≤ 'Z') || ('0' ≤ c && c ≤ '9') || c = '-' || c = '_'

/-- The character with a code point of so many hexadecimal digits. -/
def codePoint? (count : Nat) (cs : List Char) : Option Char :=
  let digits := (cs.take count).filterMap Hex.digitValue?
  if digits.length = count then
    let n := digits.foldl (fun n d ↦ 16 * n + d) 0
    if n.isValidChar then some (.ofNat n) else none
  else none

/-- The character that an escape stands for, and how many characters of it follow the backslash. -/
def escape? (cs : List Char) : Option (Char × Nat) :=
  match cs with
  | 'b' :: _ => some ('\x08', 1)
  | 't' :: _ => some ('\t', 1)
  | 'n' :: _ => some ('\n', 1)
  | 'f' :: _ => some ('\x0c', 1)
  | 'r' :: _ => some ('\r', 1)
  | '"' :: _ => some ('"', 1)
  | '\\' :: _ => some ('\\', 1)
  | 'u' :: cs => (codePoint? 4 cs).map (·, 5)
  | 'U' :: cs => (codePoint? 8 cs).map (·, 9)
  | _ => none

/-- The text up to the closing double quote, and what follows it. -/
def quotedText? : List Char → Option (List Char × List Char)
  | [] => none
  | c :: cs =>
    if c = '"' then some ([], cs)
    else if c = '\\' then
      match escape? cs with
      | none => none
      | some (d, count) => (quotedText? (cs.drop count)).map fun (text, rest) ↦ (d :: text, rest)
    else if isPlain c then (quotedText? cs).map fun (text, rest) ↦ (c :: text, rest)
    else none
termination_by cs => cs.length
decreasing_by
  · simp only [List.length_drop, List.length_cons]
    omega
  · simp

/-- The text up to the closing single quote, where nothing is escaped, and what follows it. -/
def literalText? (cs : List Char) : Option (List Char × List Char) :=
  match cs.dropWhile (fun c ↦ c ≠ '\'') with
  | [] => none
  | _ :: rest =>
    let text := cs.takeWhile fun c ↦ c ≠ '\''
    if text.all isPlain then some (text, rest) else none

/-- A key at the beginning of a line, and what follows it. -/
def key? (cs : List Char) : Option (String × List Char) :=
  match cs with
  | '"' :: cs => (quotedText? cs).map fun (text, rest) ↦ (String.ofList text, rest)
  | '\'' :: cs => (literalText? cs).map fun (text, rest) ↦ (String.ofList text, rest)
  | cs =>
    match cs.takeWhile isBareKeyChar with
    | [] => none
    | text => some (String.ofList text, cs.dropWhile isBareKeyChar)

/-! ### Integers -/

/-- The value of a digit below `base`. -/
def digit? (base : Nat) (c : Char) : Option Nat :=
  (Hex.digitValue? c).filter (· < base)

/-- Digits with single underscores between them, after a number already read, and what follows. -/
def moreDigits (base : Nat) (n : Nat) : List Char → Option (Nat × List Char)
  | [] => some (n, [])
  | '_' :: [] => none
  | '_' :: c :: cs =>
    match digit? base c with
    | some d => moreDigits base (base * n + d) cs
    | none => none
  | c :: cs =>
    match digit? base c with
    | some d => moreDigits base (base * n + d) cs
    | none => some (n, c :: cs)

/-- A number with at least one digit, and what follows it. -/
def digits? (base : Nat) (cs : List Char) : Option (Nat × List Char) :=
  match cs with
  | [] => none
  | c :: cs => (digit? base c).bind fun d ↦ moreDigits base d cs

/-- A decimal number without leading zeros. -/
def decimal? (cs : List Char) : Option (Nat × List Char) :=
  match cs with
  | '0' :: cs => some (0, cs)
  | cs => digits? 10 cs

/-- An integer at the beginning of a text, and what follows it.  Only decimals have a sign. -/
def integer? (cs : List Char) : Option (Int × List Char) :=
  match cs with
  | '0' :: 'x' :: cs => (digits? 16 cs).map fun (n, rest) ↦ ((n : Int), rest)
  | '0' :: 'o' :: cs => (digits? 8 cs).map fun (n, rest) ↦ ((n : Int), rest)
  | '0' :: 'b' :: cs => (digits? 2 cs).map fun (n, rest) ↦ ((n : Int), rest)
  | '+' :: cs => (decimal? cs).map fun (n, rest) ↦ ((n : Int), rest)
  | '-' :: cs => (decimal? cs).map fun (n, rest) ↦ (-(n : Int), rest)
  | cs => (decimal? cs).map fun (n, rest) ↦ ((n : Int), rest)

/-! ### Documents -/

/-- A key, an equals sign and an integer, with nothing but a comment after them. -/
def setting? (cs : List Char) : Option (String × Int) := do
  let (key, cs) ← key? cs
  match skipBlanks cs with
  | '=' :: cs =>
    let (n, cs) ← integer? (skipBlanks cs)
    if isTrailer cs then some (key, n) else none
  | _ => none

/-- The settings of one line: none if it is blank or a comment. -/
def line? (cs : List Char) : Option (List (String × Int)) :=
  if isTrailer cs then some [] else (setting? (skipBlanks cs)).map ([·])

/-- The settings of a document in the order of its lines.  A byte order mark at its beginning is
skipped. -/
def parse? (s : String) : Option (List (String × Int)) :=
  let cs :=
    match s.toList with
    | '\ufeff' :: cs => cs
    | cs => cs
  ((lines cs).mapM line?).map List.flatten

end MeteredLedger.Settings
