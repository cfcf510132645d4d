import Mathlib.Tactic.SplitIfs
import MeteredLedger.Text.Decimal
import MeteredLedger.Text.Hex
import MeteredLedger.Text.JsonString
import MeteredLedger.Text.Quoted

/-!
# Texts that can be told apart

Two ways to see where a text ends.  A word has none of the characters that may follow it, so it ends
before the first of these; numbers and digits are words.  Quoted text ends at the first quote that
is not escaped, since no escape is the beginning of another one and none begins with a quote.
-/

namespace MeteredLedger.Text

variable {a b s t : List Char}

/-! ## Digits -/

section Digits

variable {base m n : Nat}

/-- No two of the sixteen digits are the same character. -/
theorem digitChar_inj (hm : m < 16) (hn : n < 16) (h : m.digitChar = n.digitChar) : m = n := by
  have hall : ∀ m < 16, ∀ n < 16, Nat.digitChar m = Nat.digitChar n → m = n := by decide
  exact hall m hm n hn h

/-- What holds of all digits holds of the digits of a number. -/
theorem forall_mem_toDigits {p : Char → Prop} (hb : 1 < base) (h : ∀ k < base, p k.digitChar)
    (n : Nat) : ∀ c ∈ Nat.toDigits base n, p c := by
  induction n using Nat.base_induction base hb with
  | single n hn =>
      rw [Nat.toDigits_of_lt_base hn]
      exact List.forall_mem_singleton.mpr (h n hn)
  | digit n k hk hn ih =>
      rw [← Nat.toDigits_append_toDigits hb hn hk, Nat.toDigits_of_lt_base hk]
      exact List.forall_mem_append.mpr ⟨ih, List.forall_mem_singleton.mpr (h k hk)⟩

/-- A number is determined by its digits. -/
theorem toDigits_inj (hb : 1 < base) (hb' : base ≤ 16)
    (h : Nat.toDigits base m = Nat.toDigits base n) : m = n := by
  induction m using Nat.base_induction base hb generalizing n with
  | single m hm =>
      rw [Nat.toDigits_of_lt_base hm, Nat.toDigits_eq_if hb] at h
      split at h
      · next hn => exact digitChar_inj (by omega) (by omega) (List.singleton_inj.mp h)
      · have hlen := congrArg List.length h
        simp at hlen
  | digit m k hk hm ih =>
      rw [← Nat.toDigits_append_toDigits hb hm hk, Nat.toDigits_of_lt_base hk,
        @Nat.toDigits_eq_if base n hb] at h
      split at h
      · have hlen := congrArg List.length h
        simp at hlen
      · obtain ⟨hrest, hlast⟩ := List.append_inj' h rfl
        have hmod : n % base < base := Nat.mod_lt n (by omega)
        have hk' : k = n % base :=
          digitChar_inj (by omega) (by omega) (List.singleton_inj.mp hlast)
        rw [ih hrest, hk', Nat.div_add_mod]

end Digits

/-! ## Words -/

/-- The characters that may follow a word. -/
def isDelimiter (c : Char) : Bool := [' ', ',', ')', ']', '\x7d'].contains c

def IsWord (a : List Char) : Prop := ∀ c ∈ a, isDelimiter c = false

/-- What is after a word: nothing, or something that begins with a delimiter. -/
def Delimited (s : List Char) : Prop := ∀ c ∈ s.head?, isDelimiter c = true

theorem delimited_nil : Delimited [] := by
  intro c hc
  cases hc

theorem delimited_cons {c : Char} (h : isDelimiter c = true) : Delimited (c :: s) := by
  rintro d ⟨⟩
  exact h

/-- A word is what comes before the first delimiter. -/
theorem IsWord.takeWhile_append (ha : IsWord a) (hs : Delimited s) :
    (a ++ s).takeWhile (fun c ↦ !isDelimiter c) = a := by
  have hrest : s.takeWhile (fun c ↦ !isDelimiter c) = [] := by
    cases s with
    | nil => rfl
    | cons c s => exact List.takeWhile_cons_of_neg (by simp [hs c rfl])
  rw [List.takeWhile_append_of_pos (fun c hc ↦ by simp [ha c hc]), hrest, List.append_nil]

/-- A word is cut off from what follows by a delimiter. -/
theorem IsWord.append_inj (ha : IsWord a) (hb : IsWord b) (hs : Delimited s) (ht : Delimited t)
    (h : a ++ s = b ++ t) : a = b ∧ s = t := by
  have hab : a = b := by rw [← ha.takeWhile_append hs, h, hb.takeWhile_append ht]
  subst hab
  exact ⟨rfl, List.append_cancel_left h⟩

theorem isDelimiter_digitChar {k : Nat} (hk : k < 16) : isDelimiter k.digitChar = false := by
  have hall : ∀ k < 16, isDelimiter (Nat.digitChar k) = false := by decide
  exact hall k hk

/-- Digits are a word, for no digit is a delimiter. -/
theorem isWord_toDigits {base : Nat} (hb : 1 < base) (hb' : base ≤ 16) (n : Nat) :
    IsWord (Nat.toDigits base n) :=
  forall_mem_toDigits hb (fun _ hk ↦ isDelimiter_digitChar (Nat.lt_of_lt_of_le hk hb')) n

theorem isDigit_of_mem_natChars {n : Nat} : ∀ c ∈ natChars n, c.isDigit = true :=
  fun _ hc ↦ Nat.isDigit_of_mem_toDigits (by decide) (by decide) hc

/-- A number without a sign does not begin with one. -/
theorem natChars_ne_cons_sign (n : Nat) : natChars n ≠ '-' :: s := by
  intro h
  have hsign := isDigit_of_mem_natChars (n := n) '-' (h ▸ List.mem_cons_self)
  cases hsign

theorem isWord_natChars (n : Nat) : IsWord (natChars n) :=
  isWord_toDigits (by decide) (by decide) n

theorem natChars_inj {m n : Nat} (h : natChars m = natChars n) : m = n :=
  toDigits_inj (by decide) (by decide) h

/-- A number is cut off from what follows by a delimiter. -/
theorem natChars_append_inj {m n : Nat} (hs : Delimited s) (ht : Delimited t)
    (h : natChars m ++ s = natChars n ++ t) : m = n ∧ s = t := by
  obtain ⟨hdigits, hst⟩ := (isWord_natChars m).append_inj (isWord_natChars n) hs ht h
  exact ⟨natChars_inj hdigits, hst⟩

/-- A number with its sign is a word. -/
theorem isWord_intChars (n : Int) : IsWord (intChars n) := by
  cases n with
  | ofNat n => exact isWord_natChars n
  | negSucc n => exact List.forall_mem_cons.mpr ⟨rfl, isWord_natChars (n + 1)⟩

/-- Numbers are told apart by their digits and their signs. -/
theorem intChars_inj {m n : Int} (h : intChars m = intChars n) : m = n := by
  cases m with
  | ofNat m =>
      cases n with
      | ofNat n => rw [natChars_inj h]
      | negSucc n => exact absurd h (natChars_ne_cons_sign m)
  | negSucc m =>
      cases n with
      | ofNat n => exact absurd h.symm (natChars_ne_cons_sign n)
      | negSucc n =>
          have hmn : m + 1 = n + 1 := natChars_inj (List.cons.inj h).2
          rw [Nat.succ.inj hmn]

/-- A number with its sign is cut off from what follows by a delimiter. -/
theorem intChars_append_inj {m n : Int} (hs : Delimited s) (ht : Delimited t)
    (h : intChars m ++ s = intChars n ++ t) : m = n ∧ s = t := by
  obtain ⟨hdigits, hst⟩ := (isWord_intChars m).append_inj (isWord_intChars n) hs ht h
  exact ⟨intChars_inj hdigits, hst⟩

end MeteredLedger.Text

namespace MeteredLedger.Hex

/-- The value of a digit is read back. -/
theorem digitValue?_digitChar {n : Nat} (hn : n < 16) : digitValue? n.digitChar = some n := by
  have hall : ∀ n < 16, digitValue? (Nat.digitChar n) = some n := by decide
  exact hall n hn

/-- What was encoded is decoded. -/
theorem decode_encode (bs : List UInt8) : decode (encode bs) = some bs := by
  induction bs with
  | nil => rfl
  | cons b bs ih =>
      have hb := b.toNat_lt
      have hhi := digitValue?_digitChar (n := b.toNat / 16) (by omega)
      have hlo := digitValue?_digitChar (n := b.toNat % 16) (by omega)
      have hbyte : (16 * (b.toNat / 16) + b.toNat % 16).toUInt8 = b := by
        rw [Nat.div_add_mod]
        exact UInt8.ofNat_toNat
      simp only [encode_cons, byteDigits, List.cons_append, List.nil_append, decode, hhi, hlo, ih,
        Option.map_some, hbyte]

theorem encode_inj {xs ys : List UInt8} (h : encode xs = encode ys) : xs = ys := by
  have hdecode := congrArg decode h
  rw [decode_encode, decode_encode] at hdecode
  exact Option.some.inj hdecode

theorem isWord_encode (xs : List UInt8) : Text.IsWord (encode xs) := by
  induction xs with
  | nil => exact List.forall_mem_nil _
  | cons x xs ih =>
      have hx := x.toNat_lt
      have hbyte : Text.IsWord (byteDigits x) :=
        List.forall_mem_cons.mpr ⟨Text.isDelimiter_digitChar (by omega),
          List.forall_mem_singleton.mpr (Text.isDelimiter_digitChar (by omega))⟩
      exact List.forall_mem_append.mpr ⟨hbyte, ih⟩

end MeteredLedger.Hex

/-! ## Quoted text -/

namespace MeteredLedger.Text

variable {s t : List Char}

/-- A way to write the characters of a text between quotes: where the text of a character ends can
be seen, and so can the quote that ends them all. -/
structure Escaping (f : Char → List Char) : Prop where
  append_inj {c d : Char} {s t : List Char} : f c ++ s = f d ++ t → c = d ∧ s = t
  ne_quote (c : Char) (s t : List Char) : f c ++ s ≠ '"' :: t

/-- Characters that are escaped are cut off from what follows by a quote. -/
theorem Escaping.flatMap_append_inj {f : Char → List Char} (hf : Escaping f) {l l' : List Char}
    (h : l.flatMap f ++ '"' :: s = l'.flatMap f ++ '"' :: t) : l = l' ∧ s = t := by
  induction l generalizing l' with
  | nil =>
      cases l' with
      | nil => exact ⟨rfl, (List.cons.inj h).2⟩
      | cons d l' =>
          rw [List.flatMap_cons, List.append_assoc] at h
          exact absurd h.symm (hf.ne_quote d _ _)
  | cons c l ih =>
      rw [List.flatMap_cons, List.append_assoc] at h
      cases l' with
      | nil => exact absurd h (hf.ne_quote c _ _)
      | cons d l' =>
          rw [List.flatMap_cons, List.append_assoc] at h
          obtain ⟨rfl, hrest⟩ := hf.append_inj h
          obtain ⟨rfl, hst⟩ := ih hrest
          exact ⟨rfl, hst⟩

/-- A text between quotes is determined, whatever follows it. -/
theorem Escaping.quoted_append_inj {f : Char → List Char} (hf : Escaping f) {x y : String}
    (h : '"' :: x.toList.flatMap f ++ ['"'] ++ s = '"' :: y.toList.flatMap f ++ ['"'] ++ t) :
    x = y ∧ s = t := by
  rw [List.append_assoc, List.append_assoc] at h
  obtain ⟨hxy, hst⟩ := hf.flatMap_append_inj (List.cons.inj h).2
  exact ⟨String.toList_inj.mp hxy, hst⟩

/-- The ways to write a character: as it stands, as a backslash and a letter, and as its code after
a backslash and a `u`. -/
inductive EscapesTo (letters : List (Char × Char)) (Code : Char → List Char → Prop) (c : Char) :
    List Char → Prop
  | plain (hquote : c ≠ '"') (hbackslash : c ≠ '\\') : EscapesTo letters Code c [c]
  | letter {l : Char} (h : (c, l) ∈ letters) : EscapesTo letters Code c ['\\', l]
  | code {r : List Char} (h : Code c r) : EscapesTo letters Code c ('\\' :: 'u' :: r)

/-- It is enough that the letters differ from each other and from `u`, and that codes can be told
apart. -/
theorem escaping_of_escapesTo {letters : List (Char × Char)} {Code : Char → List Char → Prop}
    {f : Char → List Char} (hf : ∀ c, EscapesTo letters Code c (f c))
    (hletters : ∀ p ∈ letters, p.2 ≠ 'u' ∧ ∀ q ∈ letters, p.2 = q.2 → p.1 = q.1)
    (hcode : ∀ {c d r r' s t}, Code c r → Code d r' → r ++ s = r' ++ t → c = d ∧ s = t) :
    Escaping f where
  append_inj {c d s t} h := by
    have hc := hf c
    have hd := hf d
    generalize f c = x at hc h
    generalize f d = y at hd h
    cases hc with
    | plain _ hc =>
        cases hd with
        | plain => exact List.cons.inj h
        | letter => exact absurd (List.cons.inj h).1 hc
        | code => exact absurd (List.cons.inj h).1 hc
    | letter hc =>
        cases hd with
        | plain _ hd => exact absurd (List.cons.inj h).1.symm hd
        | letter hd =>
            obtain ⟨hl, hst⟩ := List.cons.inj (List.cons.inj h).2
            exact ⟨(hletters _ hc).2 _ hd hl, hst⟩
        | code => exact absurd (List.cons.inj (List.cons.inj h).2).1 (hletters _ hc).1
    | code hc =>
        cases hd with
        | plain _ hd => exact absurd (List.cons.inj h).1.symm hd
        | letter hd =>
            exact absurd (List.cons.inj (List.cons.inj h).2).1.symm (hletters _ hd).1
        | code hd => exact hcode hc hd (List.cons.inj (List.cons.inj h).2).2
  ne_quote c s t h := by
    have hc := hf c
    generalize f c = x at hc h
    cases hc with
    | plain hc => exact hc (List.cons.inj h).1
    | letter => cases h
    | code => cases h

/-- The characters that take a letter in quoted text. -/
def quoteLetters : List (Char × Char) :=
  [('"', '"'), ('\\', '\\'), ('\n', 'n'), ('\r', 'r'), ('\t', 't'), ('\x00', '0')]

/-- The code point of a character between braces. -/
def BracedCode (c : Char) (r : List Char) : Prop :=
  r = '\x7b' :: (Nat.toDigits 16 c.toNat ++ ['\x7d'])

/-- A character in a printed text is escaped by a letter or by its code in braces, or stands for
itself. -/
theorem escapesTo_quoteChar (c : Char) : EscapesTo quoteLetters BracedCode c (quoteChar c) := by
  unfold quoteChar
  split_ifs with hquote hbackslash hnewline hreturn htab hzero
  · exact .letter (by rw [hquote]; decide)
  · exact .letter (by rw [hbackslash]; decide)
  · exact .letter (by rw [hnewline]; decide)
  · exact .letter (by rw [hreturn]; decide)
  · exact .letter (by rw [htab]; decide)
  · exact .letter (by rw [hzero]; decide)
  · exact .plain hquote hbackslash
  · exact .code rfl

/-- A code in braces is cut off from what follows. -/
theorem BracedCode.append_inj {c d : Char} {q r : List Char} (hc : BracedCode c q)
    (hd : BracedCode d r) (h : q ++ s = r ++ t) : c = d ∧ s = t := by
  obtain rfl := hc
  obtain rfl := hd
  rw [List.cons_append, List.cons_append, List.append_assoc, List.append_assoc] at h
  obtain ⟨hdigits, hrest⟩ := (isWord_toDigits (by decide) (by decide) c.toNat).append_inj
    (isWord_toDigits (by decide) (by decide) d.toNat) (delimited_cons rfl) (delimited_cons rfl)
    (List.cons.inj h).2
  exact ⟨Char.toNat_inj.mp (toDigits_inj (by decide) (by decide) hdigits), (List.cons.inj hrest).2⟩

theorem escaping_quoteChar : Escaping quoteChar :=
  escaping_of_escapesTo escapesTo_quoteChar (by decide) BracedCode.append_inj

/-- A printed text is cut off from what follows by its quotes. -/
theorem quoteChars_append_inj {x y : String} (h : quoteChars x ++ s = quoteChars y ++ t) :
    x = y ∧ s = t :=
  escaping_quoteChar.quoted_append_inj h

/-! ## Strings on the wire -/

/-- The characters that take a letter in a JSON string. -/
def jsonLetters : List (Char × Char) :=
  [('"', '"'), ('\\', '\\'), ('\x08', 'b'), ('\x0c', 'f'), ('\n', 'n'), ('\r', 'r'), ('\t', 't')]

/-- The code point of a character below the space, in four digits. -/
def FourDigitCode (c : Char) (r : List Char) : Prop :=
  c.toNat < 0x20 ∧
    r = ['0', '0', Nat.digitChar (c.toNat / 16), Nat.digitChar (c.toNat % 16)]

/-- A character in a response is escaped by a letter or by a code of four digits, or stands for
itself. -/
theorem escapesTo_jsonChar (c : Char) : EscapesTo jsonLetters FourDigitCode c (jsonChar c) := by
  unfold jsonChar
  split_ifs with hquote hbackslash hbackspace hfeed hnewline hreturn htab hcontrol
  · exact .letter (by rw [hquote]; decide)
  · exact .letter (by rw [hbackslash]; decide)
  · exact .letter (by rw [hbackspace]; decide)
  · exact .letter (by rw [hfeed]; decide)
  · exact .letter (by rw [hnewline]; decide)
  · exact .letter (by rw [hreturn]; decide)
  · exact .letter (by rw [htab]; decide)
  · exact .code ⟨hcontrol, rfl⟩
  · exact .plain hquote hbackslash

/-- A code of four digits is cut off from what follows. -/
theorem FourDigitCode.append_inj {c d : Char} {q r : List Char} (hc : FourDigitCode c q)
    (hd : FourDigitCode d r) (h : q ++ s = r ++ t) : c = d ∧ s = t := by
  obtain ⟨hc, rfl⟩ := hc
  obtain ⟨hd, rfl⟩ := hd
  obtain ⟨hhigh, h⟩ := List.cons.inj (List.cons.inj (List.cons.inj h).2).2
  obtain ⟨hlow, hst⟩ := List.cons.inj h
  have hdiv := digitChar_inj (by omega) (by omega) hhigh
  have hmod := digitChar_inj (by omega) (by omega) hlow
  exact ⟨Char.toNat_inj.mp (by omega), hst⟩

theorem escaping_jsonChar : Escaping jsonChar :=
  escaping_of_escapesTo escapesTo_jsonChar (by decide) FourDigitCode.append_inj

/-- A text in a response is cut off from what follows by its quotes. -/
theorem jsonQuote_append_inj {x y : String}
    (h : (jsonQuote x).toList ++ s = (jsonQuote y).toList ++ t) : x = y ∧ s = t := by
  rw [jsonQuote, jsonQuote, String.toList_ofList, String.toList_ofList] at h
  exact escaping_jsonChar.quoted_append_inj h

end MeteredLedger.Text
