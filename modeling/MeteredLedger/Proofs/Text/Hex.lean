import MeteredLedger.Proofs.Text.Reading
import MeteredLedger.Value.Edn

/-!
# Reading hexadecimal text

A text is read as bytes exactly if it is made of an even number of digits, and the bytes are then
written as the same digits in lower case.  No digit is an `x`, so it can be seen from a text whether
it has a leading `0x`, and there is one way only to take it off.
-/

namespace MeteredLedger

namespace Hex

variable {c : Char} {cs : List Char} {bs : List UInt8}

/-- The digits, in either case. -/
def digits : List Char := "0123456789abcdefABCDEF".toList

/-! ## Digits -/

/-- A digit has a value, whose own digit is it in lower case. -/
theorem digitValue?_of_mem (hc : c ∈ digits) :
    ∃ n < 16, digitValue? c = some n ∧ n.digitChar = c.toLower := by
  have hall : digits.all (fun c ↦ (digitValue? c).any
      fun n ↦ decide (n < 16 ∧ n.digitChar = c.toLower)) = true := by decide
  obtain ⟨n, hn, h⟩ := (Option.any_eq_true _ _).mp (List.all_eq_true.mp hall c hc)
  obtain ⟨hlt, hlower⟩ := of_decide_eq_true h
  exact ⟨n, hlt, hn, hlower⟩

/-- No character after the last digit has a value. -/
theorem toNat_le_of_digitValue? {n : Nat} (h : digitValue? c = some n) : c.toNat ≤ 'f'.toNat := by
  have hle {d : Char} (hcd : c ≤ d) (hd : d.toNat ≤ 'f'.toNat) : c.toNat ≤ 'f'.toNat :=
    Nat.le_trans (UInt32.le_iff_toNat_le.mp (Char.le_def.mp hcd)) hd
  unfold digitValue? at h
  split at h
  · next hc => exact hle hc.2 (by decide)
  · split at h
    · next hc => exact hle hc.2 (by decide)
    · split at h
      · next hc => exact hle hc.2 (by decide)
      · cases h

/-- Only the digits have a value, and as a digit it is the same in lower case. -/
theorem of_digitValue? {n : Nat} (h : digitValue? c = some n) :
    c ∈ digits ∧ n < 16 ∧ n.digitChar = c.toLower := by
  -- No character after `f` has a value, which leaves finitely many to look at.
  have hall : ∀ k ≤ 'f'.toNat, digitValue? (Char.ofNat k) ≠ none → Char.ofNat k ∈ digits := by
    decide
  have hmem := hall c.toNat (toNat_le_of_digitValue? h)
  rw [Char.ofNat_toNat, h] at hmem
  obtain ⟨m, hm, hvalue, hlower⟩ := digitValue?_of_mem (hmem nofun)
  obtain rfl : n = m := Option.some.inj (h.symm.trans hvalue)
  exact ⟨hmem nofun, hm, hlower⟩

/-! ## Bytes -/

/-- The two digits of a byte are those of its halves. -/
theorem byteDigits_toUInt8 {hi lo : Nat} (hhi : hi < 16) (hlo : lo < 16) :
    byteDigits (16 * hi + lo).toUInt8 = [hi.digitChar, lo.digitChar] := by
  have hnat : (16 * hi + lo).toUInt8.toNat = 16 * hi + lo :=
    UInt8.toNat_ofNat_of_lt (by rw [UInt8.size]; omega)
  have hdiv : (16 * hi + lo) / 16 = hi := by omega
  have hmod : (16 * hi + lo) % 16 = lo := by omega
  rw [byteDigits, hnat, hdiv, hmod]

/-- An even number of digits. -/
structure IsPaired (cs : List Char) : Prop where
  even : cs.length % 2 = 0
  mem_digits : ∀ c ∈ cs, c ∈ digits

instance (cs : List Char) : Decidable (IsPaired cs) :=
  decidable_of_iff (cs.length % 2 = 0 ∧ cs.all digits.contains = true)
    ⟨fun h ↦ ⟨h.1, by simpa using h.2⟩, fun h ↦ ⟨h.even, by simpa using h.mem_digits⟩⟩

theorem isPaired_nil : IsPaired [] := ⟨rfl, List.forall_mem_nil _⟩

/-- Digits are paired two by two. -/
theorem isPaired_cons_cons_iff {d : Char} :
    IsPaired (c :: d :: cs) ↔ c ∈ digits ∧ d ∈ digits ∧ IsPaired cs := by
  constructor
  · rintro ⟨heven, hdigits⟩
    obtain ⟨hc, hdigits⟩ := List.forall_mem_cons.mp hdigits
    obtain ⟨hd, hdigits⟩ := List.forall_mem_cons.mp hdigits
    exact ⟨hc, hd, (Nat.add_mod_right cs.length 2).symm.trans heven, hdigits⟩
  · rintro ⟨hc, hd, heven, hdigits⟩
    exact ⟨(Nat.add_mod_right cs.length 2).trans heven,
      List.forall_mem_cons.mpr ⟨hc, List.forall_mem_cons.mpr ⟨hd, hdigits⟩⟩⟩

/-- Paired digits can be decoded. -/
theorem exists_decode (h : IsPaired cs) : ∃ bs, decode cs = some bs := by
  fun_induction decode cs with
  | case1 => exact ⟨[], rfl⟩
  | case2 c => cases h.even
  | case3 c d cs hi lo hd hc ih =>
      obtain ⟨bs, hbs⟩ := ih (isPaired_cons_cons_iff.mp h).2.2
      exact ⟨_, by rw [hbs, Option.map_some]⟩
  | case4 c d cs hnone =>
      obtain ⟨hc, hd, -⟩ := isPaired_cons_cons_iff.mp h
      obtain ⟨hi, -, hhi, -⟩ := digitValue?_of_mem hc
      obtain ⟨lo, -, hlo, -⟩ := digitValue?_of_mem hd
      exact absurd hlo (hnone hi lo hhi)

/-- What can be decoded is paired digits, and the bytes are written as these in lower case. -/
theorem of_decode (h : decode cs = some bs) : IsPaired cs ∧ encode bs = cs.map Char.toLower := by
  fun_induction decode cs generalizing bs with
  | case1 =>
      cases h
      exact ⟨isPaired_nil, rfl⟩
  | case2 c => cases h
  | case3 c d cs hi lo hd hc ih =>
      obtain ⟨bs, hbs, rfl⟩ := Option.map_eq_some_iff.mp h
      obtain ⟨hpaired, hencode⟩ := ih hbs
      obtain ⟨hcmem, hhi, hclower⟩ := of_digitValue? hc
      obtain ⟨hdmem, hlo, hdlower⟩ := of_digitValue? hd
      refine ⟨isPaired_cons_cons_iff.mpr ⟨hcmem, hdmem, hpaired⟩, ?_⟩
      rw [encode_cons, byteDigits_toUInt8 hhi hlo, hclower, hdlower, hencode]
      rfl
  | case4 c d cs hnone => cases h

/-- Exactly the texts of paired digits can be read, and what is read is written as the same digits
in lower case. -/
theorem decode_eq_some_iff :
    decode cs = some bs ↔ IsPaired cs ∧ encode bs = cs.map Char.toLower := by
  refine ⟨of_decode, ?_⟩
  rintro ⟨hpaired, hencode⟩
  obtain ⟨bs', hbs'⟩ := exists_decode hpaired
  rw [hbs', encode_inj ((of_decode hbs').2.trans hencode.symm)]

/-- Paired digits do not begin with the marker, for `x` is no digit. -/
theorem IsPaired.ne_marked (h : IsPaired cs) (ds : List Char) : cs ≠ '0' :: 'x' :: ds := by
  rintro rfl
  have hx : 'x' ∈ digits := (isPaired_cons_cons_iff.mp h).2.1
  exact absurd hx (by decide)

end Hex

/-! ## Blobs -/

namespace Blob

variable {s d d' : String} {b : Blob}

/-- A text without the marker is decoded as it is. -/
theorem ofHexChars?_of_unmarked {cs : List Char} (h : ∀ ds, cs ≠ '0' :: 'x' :: ds) :
    ofHexChars? cs = (Hex.decode cs).map mk := by
  unfold ofHexChars?
  split
  · exact absurd rfl (h _)
  · rfl

/-- The text `s` is `d`, or `d` after a leading `0x`, and `d` is an even number of digits. -/
structure HexBody (s d : String) : Prop where
  marked : s = d ∨ s = "0x" ++ d
  paired : Hex.IsPaired d.toList

theorem toList_marked (d : String) : ("0x" ++ d).toList = '0' :: 'x' :: d.toList :=
  String.toList_append

/-- A text is read by decoding its body. -/
theorem HexBody.ofHex?_eq (h : HexBody s d) : ofHex? s = (Hex.decode d.toList).map .mk := by
  obtain ⟨rfl | rfl, hpaired⟩ := h
  · exact ofHexChars?_of_unmarked hpaired.ne_marked
  · rw [ofHex?, toList_marked]
    rfl

/-- A text that can be read has a body. -/
theorem exists_hexBody (h : ofHex? s = some b) : ∃ d, HexBody s d := by
  by_cases hs : ∃ ds, s.toList = '0' :: 'x' :: ds
  · obtain ⟨ds, hds⟩ := hs
    rw [ofHex?, hds] at h
    obtain ⟨bs, hbs, -⟩ := Option.map_eq_some_iff.mp h
    refine ⟨String.ofList ds, .inr (String.toList_inj.mp ?_), ?_⟩
    · rw [hds, toList_marked, String.toList_ofList]
    · rw [String.toList_ofList]
      exact (Hex.of_decode hbs).1
  · rw [ofHex?, ofHexChars?_of_unmarked (not_exists.mp hs)] at h
    obtain ⟨bs, hbs, -⟩ := Option.map_eq_some_iff.mp h
    exact ⟨s, .inl rfl, (Hex.of_decode hbs).1⟩

/-- A leading `0x` is not mistaken for digits. -/
theorem HexBody.unique (h : HexBody s d) (h' : HexBody s d') : d' = d := by
  obtain ⟨rfl | rfl, hpaired⟩ := h
  · rcases h'.marked with rfl | rfl
    · rfl
    · exact absurd (toList_marked d') (hpaired.ne_marked _)
  · rcases h'.marked with rfl | hmarked
    · exact absurd (toList_marked d) (h'.paired.ne_marked _)
    · rw [← String.toList_inj, toList_marked, toList_marked] at hmarked
      exact String.toList_inj.mp (List.cons.inj (List.cons.inj hmarked).2).2.symm

/-- A blob is written as a text in lower case exactly if its digits are that text. -/
theorem toHex_eq_toLower_iff (b : Blob) (d : String) :
    b.toHex = d.toLower ↔ Hex.encode b.bytes = d.toList.map Char.toLower := by
  have hlower : d.toLower.toList = d.toList.map Char.toLower := String.toList_map
  rw [← String.toList_inj, hlower, toHex, String.toList_ofList]
  rfl

/-- A text is read as the blob that is written as its body in lower case. -/
theorem HexBody.ofHex?_eq_some_iff (h : HexBody s d) :
    ofHex? s = some b ↔ b.toHex = d.toLower := by
  have hdecode : Hex.decode d.toList = some b.bytes ↔
      Hex.encode b.bytes = d.toList.map Char.toLower := by
    rw [Hex.decode_eq_some_iff, and_iff_right h.paired]
  rw [h.ofHex?_eq, toHex_eq_toLower_iff, ← hdecode, Option.map_eq_some_iff]
  constructor
  · rintro ⟨bs, hbs, rfl⟩
    exact hbs
  · exact fun hbs ↦ ⟨b.bytes, hbs, rfl⟩

/-- A blob is read from any text that has its digits for a body. -/
theorem HexBody.ofHex?_toHex (h : HexBody s b.toHex) : ofHex? s = some b := by
  rw [h.ofHex?_eq, toHex, String.toList_ofList, hexChars, Hex.decode_encode]
  rfl

/-- What is written is paired digits. -/
theorem isPaired_toHex (b : Blob) : Hex.IsPaired b.toHex.toList := by
  rw [toHex, String.toList_ofList]
  exact (Hex.of_decode (Hex.decode_encode b.bytes)).1

theorem edn_eq_append (b : Blob) : b.edn = "0x" ++ b.toHex := by
  rw [← String.toList_inj, toList_marked, edn, toHex, String.toList_ofList, String.toList_ofList]
  rfl

/-- **Hexadecimal text.** A text can be read as a blob exactly if it is, after at most one leading
`0x`, an even number of digits of either case.  The prefix can be taken off in one way only, and the
blob is the one whose digits are those of the text in lower case.  What a blob is written as, with
and without the prefix, is read as the blob. -/
theorem hex_reading_exact :
    (∀ s, (∃ b, ofHex? s = some b) ↔ ∃ d, HexBody s d) ∧
    (∀ s d, HexBody s d → (∀ b, ofHex? s = some b ↔ b.toHex = d.toLower) ∧
      ∀ d', HexBody s d' → d' = d) ∧
    (∀ b : Blob, ofHex? b.toHex = some b ∧ ofHex? b.edn = some b) := by
  refine ⟨fun s ↦ ⟨?_, ?_⟩, fun s d h ↦ ⟨fun b ↦ h.ofHex?_eq_some_iff, fun _ ↦ h.unique⟩,
    fun b ↦ ⟨?_, ?_⟩⟩
  · rintro ⟨b, hb⟩
    exact exists_hexBody hb
  · rintro ⟨d, h⟩
    obtain ⟨bs, hbs⟩ := Hex.exists_decode h.paired
    exact ⟨⟨bs⟩, by rw [h.ofHex?_eq, hbs, Option.map_some]⟩
  · exact HexBody.ofHex?_toHex ⟨.inl rfl, b.isPaired_toHex⟩
  · exact HexBody.ofHex?_toHex ⟨.inr b.edn_eq_append, b.isPaired_toHex⟩

/-- Digits of both cases after the prefix. -/
theorem hex_reading_exact_mixed_case :
    HexBody "0xDEad0F" "DEad0F" ∧ ofHex? "0xDEad0F" = some ⟨[0xde, 0xad, 0x0f]⟩ ∧
    toHex ⟨[0xde, 0xad, 0x0f]⟩ = "dead0f" ∧ ofHex? "dead0f" = some ⟨[0xde, 0xad, 0x0f]⟩ := by
  obtain ⟨-, hbody, hwritten⟩ := hex_reading_exact
  have h : HexBody "0xDEad0F" "DEad0F" := ⟨.inr rfl, by decide⟩
  have hlower : toHex ⟨[0xde, 0xad, 0x0f]⟩ = "dead0f" := by decide
  have hread := ((hbody _ _ h).1 ⟨[0xde, 0xad, 0x0f]⟩).mpr
    ((toHex_eq_toLower_iff _ _).mpr (by decide))
  exact ⟨h, hread, hlower, (hwritten ⟨[0xde, 0xad, 0x0f]⟩).1⟩

/-- No digits are digits enough, and a second prefix or one in upper case is none. -/
example : ofHex? "0x" = some empty ∧ ofHex? "0x0x12" = none ∧ ofHex? "0X12" = none ∧
    ofHex? "0x123" = none := by
  decide

end Blob

end MeteredLedger
