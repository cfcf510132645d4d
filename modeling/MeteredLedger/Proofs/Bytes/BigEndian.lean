import MeteredLedger.Bytes.BigEndian

/-!
# Big-endian numbers can be read and compared

The bytes of a number determine it, together with what is above them, and numbers that agree above
are in the order of their bytes.  What is above `width` bytes is a shift, and vanishes for a word of
that width.
-/

namespace MeteredLedger.Bytes

variable {width m n : Nat}

/-- What is above the bytes of a number is above the bytes of its upper part. -/
theorem shiftRight_bytes_succ (width n : Nat) :
    n >>> (8 * (width + 1)) = (n / 256) >>> (8 * width) := by
  rw [Nat.mul_succ, Nat.add_comm, Nat.shiftRight_add, Nat.shiftRight_eq_div_pow n 8]

/-- Above its eight bytes a word has nothing. -/
theorem above_eq_zero (hn : n < UInt64.size) : n >>> (8 * 8) = 0 := by
  rw [Nat.shiftRight_eq_div_pow]
  exact Nat.div_eq_of_lt hn

/-- The last byte of a number is its remainder. -/
theorem toNat_lastByte (n : Nat) : n.toUInt8.toNat = n % 256 := by
  simp

/-! ## Reading -/

/-- The number that bytes write, the most significant one first. -/
def number (bytes : List UInt8) : Nat := bytes.foldl (fun n b ↦ 256 * n + b.toNat) 0

/-- One byte more is one place more. -/
theorem number_append_singleton (bytes : List UInt8) (b : UInt8) :
    number (bytes ++ [b]) = 256 * number bytes + b.toNat := by
  simp [number]

/-- A number that has no more than `width` bytes is the number of these. -/
theorem number_bigEndian (h : n >>> (8 * width) = 0) : number (bigEndian width n) = n := by
  induction width generalizing n with
  | zero => exact h.symm
  | succ width ih =>
      rw [shiftRight_bytes_succ] at h
      rw [bigEndian, number_append_singleton, ih h, toNat_lastByte]
      exact Nat.div_add_mod n 256

/-- The eight bytes of a word stand for the word. -/
theorem number_ofUInt64 (w : UInt64) : number (ofUInt64 w) = w.toNat :=
  number_bigEndian (above_eq_zero w.toNat_lt_size)

/-- A number is determined by its low bytes and by what is above them. -/
theorem eq_of_bigEndian_eq (h : bigEndian width m = bigEndian width n)
    (habove : m >>> (8 * width) = n >>> (8 * width)) : m = n := by
  induction width generalizing m n with
  | zero => exact habove
  | succ width ih =>
      obtain ⟨hrest, hlast⟩ := List.append_inj h (by simp)
      have hmod : m % 256 = n % 256 := by
        rw [← toNat_lastByte, ← toNat_lastByte, List.singleton_inj.mp hlast]
      rw [shiftRight_bytes_succ, shiftRight_bytes_succ] at habove
      have hdiv : m / 256 = n / 256 := ih hrest habove
      omega

/-! ## Comparing -/

/-- Of two strings of bytes of the same length, the last bytes decide where the others agree. -/
theorem append_singleton_lt_iff {s t : List UInt8} (h : s.length = t.length) (a b : UInt8) :
    s ++ [a] < t ++ [b] ↔ s < t ∨ s = t ∧ a < b := by
  induction s generalizing t with
  | nil =>
      cases t with
      | nil => simp [List.cons_lt_cons_iff]
      | cons y t => cases h
  | cons x s ih =>
      cases t with
      | nil => cases h
      | cons y t =>
          simp only [List.cons_append, List.cons_lt_cons_iff, ih (Nat.succ.inj h), List.cons.injEq]
          grind

/-- Numbers that agree above their bytes are in the order of these. -/
theorem bigEndian_lt_iff (habove : m >>> (8 * width) = n >>> (8 * width)) :
    bigEndian width m < bigEndian width n ↔ m < n := by
  induction width generalizing m n with
  | zero =>
      obtain rfl : m = n := habove
      simp [bigEndian]
  | succ width ih =>
      rw [shiftRight_bytes_succ, shiftRight_bytes_succ] at habove
      have hbytes : bigEndian width (m / 256) = bigEndian width (n / 256) ↔ m / 256 = n / 256 :=
        ⟨fun h ↦ eq_of_bigEndian_eq h habove, fun h ↦ by rw [h]⟩
      rw [bigEndian, bigEndian, append_singleton_lt_iff (by simp), ih habove, hbytes,
        UInt8.lt_iff_toNat_lt, toNat_lastByte, toNat_lastByte]
      omega

/-- Words are ordered as their bytes are. -/
theorem ofUInt64_lt_iff {v w : UInt64} : ofUInt64 v < ofUInt64 w ↔ v.toNat < w.toNat :=
  bigEndian_lt_iff ((above_eq_zero v.toNat_lt_size).trans (above_eq_zero w.toNat_lt_size).symm)

end MeteredLedger.Bytes
