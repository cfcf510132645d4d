import MeteredLedger.Host.Conversion
import MeteredLedger.Proofs.Control.Except

/-!
# Conversions and their inverses

Of a scalar type a value is read as a datum exactly if the datum is written as the value.  A vector
may also be read from a list, so writing gives back what was read with vectors in the place of these
lists.  An option takes nil for itself, so what was written is read back only if nil is not also the
value of what it is an option of.  Apart from sizes above the largest long, which cannot be written,
this is the one way in which a datum can be lost.
-/

namespace MeteredLedger

/-! ## Words of other sizes -/

/-- A long within the range of the smaller word keeps its value there. -/
theorem toInt64_toInt32_of_le {n : Int64} (hmin : Int32.minValue.toInt ≤ n.toInt)
    (hmax : n.toInt ≤ Int32.maxValue.toInt) : n.toInt32.toInt64 = n := by
  refine Int64.toInt_inj.mp ?_
  rw [Int32.toInt_toInt64, Int64.toInt_toInt32]
  exact Int.bmod_eq_of_le hmin (Int.lt_add_one_of_le hmax)

/-- A size is at most the largest long exactly if it is not negative as a long. -/
theorem toNat_le_maxValue_iff (n : UInt64) :
    n.toNat ≤ Int64.maxValue.toInt.toNat ↔ 0 ≤ n.toInt64.toInt := by
  have hlt := n.toNat_lt
  have hint : n.toInt64.toInt =
      if 2 * n.toNat < 2 ^ 64 then (n.toNat : Int) else n.toNat - (2 ^ 64 : Nat) :=
    BitVec.toInt_eq_toNat_cond n.toBitVec
  have hmax : Int64.maxValue.toInt.toNat = 9223372036854775807 := rfl
  rw [hint, hmax]
  split <;> omega

namespace HostType

variable {t item : HostType} {v : Value}

/-! ## Scalars -/

def isScalar : HostType → Bool
  | vector _ | optional _ => false
  | _ => true

/-- A long is read from a long only. -/
theorem readLong_eq_ok_iff {n : Int64} : readLong v = .ok n ↔ v = .long n := by
  cases v <;> simp [readLong]

/-- A smaller word is read from a long within its range. -/
theorem read_int32_eq_ok_iff {n : Int32} : int32.read v = .ok n ↔ v = .long n.toInt64 := by
  rw [read, Except.bind_eq_ok_iff]
  constructor
  · rintro ⟨k, hk, h⟩
    rw [readLong_eq_ok_iff.mp hk]
    split at h
    · next hrange =>
        rw [← Except.ok.inj h, toInt64_toInt32_of_le hrange.1 hrange.2]
    · cases h
  · rintro rfl
    have hrange : Int32.minValue.toInt ≤ n.toInt64.toInt ∧
        n.toInt64.toInt ≤ Int32.maxValue.toInt := by
      rw [Int32.toInt_toInt64]
      exact ⟨n.minValue_le_toInt, n.toInt_le⟩
    exact ⟨n.toInt64, rfl, by rw [if_pos hrange, Int32.toInt32_toInt64]⟩

/-- A size is read from a long that is not negative. -/
theorem read_size_eq_ok_iff {n : UInt64} :
    size.read v = .ok n ↔ 0 ≤ n.toInt64.toInt ∧ v = .long n.toInt64 := by
  rw [read, Except.bind_eq_ok_iff]
  constructor
  · rintro ⟨k, hk, h⟩
    rw [readLong_eq_ok_iff.mp hk]
    split at h
    · next hnonneg =>
        rw [← Except.ok.inj h, Int64.toInt64_toUInt64]
        exact ⟨hnonneg, rfl⟩
    · cases h
  · rintro ⟨hnonneg, rfl⟩
    exact ⟨n.toInt64, rfl, by rw [if_pos hnonneg, UInt64.toUInt64_toInt64]⟩

/-- Sizes are read from the longs that are not negative. -/
theorem exists_read_size_iff (v : Value) :
    (∃ n, size.read v = .ok n) ↔ ∃ k : Int64, 0 ≤ k ∧ v = .long k := by
  constructor
  · rintro ⟨n, hread⟩
    obtain ⟨hnonneg, rfl⟩ := read_size_eq_ok_iff.mp hread
    exact ⟨n.toInt64, Int64.le_iff_toInt_le.mpr hnonneg, rfl⟩
  · rintro ⟨k, hnonneg, rfl⟩
    exact ⟨k.toUInt64, read_size_eq_ok_iff.mpr ⟨Int64.le_iff_toInt_le.mp hnonneg, rfl⟩⟩

/-- A size is written if it is at most the largest long. -/
theorem write_size_eq_ok_iff {n : UInt64} :
    size.write n = .ok v ↔ n.toNat ≤ Int64.maxValue.toInt.toNat ∧ v = .long n.toInt64 := by
  rw [write]
  by_cases hle : n.toNat ≤ Int64.maxValue.toInt.toNat
  · rw [if_pos hle, Except.ok.injEq, eq_comm, and_iff_right hle]
  · rw [if_neg hle]
    exact iff_of_false nofun fun h ↦ hle h.1

theorem exists_write_size_iff (n : UInt64) :
    (∃ v, size.write n = .ok v) ↔ n.toNat ≤ Int64.maxValue.toInt.toNat := by
  simp only [write_size_eq_ok_iff, exists_and_left, exists_eq, and_true]

/-- Reading and writing a scalar are the same relation. -/
theorem read_eq_ok_iff_write (ht : t.isScalar = true) {x : t.Data} :
    t.read v = .ok x ↔ t.write x = .ok v := by
  cases t with
  | value => rw [read, write, Except.ok.injEq, Except.ok.injEq, eq_comm]
  | unit => cases v <;> simp [read, write]
  | bool => cases v <;> simp [read, write, eq_comm]
  | int64 => rw [read, write, readLong_eq_ok_iff, Except.ok.injEq, eq_comm]
  | int32 => rw [read_int32_eq_ok_iff, write, Except.ok.injEq, eq_comm]
  | size => rw [read_size_eq_ok_iff, write_size_eq_ok_iff, toNat_le_maxValue_iff]
  | string => cases v <;> simp [read, write, eq_comm]
  | address => cases v <;> simp [read, write, eq_comm]
  | vector item => cases ht
  | optional item => cases ht

/-! ## Vectors and options -/

/-- A vector is read item by item, from a vector or from a list. -/
theorem read_vector_eq_ok_iff {xs : List item.Data} :
    (vector item).read v = .ok xs ↔
      ∃ vs, (v = .vector vs ∨ v = .list vs) ∧ List.Forall₂ (item.read · = .ok ·) vs xs := by
  simp only [← Except.mapM_eq_ok_iff]
  cases v <;> simp [read]

/-- A vector is written item by item. -/
theorem write_vector_eq_ok_iff {xs : List item.Data} :
    (vector item).write xs = .ok v ↔
      ∃ vs, v = .vector vs ∧ List.Forall₂ (item.write · = .ok ·) xs vs := by
  rw [write, Except.map_eq_ok_iff]
  simp only [Except.mapM_eq_ok_iff]
  constructor
  · rintro ⟨vs, hvs, rfl⟩
    exact ⟨vs, rfl, hvs⟩
  · rintro ⟨vs, rfl, hvs⟩
    exact ⟨vs, hvs, rfl⟩

/-- What is not nil is read as the type that the option is of. -/
theorem read_optional_of_ne_nil (hv : v ≠ .nil) :
    (optional item).read v = (item.read v).map some := by
  cases v with
  | nil => exact absurd rfl hv
  | _ => rfl

/-- Nothing is read from nil only. -/
theorem read_optional_eq_none_iff : (optional item).read v = .ok none ↔ v = .nil := by
  by_cases hv : v = .nil
  · subst hv
    exact iff_of_true rfl rfl
  · rw [read_optional_of_ne_nil hv, Except.map_eq_ok_iff]
    simp [hv]

/-- Something is read from what is not nil. -/
theorem read_optional_eq_some_iff {x : item.Data} :
    (optional item).read v = .ok (some x) ↔ v ≠ .nil ∧ item.read v = .ok x := by
  by_cases hv : v = .nil
  · subst hv
    exact iff_of_false nofun fun h ↦ h.1 rfl
  · rw [read_optional_of_ne_nil hv, Except.map_eq_ok_iff]
    simp [hv]

/-! ## What was written is read -/

/-- Nil is the value of a datum of the type. -/
def takesNil : HostType → Bool
  | value | unit | optional _ => true
  | _ => false

/-- There is no size in the type, and no option of a type that takes nil itself. -/
def isFaithful : HostType → Bool
  | size => false
  | vector item => item.isFaithful
  | optional item => item.isFaithful && !item.takesNil
  | _ => true

/-- The datum can be written, and what is written is read as the datum. -/
def Returns (t : HostType) (x : t.Data) : Prop := ∃ v, t.write x = .ok v ∧ t.read v = .ok x

/-- A type takes nil exactly if one of its data is written as nil. -/
theorem takesNil_iff : t.takesNil = true ↔ ∃ x, t.write x = .ok .nil := by
  constructor
  · intro h
    cases t with
    | value => exact ⟨.nil, rfl⟩
    | unit => exact ⟨(), rfl⟩
    | optional item => exact ⟨none, rfl⟩
    | _ => cases h
  · rintro ⟨x, hx⟩
    cases t with
    | value | unit | optional item => rfl
    | size =>
        obtain ⟨-, h⟩ := write_size_eq_ok_iff.mp hx
        cases h
    | vector item =>
        obtain ⟨vs, h, -⟩ := write_vector_eq_ok_iff.mp hx
        cases h
    | _ => cases hx

/-- A scalar that can be written comes back. -/
theorem returns_scalar_iff (ht : t.isScalar = true) {x : t.Data} :
    t.Returns x ↔ ∃ v, t.write x = .ok v := by
  simp only [Returns, read_eq_ok_iff_write ht, and_self]

/-- A vector comes back if all its items do. -/
theorem returns_vector_iff {xs : List item.Data} :
    (vector item).Returns xs ↔ ∀ x ∈ xs, item.Returns x := by
  have hitems : (vector item).Returns xs ↔ ∃ vs, List.Forall₂ (item.write · = .ok ·) xs vs ∧
      List.Forall₂ (item.read · = .ok ·) vs xs := by
    constructor
    · rintro ⟨v, hwrite, hread⟩
      obtain ⟨vs, rfl, hvs⟩ := write_vector_eq_ok_iff.mp hwrite
      exact ⟨vs, hvs, Except.mapM_eq_ok_iff.mp hread⟩
    · rintro ⟨vs, hwrite, hread⟩
      exact ⟨.vector vs, write_vector_eq_ok_iff.mpr ⟨vs, rfl, hwrite⟩,
        Except.mapM_eq_ok_iff.mpr hread⟩
  rw [hitems]
  clear hitems
  induction xs with
  | nil => exact iff_of_true ⟨[], .nil, .nil⟩ (List.forall_mem_nil _)
  | cons x xs ih =>
      rw [List.forall_mem_cons]
      constructor
      · rintro ⟨_, hwrites, hreads⟩
        obtain ⟨v, vs, hwrite, hrest, rfl⟩ := List.forall₂_cons_left_iff.mp hwrites
        obtain ⟨hread, hreads⟩ := List.forall₂_cons.mp hreads
        exact ⟨⟨v, hwrite, hread⟩, ih.mp ⟨vs, hrest, hreads⟩⟩
      · rintro ⟨⟨v, hwrite, hread⟩, hrest⟩
        obtain ⟨vs, hwrites, hreads⟩ := ih.mpr hrest
        exact ⟨v :: vs, .cons hwrite hwrites, .cons hread hreads⟩

theorem returns_none : (optional item).Returns none := ⟨.nil, rfl, rfl⟩

/-- In an option, a datum comes back if it does by itself and is not written as nil. -/
theorem returns_some_iff {x : item.Data} :
    (optional item).Returns (some x) ↔ item.Returns x ∧ item.write x ≠ .ok .nil := by
  constructor
  · rintro ⟨v, hwrite, hread⟩
    obtain ⟨hv, hread⟩ := read_optional_eq_some_iff.mp hread
    have hwrite : item.write x = .ok v := hwrite
    refine ⟨⟨v, hwrite, hread⟩, fun hnil ↦ hv ?_⟩
    exact Except.ok.inj (hwrite.symm.trans hnil)
  · rintro ⟨⟨v, hwrite, hread⟩, hnil⟩
    refine ⟨v, hwrite, read_optional_eq_some_iff.mpr ⟨?_, hread⟩⟩
    rintro rfl
    exact hnil hwrite

/-- The faithful types are those of which every datum returns. -/
theorem isFaithful_iff (t : HostType) : t.isFaithful = true ↔ ∀ x, t.Returns x := by
  induction t with
  | size =>
      -- The largest size is no long.
      refine iff_of_false nofun fun h ↦ ?_
      obtain ⟨v, hwrite, -⟩ := h (-1)
      cases hwrite
  | vector item ih =>
      simp only [returns_vector_iff, isFaithful, ih]
      exact ⟨fun h _ x _ ↦ h x, fun h x ↦ h [x] x List.mem_cons_self⟩
  | optional item ih =>
      rw [isFaithful, Bool.and_eq_true, ih, Bool.not_eq_true', ← Bool.not_eq_true, takesNil_iff]
      constructor
      · rintro ⟨hitem, hnil⟩ x
        cases x with
        | none => exact returns_none
        | some x => exact returns_some_iff.mpr ⟨hitem x, fun hx ↦ hnil ⟨x, hx⟩⟩
      · intro h
        refine ⟨fun x ↦ (returns_some_iff.mp (h (some x))).1, ?_⟩
        rintro ⟨x, hx⟩
        exact (returns_some_iff.mp (h (some x))).2 hx
  | _ => exact iff_of_true rfl fun x ↦ (returns_scalar_iff rfl).mpr ⟨_, rfl⟩

/-! ## What was read is written -/

/-- The value with a vector in the place of each list that is read as a vector. -/
def vectorized : HostType → Value → Value
  | vector item, .vector vs => .vector (vs.map item.vectorized)
  | vector item, .list vs => .vector (vs.map item.vectorized)
  | optional item, v => item.vectorized v
  | _, v => v

theorem vectorized_nil (t : HostType) : t.vectorized .nil = .nil := by
  induction t with
  | optional item ih => exact ih
  | _ => rfl

/-- A scalar has no lists to be turned into vectors. -/
theorem vectorized_scalar (ht : t.isScalar = true) (v : Value) : t.vectorized v = v := by
  cases t with
  | vector item | optional item => cases ht
  | _ => rfl

/-- What was read is written back, with vectors in the place of lists. -/
theorem write_of_read {x : t.Data} (h : t.read v = .ok x) : t.write x = .ok (t.vectorized v) := by
  induction t generalizing v with
  | vector item ih =>
      obtain ⟨vs, hv, hvs⟩ := read_vector_eq_ok_iff.mp h
      have hvectorized : (vector item).vectorized v = .vector (vs.map item.vectorized) := by
        rcases hv with rfl | rfl <;> rfl
      refine write_vector_eq_ok_iff.mpr ⟨_, hvectorized, ?_⟩
      rw [List.forall₂_map_right_iff]
      exact (hvs.imp fun _ _ hread ↦ ih hread).flip
  | optional item ih =>
      cases x with
      | none =>
          rw [read_optional_eq_none_iff.mp h, vectorized_nil]
          rfl
      | some x => exact ih (read_optional_eq_some_iff.mp h).2
  | _ =>
      rw [vectorized_scalar rfl]
      exact (read_eq_ok_iff_write rfl).mp h

/-- **Conversions go round.** The types without sizes in which no option is one of unit, of a value
or of another option are exactly those of which every datum can be written and is read back.  At
every type, a value that can be read is written again as the same value, with a vector in the place
of each list that was read as a vector.  A size can be written exactly if it is at most the largest
long, and is then read back, and sizes are read from the longs that are not negative. -/
theorem conversions_round_trip :
    (∀ t : HostType, t.isFaithful = true ↔ ∀ x, ∃ v, t.write x = .ok v ∧ t.read v = .ok x) ∧
    (∀ (t : HostType) (v : Value) (x : t.Data),
      t.read v = .ok x → t.write x = .ok (t.vectorized v)) ∧
    (∀ n : UInt64, ((∃ v, size.write n = .ok v) ↔ n.toNat ≤ Int64.maxValue.toInt.toNat) ∧
      ∀ v, size.write n = .ok v → size.read v = .ok n) ∧
    (∀ v : Value, (∃ n, size.read v = .ok n) ↔ ∃ k : Int64, 0 ≤ k ∧ v = .long k) := by
  refine ⟨isFaithful_iff, fun _ _ _ ↦ write_of_read, fun n ↦ ⟨exists_write_size_iff n, ?_⟩,
    exists_read_size_iff⟩
  exact fun v hwrite ↦ (read_eq_ok_iff_write rfl).mpr hwrite

/-- A list of an absent and a present list is read and written as vectors, and the largest size
returns.  An option of an option does not return when only the inner one is absent. -/
theorem conversions_round_trip_nested :
    let t := vector (optional (vector int32))
    let x : t.Data := [none, some [-2147483648, 7]]
    let v : Value := .list [.nil, .list [.long (-2147483648), .long 7]]
    t.isFaithful = true ∧ (∃ w, t.write x = .ok w ∧ t.read w = .ok x) ∧
    t.read v = .ok x ∧
    t.write x = .ok (.vector [.nil, .vector [.long (-2147483648), .long 7]]) ∧
    size.write 9223372036854775807 = .ok (.long Int64.maxValue) ∧
    size.read (.long Int64.maxValue) = .ok 9223372036854775807 ∧
    (optional (optional bool)).isFaithful = false ∧
    (optional (optional bool)).write (some none) = .ok .nil ∧
    (optional (optional bool)).read .nil = .ok none := by
  intro t x v
  obtain ⟨hfaithful, hwrite, hsize, -⟩ := conversions_round_trip
  have ht : t.isFaithful = true := rfl
  have hread : t.read v = .ok x := rfl
  have hlargest : size.write 9223372036854775807 = .ok (.long Int64.maxValue) := rfl
  exact ⟨ht, (hfaithful t).mp ht x, hread, hwrite t v x hread, hlargest,
    (hsize 9223372036854775807).2 _ hlargest, rfl, rfl, rfl⟩

end HostType

end MeteredLedger
