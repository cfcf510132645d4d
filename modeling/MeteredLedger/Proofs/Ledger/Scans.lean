import Mathlib.Data.Set.List
import MeteredLedger.Proofs.Ledger.Holdings
import MeteredLedger.Proofs.Value.Precedence
import MeteredLedger.Value.BlobMap

/-!
# Scans find what filters find

A scan skips the keys below its start and stops at the first key that it does not want.  In an
ascending map that is the same as looking at every entry, because what is skipped comes before all
the rest and what is wanted stands together.  For the keys with a common beginning the second fact
is one about byte order: what lies between the beginning and a key that begins with it begins with
it too.  The keys of holdings are in the order of the addresses, so ranges of these are scans as
well.
-/

namespace MeteredLedger

/-! ## Cuts of a list -/

section Cuts

variable {α : Type*} {l : List α} {p q : α → Bool}

/-- Where a property holds on an initial part of a list, taking that part filters the list. -/
theorem takeWhile_eq_filter (h : l.Pairwise fun a b ↦ p b = true → p a = true) :
    l.takeWhile p = l.filter p := by
  induction l with
  | nil => rfl
  | cons a l ih =>
      obtain ⟨ha, hl⟩ := List.pairwise_cons.mp h
      cases hpa : p a with
      | true => rw [List.takeWhile_cons_of_pos hpa, List.filter_cons_of_pos hpa, ih hl]
      | false =>
          have hnone : l.filter p = [] := by
            refine List.filter_eq_nil_iff.mpr fun b hb hpb ↦ ?_
            rw [ha b hb hpb] at hpa
            cases hpa
          rw [List.takeWhile_cons_of_neg (by simp [hpa]), List.filter_cons_of_neg (by simp [hpa]),
            hnone]

/-- And dropping that part filters the list by the opposite. -/
theorem dropWhile_eq_filter_not (h : l.Pairwise fun a b ↦ p b = true → p a = true) :
    l.dropWhile p = l.filter fun a ↦ !p a := by
  induction l with
  | nil => rfl
  | cons a l ih =>
      obtain ⟨ha, hl⟩ := List.pairwise_cons.mp h
      cases hpa : p a with
      | true =>
          rw [List.dropWhile_cons_of_pos hpa, List.filter_cons_of_neg (by simp [hpa]), ih hl]
      | false =>
          have hall : ∀ b ∈ a :: l, (!p b) = true := by
            refine List.forall_mem_cons.mpr ⟨by rw [hpa]; rfl, fun b hb ↦ ?_⟩
            cases hpb : p b with
            | true => rw [ha b hb hpb] at hpa; cases hpa
            | false => rfl
          rw [List.dropWhile_cons_of_neg (by simp [hpa]), List.filter_eq_self.mpr hall]

/-- Skipping what comes first and taking what comes next is filtering by both. -/
theorem takeWhile_dropWhile_eq_filter (hp : l.Pairwise fun a b ↦ p b = true → p a = true)
    (hq : l.Pairwise fun a b ↦ p a = false → q b = true → q a = true) :
    (l.dropWhile p).takeWhile q = l.filter fun a ↦ !p a && q a := by
  rw [dropWhile_eq_filter_not hp, takeWhile_eq_filter, List.filter_filter]
  · exact List.filter_congr fun a _ ↦ Bool.and_comm ..
  · refine List.pairwise_filter.mpr (hq.imp fun {a b} hab ha _ ↦ hab ?_)
    simpa using ha

end Cuts

/-! ## Common beginnings -/

namespace Bytes

variable {start s t : List UInt8}

/-- Nothing that begins with a text comes before it. -/
theorem not_lt_of_isPrefix (h : start <+: s) : ¬ s < start := by
  obtain ⟨rest, rfl⟩ := h
  induction start with
  | nil => exact List.not_lt_nil _
  | cons a start ih =>
      rw [List.cons_append, List.cons_lt_cons_iff]
      rintro (haa | ⟨-, hlt⟩)
      · exact UInt8.lt_irrefl a haa
      · exact ih hlt

/-- What lies between a beginning and a string that begins with it begins with it too. -/
theorem isPrefix_of_between (hs : ¬ s < start) (hst : s < t) (ht : start <+: t) :
    start <+: s := by
  obtain ⟨rest, rfl⟩ := ht
  induction start generalizing s with
  | nil => exact List.nil_prefix
  | cons a start ih =>
      cases s with
      | nil => exact absurd (List.nil_lt_cons a start) hs
      | cons c s =>
          rw [List.cons_append, List.cons_lt_cons_iff] at hst
          rw [List.cons_lt_cons_iff] at hs
          rcases hst with hca | ⟨rfl, hst⟩
          · exact absurd (.inl hca) hs
          · exact (List.prefix_cons_inj c).mpr (ih (fun h ↦ hs (.inr ⟨rfl, h⟩)) hst)

end Bytes

theorem Blob.startsWith_iff {k start : Blob} :
    k.startsWith start = true ↔ start.bytes <+: k.bytes :=
  List.isPrefixOf_iff_prefix

/-! ## Ranges -/

namespace SortedMap

section Ranges

variable {κ : Type*} {ν : Type*} [Ord κ] [Std.TransOrd κ] {m : SortedMap κ ν}

/-- The keys below a bound come first. -/
theorem Ascending.below_initial (h : m.Ascending) (bound : κ) :
    m.entries.Pairwise fun e f ↦
      (compare f.1 bound == .lt) = true → (compare e.1 bound == .lt) = true := by
  refine List.Pairwise.imp (fun {e f} hef hf ↦ ?_) h
  exact beq_iff_eq.mpr (Std.TransCmp.lt_trans hef (beq_iff_eq.mp hf))

/-- A range of an ascending map is a filter of its entries. -/
theorem Ascending.range_eq_filter (h : m.Ascending) (lo hi : κ) :
    m.range lo hi =
      m.entries.filter fun e ↦ !(compare e.1 lo == .lt) && (compare e.1 hi == .lt) := by
  refine takeWhile_dropWhile_eq_filter (h.below_initial lo) ?_
  refine (h.below_initial hi).imp ?_
  intro e f hef _
  exact hef

end Ranges

/-! ## Maps of blobs -/

variable {ν : Type} {m : SortedMap Blob ν}

/-- A scan by the start of keys is a filter of the entries. -/
theorem Ascending.startingWith_eq_filter (h : m.Ascending) (start : Blob) :
    m.startingWith start = m.entries.filter (·.1.startsWith start) := by
  have hblock : m.entries.Pairwise fun e f ↦ (compare e.1 start == .lt) = false →
      f.1.startsWith start = true → e.1.startsWith start = true := by
    refine List.Pairwise.imp (fun {e f} hef he hf ↦ ?_) h
    rw [beq_eq_false_iff_ne, ne_eq, Value.compare_blob_eq_lt_iff] at he
    have hlt : e.1.bytes < f.1.bytes := Value.compare_blob_eq_lt_iff.mp hef
    exact Blob.startsWith_iff.mpr (Bytes.isPrefix_of_between he hlt (Blob.startsWith_iff.mp hf))
  rw [startingWith, takeWhile_dropWhile_eq_filter (h.below_initial start) hblock]
  -- A key that begins with the start is not below it, so the first condition can go.
  refine List.filter_congr fun e _ ↦ ?_
  cases hs : e.1.startsWith start with
  | false => rw [Bool.and_false]
  | true =>
      have hnot : ¬ compare e.1 start = .lt := fun hlt ↦
        Bytes.not_lt_of_isPrefix (Blob.startsWith_iff.mp hs) (Value.compare_blob_eq_lt_iff.mp hlt)
      rw [beq_eq_false_iff_ne.mpr hnot]
      rfl

/-- The list has exactly the entries of the map whose keys are wanted, in ascending order. -/
structure Selects (wanted : Blob → Prop) (m : SortedMap Blob ν) (es : List (Blob × ν)) : Prop where
  mem_iff : ∀ e, e ∈ es ↔ e ∈ m.entries ∧ wanted e.1
  ascending : es.Pairwise fun e f ↦ e.1.bytes < f.1.bytes

/-- What a filter keeps of an ascending map is a selection. -/
theorem Ascending.selects_filter (h : m.Ascending) {wanted : Blob → Prop} {p : Blob × ν → Bool}
    (hp : ∀ e, p e = true ↔ wanted e.1) : Selects wanted m (m.entries.filter p) where
  mem_iff e := by rw [List.mem_filter, hp]
  ascending := by
    refine (List.Pairwise.imp (fun hef ↦ ?_) h).filter p
    exact Value.compare_blob_eq_lt_iff.mp hef

/-- A scan by the start of keys gives the entries with such keys, in order. -/
theorem Ascending.selects_startingWith (h : m.Ascending) (start : Blob) :
    Selects (fun k ↦ start.bytes <+: k.bytes) m (m.startingWith start) := by
  rw [h.startingWith_eq_filter]
  exact h.selects_filter fun _ ↦ Blob.startsWith_iff

/-- A range gives the entries with keys between its bounds, in order. -/
theorem Ascending.selects_range (h : m.Ascending) (lo hi : Blob) :
    Selects (fun k ↦ ¬ k.bytes < lo.bytes ∧ k.bytes < hi.bytes) m (m.range lo hi) := by
  rw [h.range_eq_filter]
  refine h.selects_filter fun e ↦ ?_
  rw [Bool.and_eq_true, Bool.not_eq_true', beq_eq_false_iff_ne, beq_iff_eq, ne_eq,
    Value.compare_blob_eq_lt_iff, Value.compare_blob_eq_lt_iff]

/-- A range that ends where it starts, or before, has nothing. -/
theorem Ascending.range_eq_nil (h : m.Ascending) {lo hi : Blob} (hle : ¬ lo.bytes < hi.bytes) :
    m.range lo hi = [] := by
  refine List.eq_nil_iff_forall_not_mem.mpr fun e he ↦ ?_
  obtain ⟨-, hlo, hhi⟩ := ((h.selects_range lo hi).mem_iff e).mp he
  exact hle (List.lt_of_le_of_lt hlo hhi)

end SortedMap

/-! ## Holdings -/

/-- The keys of holdings are ordered as their owners are. -/
theorem Address.toBlob_lt_iff {a b : Address} :
    a.toBlob.bytes < b.toBlob.bytes ↔ a.toNat < b.toNat :=
  Bytes.ofUInt64_lt_iff

/-- The key of a holding is the blob of its owner. -/
def holdingEntry (h : Address × Value) : Blob × Value := (h.1.toBlob, h.2)

/-- All entries of sound holdings are for owners. -/
theorem SoundHoldings.exists_owners {m : BlobMap} (h : SoundHoldings m) {es : List (Blob × Value)}
    (hes : ∀ e ∈ es, e ∈ m.entries) :
    ∃ owned : List (Address × Value), es = owned.map holdingEntry := by
  have hrange : es ∈ Set.range (List.map holdingEntry) := by
    rw [Set.range_list_map]
    intro e he
    obtain ⟨o, ho, -⟩ := h.key e.1 (List.mem_map_of_mem (hes e he))
    exact ⟨(o, e.2), Prod.ext ho.symm rfl⟩
  obtain ⟨owned, howned⟩ := hrange
  exact ⟨owned, howned.symm⟩

/-- An entry is for one owner only. -/
theorem mem_map_holdingEntry {owned : List (Address × Value)} {o : Address} {v : Value} :
    (o.toBlob, v) ∈ owned.map holdingEntry ↔ (o, v) ∈ owned := by
  constructor
  · intro h
    obtain ⟨⟨o', v'⟩, hmem, heq⟩ := List.mem_map.mp h
    obtain ⟨ho, rfl⟩ := Prod.mk.inj heq
    obtain rfl := Address.toBlob_inj.mp ho
    exact hmem
  · exact fun h ↦ List.mem_map.mpr ⟨(o, v), h, rfl⟩

/-- The holdings in a range of keys, with their owners. -/
structure Account.Owned (x : Account Value) (a b : Address) (owned : List (Address × Value)) :
    Prop where
  range_eq : x.holdings.range a.toBlob b.toBlob = owned.map holdingEntry
  ascending : owned.Pairwise fun g h ↦ g.1.toNat < h.1.toNat
  mem_iff : ∀ o v, (o, v) ∈ owned ↔
    x.holding? o = some v ∧ a.toNat ≤ o.toNat ∧ o.toNat < b.toNat

/-- In an account that has been built, a range of owners gives their holdings. -/
theorem Account.Built.exists_owned {x : Account Value} (hx : x.Built) (a b : Address) :
    ∃ owned, x.Owned a b owned := by
  have hsound := hx.soundHoldings
  have hrange := hsound.ascending.selects_range a.toBlob b.toBlob
  obtain ⟨owned, heq⟩ := hsound.exists_owners fun e he ↦ ((hrange.mem_iff e).mp he).1
  refine ⟨owned, heq, ?_, fun o v ↦ ?_⟩
  · have hascending := hrange.ascending
    rw [heq, List.pairwise_map] at hascending
    exact hascending.imp Address.toBlob_lt_iff.mp
  · rw [← mem_map_holdingEntry, ← heq, hrange.mem_iff, hsound.ascending.mem_entries_iff,
      Address.toBlob_lt_iff, Address.toBlob_lt_iff, not_lt]
    rfl

/-! ## All scans -/

/-- Every map of blobs that edits can leave is ascending, and scans of an ascending map are filters
of its entries: by a common beginning, and by both bounds of a range, which is empty where these are
inverted.  Addresses are in the order of their blobs, so the range between two of them has what an
account holds for the owners between them. -/
theorem scans_eq_filters {ν : Type} :
    (∀ h : List (SortedMap.Edit Blob ν), (SortedMap.replay h).Ascending) ∧
    (∀ m : SortedMap Blob ν, m.Ascending →
      (∀ start : Blob, m.startingWith start = m.entries.filter (·.1.startsWith start) ∧
        SortedMap.Selects (fun k ↦ start.bytes <+: k.bytes) m (m.startingWith start)) ∧
      (∀ lo hi : Blob,
        m.range lo hi =
          m.entries.filter (fun e ↦ !(compare e.1 lo == .lt) && (compare e.1 hi == .lt)) ∧
        SortedMap.Selects (fun k ↦ ¬ k.bytes < lo.bytes ∧ k.bytes < hi.bytes) m (m.range lo hi) ∧
        (¬ lo.bytes < hi.bytes → m.range lo hi = []))) ∧
    (∀ a b : Address, a.toNat < b.toNat ↔ a.toBlob.bytes < b.toBlob.bytes) ∧
    (∀ x : Account Value, x.Built → ∀ a b : Address, ∃ owned, x.Owned a b owned) := by
  refine ⟨SortedMap.ascending_replay, fun m hm ↦ ⟨fun start ↦ ?_, fun lo hi ↦ ?_⟩, fun a b ↦ ?_,
    fun x hx a b ↦ hx.exists_owned a b⟩
  · exact ⟨hm.startingWith_eq_filter start, hm.selects_startingWith start⟩
  · exact ⟨hm.range_eq_filter lo hi, hm.selects_range lo hi, hm.range_eq_nil⟩
  · exact Address.toBlob_lt_iff.symm

/-- Keys that are beginnings of each other, at the edge of the bytes, and an owner between two
others. -/
theorem scans_eq_filters_nested_keys :
    let m : SortedMap Blob Nat := .ofList
      [(⟨[255, 255]⟩, 0), (⟨[255]⟩, 1), (⟨[254, 255]⟩, 2), (⟨[]⟩, 3), (⟨[255, 0]⟩, 4)]
    let x := ((Account.ofBalance 0).setHolding ⟨256⟩ (.bool true)).setHolding ⟨255⟩ (.long 1)
    m.startingWith ⟨[255]⟩ = [(⟨[255]⟩, 1), (⟨[255, 0]⟩, 4), (⟨[255, 255]⟩, 0)] ∧
      m.range ⟨[255]⟩ ⟨[254]⟩ = [] ∧ ∃ owned, x.Owned ⟨255⟩ ⟨257⟩ owned := by
  intro m x
  have hm : m.Ascending := .ofList _
  have hx : x.Built := .setHolding _ _ (.setHolding _ _ (.ofBalance 0))
  obtain ⟨-, hscan, -, howned⟩ := @scans_eq_filters Nat
  refine ⟨((hscan m hm).1 ⟨[255]⟩).1.trans (by decide), ?_, howned x hx _ _⟩
  exact ((hscan m hm).2 ⟨[255]⟩ ⟨[254]⟩).2.2 (by decide)

end MeteredLedger
