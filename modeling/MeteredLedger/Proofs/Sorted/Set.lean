import MeteredLedger.Proofs.Sorted.Map
import MeteredLedger.Sorted.Set

/-!
# Ascending sets

A set is a map that has nothing to say about its keys.  All operations agree with those of maps, so
the theory of ascending sets is that of ascending maps.
-/

namespace MeteredLedger.SortedSet

universe u

variable {α : Type u}

/-- The map with the elements as its keys. -/
def toMap (s : SortedSet α) : SortedMap α Unit := ⟨s.items.map (·, ())⟩

/-- The items of a set are the keys of its map. -/
theorem keys_toMap (s : SortedSet α) : s.toMap.keys = s.items := by
  simp [toMap, SortedMap.keys, Function.comp_def]

theorem size_toMap (s : SortedSet α) : s.toMap.size = s.size :=
  List.length_map _

/-- A set is no more than its map. -/
theorem toMap_inj {s t : SortedSet α} : s.toMap = t.toMap ↔ s = t := by
  refine ⟨fun h ↦ ?_, congrArg toMap⟩
  have hitems : s.items = t.items := by rw [← keys_toMap, h, keys_toMap]
  exact congrArg mk hitems

variable [Ord α] {s t : SortedSet α} {a b : α}

theorem ascending_toMap : s.toMap.Ascending ↔ s.Ascending :=
  List.pairwise_map

theorem contains_toMap (s : SortedSet α) (a : α) : s.toMap.contains a = s.contains a := by
  obtain ⟨bs⟩ := s
  change (SortedMap.findIn a (bs.map (·, ()))).isSome = bs.any fun b ↦ compare a b == .eq
  induction bs with
  | nil => rfl
  | cons b bs ih =>
      rw [List.map_cons, SortedMap.findIn, List.any_cons, ← ih]
      split
      · next heq => simp [heq]
      · next hne => simp [hne]

theorem toMap_erase (s : SortedSet α) (a : α) : (s.erase a).toMap = s.toMap.erase a := by
  obtain ⟨bs⟩ := s
  refine congrArg SortedMap.mk ?_
  change (eraseIn a bs).map (·, ()) = SortedMap.eraseIn a (bs.map (·, ()))
  induction bs with
  | nil => rfl
  | cons b bs ih =>
      rw [eraseIn, List.map_cons, SortedMap.eraseIn, ← ih]
      split <;> rfl

/-- At an item of the set there is the unit to be found. -/
theorem find?_toMap (s : SortedSet α) (a : α) :
    s.toMap.find? a = if s.contains a then some () else none := by
  rw [← contains_toMap, SortedMap.contains]
  cases s.toMap.find? a <;> rfl

theorem Ascending.empty : (empty : SortedSet α).Ascending := .nil

theorem Ascending.erase (h : s.Ascending) (a : α) : (s.erase a).Ascending := by
  rw [← ascending_toMap, toMap_erase]
  exact (ascending_toMap.mpr h).erase a

variable [Std.LawfulEqOrd α]

/-- To put an item in is to put in a key with the unit. -/
theorem toMap_insert (s : SortedSet α) (a : α) : (s.insert a).toMap = s.toMap.insert a () := by
  obtain ⟨bs⟩ := s
  refine congrArg SortedMap.mk ?_
  change (insertIn a bs).map (·, ()) = SortedMap.insertIn a () (bs.map (·, ()))
  induction bs with
  | nil => rfl
  | cons b bs ih =>
      rw [insertIn, List.map_cons, SortedMap.insertIn, ← ih]
      cases hab : compare a b with
      | lt => rfl
      | eq => rw [Std.compare_eq_iff_eq.mp hab, List.map_cons]
      | gt => rfl

theorem toMap_ofList (as : List α) : (ofList as).toMap = .ofList (as.map (·, ())) := by
  rw [ofList, SortedMap.ofList, List.foldl_map]
  refine (List.foldl_hom toMap fun s a ↦ ?_).symm
  exact (toMap_insert s a).symm

/-! ## Edits -/

theorem contains_insert_self (s : SortedSet α) (a : α) : (s.insert a).contains a = true := by
  rw [← contains_toMap, toMap_insert, SortedMap.contains, SortedMap.find?_insert_self]
  rfl

theorem contains_insert_of_ne (h : b ≠ a) (s : SortedSet α) :
    (s.insert a).contains b = s.contains b := by
  rw [← contains_toMap, toMap_insert, SortedMap.contains, SortedMap.find?_insert_of_ne h,
    ← contains_toMap, SortedMap.contains]

theorem contains_erase_of_ne (h : b ≠ a) (s : SortedSet α) :
    (s.erase a).contains b = s.contains b := by
  rw [← contains_toMap, toMap_erase, SortedMap.contains, SortedMap.find?_erase_of_ne h,
    ← contains_toMap, SortedMap.contains]

/-- An erasure takes away one item if it was there, and none otherwise. -/
theorem size_erase (s : SortedSet α) (a : α) :
    (s.erase a).size + (s.contains a).toNat = s.size := by
  rw [← size_toMap, toMap_erase, ← contains_toMap, ← size_toMap, SortedMap.size_erase]

theorem mem_items_iff : a ∈ s.items ↔ s.contains a = true := by
  rw [← keys_toMap, SortedMap.mem_keys_iff, contains_toMap]

/-- The set of a list has the elements of the list. -/
theorem contains_ofList (as : List α) (a : α) : (ofList as).contains a = true ↔ a ∈ as := by
  rw [← contains_toMap, toMap_ofList, SortedMap.contains, SortedMap.find?_ofList,
    SortedMap.findIn_isSome]
  simp

namespace Ascending

/-- What was erased is not in the set, since an item is there once at most. -/
theorem contains_erase_self (h : s.Ascending) (a : α) : (s.erase a).contains a = false := by
  rw [← contains_toMap, toMap_erase, SortedMap.contains,
    (ascending_toMap.mpr h).find?_erase_self]
  rfl

variable [Std.TransOrd α]

/-- An insertion finds the place of its item. -/
theorem insert (h : s.Ascending) (a : α) : (s.insert a).Ascending := by
  rw [← ascending_toMap, toMap_insert]
  exact (ascending_toMap.mpr h).insert a ()

/-- A set that is made of a list is ascending, whatever the order of the list. -/
theorem ofList (as : List α) : (ofList as).Ascending := by
  rw [← ascending_toMap, toMap_ofList]
  exact .ofList _

/-- An insertion adds one item if it was not there, and none otherwise. -/
theorem size_insert (h : s.Ascending) (a : α) :
    (s.insert a).size = s.size + (!s.contains a).toNat := by
  rw [← size_toMap, toMap_insert, (ascending_toMap.mpr h).size_insert, size_toMap, contains_toMap]

/-- Two sets with the same elements are equal. -/
theorem ext (hs : s.Ascending) (ht : t.Ascending) (h : ∀ a, s.contains a = t.contains a) :
    s = t := by
  refine toMap_inj.mp ((ascending_toMap.mpr hs).ext (ascending_toMap.mpr ht) fun a ↦ ?_)
  rw [find?_toMap, find?_toMap, h]

end Ascending

/-! ## Histories -/

/-- A set that lists exactly its elements, in order, and that edits change at their element
alone. -/
structure Canonical (s : SortedSet α) : Prop where
  items_ascending : s.items.Pairwise fun a b ↦ compare a b = .lt
  mem_items_iff (a : α) : a ∈ s.items ↔ s.contains a = true
  size_eq : s.size = s.items.length
  contains_insert_self (a : α) : (s.insert a).contains a = true
  contains_insert_of_ne (a b : α) : b ≠ a → (s.insert a).contains b = s.contains b
  size_insert (a : α) : (s.insert a).size = s.size + (!s.contains a).toNat
  contains_erase_self (a : α) : (s.erase a).contains a = false
  contains_erase_of_ne (a b : α) : b ≠ a → (s.erase a).contains b = s.contains b
  size_erase (a : α) : (s.erase a).size + (s.contains a).toNat = s.size

/-- An ascending set is in canonical form. -/
theorem Ascending.canonical [Std.TransOrd α] (h : s.Ascending) : s.Canonical where
  items_ascending := h
  mem_items_iff _ := SortedSet.mem_items_iff
  size_eq := rfl
  contains_insert_self := s.contains_insert_self
  contains_insert_of_ne _ _ hne := SortedSet.contains_insert_of_ne hne s
  size_insert := h.size_insert
  contains_erase_self := h.contains_erase_self
  contains_erase_of_ne _ _ hne := SortedSet.contains_erase_of_ne hne s
  size_erase := s.size_erase

/-- The ways to come by a set: anew from elements, or from another one. -/
inductive Edit (α : Type u) where
  | ofList (as : List α)
  | insert (a : α)
  | erase (a : α)

def Edit.apply (e : Edit α) (s : SortedSet α) : SortedSet α :=
  match e with
  | ofList as => .ofList as
  | insert a => s.insert a
  | erase a => s.erase a

/-- The set that a history of edits leaves. -/
def replay (h : List (Edit α)) : SortedSet α :=
  h.foldl (fun s e ↦ e.apply s) empty

section Replay

variable [Std.TransOrd α]

theorem Ascending.apply (h : s.Ascending) (e : Edit α) : (e.apply s).Ascending := by
  cases e with
  | ofList as => exact .ofList as
  | insert a => exact h.insert a
  | erase a => exact h.erase a

/-- After any history of edits a set is ascending. -/
theorem ascending_replay (h : List (Edit α)) : (replay h).Ascending := by
  have hrun (s : SortedSet α) (hs : s.Ascending) :
      (h.foldl (fun s e ↦ e.apply s) s).Ascending := by
    induction h generalizing s with
    | nil => exact hs
    | cons e h ih => exact ih _ (hs.apply e)
  exact hrun empty .empty

/-- Histories that end with the same elements end with the same set. -/
theorem replay_ext {g h : List (Edit α)}
    (hcontains : ∀ a, (replay g).contains a = (replay h).contains a) : replay g = replay h :=
  (ascending_replay g).ext (ascending_replay h) hcontains

end Replay

end MeteredLedger.SortedSet
