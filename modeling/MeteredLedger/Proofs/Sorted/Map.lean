import MeteredLedger.Sorted.Map

/-!
# Ascending maps

A map whose keys ascend is settled by what it has at each key: `Ascending.ext`.  Every edit keeps
the keys ascending, so that maps with different histories are the same list of entries as soon as
they answer every lookup alike.
-/

namespace MeteredLedger.SortedMap

universe u v

variable {κ : Type u} {ν : Type v}

theorem size_eq_length_keys (m : SortedMap κ ν) : m.size = m.keys.length :=
  (List.length_map _).symm

variable [Ord κ] {m n : SortedMap κ ν} {k l : κ} {v : ν} {es : List (κ × ν)}

theorem mem_insertIn {e : κ × ν} (h : e ∈ insertIn k v es) : e = (k, v) ∨ e ∈ es := by
  induction es with
  | nil => exact .inl (List.mem_singleton.mp h)
  | cons f es ih =>
      unfold insertIn at h
      split at h
      · exact List.mem_cons.mp h
      · exact (List.mem_cons.mp h).imp_right (List.mem_cons_of_mem _)
      · rcases List.mem_cons.mp h with rfl | h
        · exact .inr List.mem_cons_self
        · exact (ih h).imp_right (List.mem_cons_of_mem _)

/-- What is erased leaves the order of the rest alone. -/
theorem eraseIn_sublist (k : κ) (es : List (κ × ν)) : (eraseIn k es).Sublist es := by
  induction es with
  | nil => exact .slnil
  | cons e es ih =>
      unfold eraseIn
      split
      · exact .cons _ (List.Sublist.refl es)
      · exact ih.cons_cons e

/-- An insertion brings no key but its own. -/
theorem mem_keys_insert (h : l ∈ (m.insert k v).keys) : l = k ∨ l ∈ m.keys := by
  obtain ⟨e, he, rfl⟩ := List.mem_map.mp h
  rcases mem_insertIn he with rfl | he
  · exact .inl rfl
  · exact .inr (List.mem_map_of_mem he)

theorem mem_keys_of_mem_keys_erase (h : l ∈ (m.erase k).keys) : l ∈ m.keys :=
  ((eraseIn_sublist k m.entries).map _).subset h

theorem Ascending.empty : (empty : SortedMap κ ν).Ascending := .nil

theorem Ascending.keys (h : m.Ascending) : m.keys.Pairwise fun k l ↦ compare k l = .lt :=
  List.pairwise_map.mpr h

theorem Ascending.erase (h : m.Ascending) (k : κ) : (m.erase k).Ascending :=
  List.Pairwise.sublist (eraseIn_sublist k m.entries) h

variable [Std.LawfulEqOrd κ]

/-! ## Lookups -/

theorem findIn_cons_self : findIn k ((k, v) :: es) = some v := by
  rw [findIn, if_pos Std.ReflOrd.compare_self]

theorem findIn_cons_of_ne (h : k ≠ l) : findIn k ((l, v) :: es) = findIn k es := by
  rw [findIn, if_neg fun he ↦ h (Std.compare_eq_iff_eq.mp he)]

/-- Something is found exactly at the keys. -/
theorem findIn_isSome : (findIn k es).isSome ↔ k ∈ es.map (·.1) := by
  induction es with
  | nil => simp [findIn]
  | cons e es ih =>
      obtain ⟨l, w⟩ := e
      by_cases hkl : k = l
      · subst hkl
        simp [findIn_cons_self]
      · simp only [findIn_cons_of_ne hkl, ih, List.map_cons, List.mem_cons, hkl, false_or]

/-- A key is listed exactly where the map has something. -/
theorem mem_keys_iff : k ∈ m.keys ↔ m.contains k = true :=
  findIn_isSome.symm

theorem ne_of_compare_lt (h : compare k l = .lt) : k ≠ l := by
  rintro rfl
  rw [Std.ReflOrd.compare_self] at h
  cases h

theorem findIn_eq_none_of_lt (h : ∀ e ∈ es, compare k e.1 = .lt) : findIn k es = none := by
  induction es with
  | nil => rfl
  | cons e es ih =>
      obtain ⟨he, hes⟩ := List.forall_mem_cons.mp h
      rw [findIn_cons_of_ne (ne_of_compare_lt he), ih hes]

/-! ## Edits and lookups -/

theorem find?_insert_self (m : SortedMap κ ν) (k : κ) (v : ν) :
    (m.insert k v).find? k = some v := by
  obtain ⟨es⟩ := m
  change findIn k (insertIn k v es) = some v
  induction es with
  | nil => exact findIn_cons_self
  | cons e es ih =>
      obtain ⟨l, w⟩ := e
      unfold insertIn
      split
      · exact findIn_cons_self
      · exact findIn_cons_self
      · next hgt =>
          have hkl : k ≠ l := by
            rintro rfl
            rw [Std.ReflOrd.compare_self] at hgt
            cases hgt
          rw [findIn_cons_of_ne hkl, ih]

/-- An insertion does not show at other keys. -/
theorem find?_insert_of_ne (h : l ≠ k) (m : SortedMap κ ν) (v : ν) :
    (m.insert k v).find? l = m.find? l := by
  obtain ⟨es⟩ := m
  change findIn l (insertIn k v es) = findIn l es
  induction es with
  | nil => exact findIn_cons_of_ne h
  | cons e es ih =>
      obtain ⟨l', w⟩ := e
      unfold insertIn
      split
      · exact findIn_cons_of_ne h
      · next heq =>
          obtain rfl := Std.compare_eq_iff_eq.mp heq
          rw [findIn_cons_of_ne h, findIn_cons_of_ne h]
      · rw [findIn, findIn, ih]

/-- An erasure does not show at other keys. -/
theorem find?_erase_of_ne (h : l ≠ k) (m : SortedMap κ ν) : (m.erase k).find? l = m.find? l := by
  obtain ⟨es⟩ := m
  change findIn l (eraseIn k es) = findIn l es
  induction es with
  | nil => rfl
  | cons e es ih =>
      obtain ⟨l', w⟩ := e
      unfold eraseIn
      split
      · next heq =>
          obtain rfl := Std.compare_eq_iff_eq.mp heq
          rw [findIn_cons_of_ne h]
      · rw [findIn, findIn, ih]

/-- Erasing takes away one entry, if the key is there. -/
theorem size_erase (m : SortedMap κ ν) (k : κ) :
    (m.erase k).size + (m.contains k).toNat = m.size := by
  obtain ⟨es⟩ := m
  change (eraseIn k es).length + (findIn k es).isSome.toNat = es.length
  induction es with
  | nil => rfl
  | cons e es ih =>
      obtain ⟨l, w⟩ := e
      by_cases hkl : k = l
      · subst hkl
        rw [eraseIn, if_pos Std.ReflOrd.compare_self, findIn_cons_self]
        rfl
      · rw [eraseIn, if_neg fun he ↦ hkl (Std.compare_eq_iff_eq.mp he), findIn_cons_of_ne hkl,
          List.length_cons, List.length_cons, ← ih]
        omega

/-- The last pair with a key is the one that counts. -/
theorem find?_ofList (es : List (κ × ν)) (k : κ) : (ofList es).find? k = findIn k es.reverse := by
  rw [ofList, ← List.foldr_reverse]
  induction es.reverse with
  | nil => rfl
  | cons e fs ih =>
      obtain ⟨l, w⟩ := e
      by_cases hkl : k = l
      · subst hkl
        rw [List.foldr_cons, find?_insert_self, findIn_cons_self]
      · rw [List.foldr_cons, find?_insert_of_ne hkl, ih, findIn_cons_of_ne hkl]

/-! ## Ascending maps -/

namespace Ascending

/-- The entries are what the lookups find. -/
theorem mem_entries_iff (h : m.Ascending) : (k, v) ∈ m.entries ↔ m.find? k = some v := by
  obtain ⟨es⟩ := m
  change (k, v) ∈ es ↔ findIn k es = some v
  induction es with
  | nil => simp [findIn]
  | cons e es ih =>
      obtain ⟨l, w⟩ := e
      obtain ⟨hl, hes⟩ := List.pairwise_cons.mp h
      by_cases hkl : k = l
      · subst hkl
        have hnot : (k, v) ∉ es := fun hmem ↦ ne_of_compare_lt (hl _ hmem) rfl
        simp [findIn_cons_self, hnot, eq_comm]
      · rw [findIn_cons_of_ne hkl, ← ih hes]
        simp [hkl]

/-- What was erased is not found, since a key is there once at most. -/
theorem find?_erase_self (h : m.Ascending) (k : κ) : (m.erase k).find? k = none := by
  obtain ⟨es⟩ := m
  change findIn k (eraseIn k es) = none
  induction es with
  | nil => rfl
  | cons e es ih =>
      obtain ⟨l, w⟩ := e
      obtain ⟨hl, hes⟩ := List.pairwise_cons.mp h
      unfold eraseIn
      split
      · next heq =>
          obtain rfl := Std.compare_eq_iff_eq.mp heq
          exact findIn_eq_none_of_lt hl
      · next hne => rw [findIn, if_neg hne, ih hes]

variable [Std.TransOrd κ]

/-- An insertion finds the place of its key. -/
theorem insert (h : m.Ascending) (k : κ) (v : ν) : (m.insert k v).Ascending := by
  obtain ⟨es⟩ := m
  change (insertIn k v es).Pairwise fun e f ↦ compare e.1 f.1 = .lt
  induction es with
  | nil => exact List.pairwise_singleton _ _
  | cons e es ih =>
      obtain ⟨l, w⟩ := e
      obtain ⟨hl, hes⟩ := List.pairwise_cons.mp h
      unfold insertIn
      split
      · next hlt =>
          refine List.pairwise_cons.mpr ⟨List.forall_mem_cons.mpr ⟨hlt, fun f hf ↦ ?_⟩, h⟩
          exact Std.TransCmp.lt_trans hlt (hl f hf)
      · next heq =>
          obtain rfl := Std.compare_eq_iff_eq.mp heq
          exact List.pairwise_cons.mpr ⟨hl, hes⟩
      · next hgt =>
          refine List.pairwise_cons.mpr ⟨fun f hf ↦ ?_, ih hes⟩
          rcases mem_insertIn hf with rfl | hf
          · exact Std.OrientedCmp.gt_iff_lt.mp hgt
          · exact hl f hf

/-- A map that is made of a list is ascending, whatever the order of the list. -/
theorem ofList (es : List (κ × ν)) : (ofList es).Ascending := by
  rw [SortedMap.ofList, ← List.foldr_reverse]
  induction es.reverse with
  | nil => exact .empty
  | cons e fs ih => exact ih.insert e.1 e.2

/-- Inserting adds one entry, unless the key is there. -/
theorem size_insert (h : m.Ascending) (k : κ) (v : ν) :
    (m.insert k v).size = m.size + (!m.contains k).toNat := by
  obtain ⟨es⟩ := m
  change (insertIn k v es).length = es.length + (!(findIn k es).isSome).toNat
  induction es with
  | nil => rfl
  | cons e es ih =>
      obtain ⟨l, w⟩ := e
      obtain ⟨hl, hes⟩ := List.pairwise_cons.mp h
      unfold insertIn
      split
      · next hlt =>
          have hnone : findIn k ((l, w) :: es) = none := findIn_eq_none_of_lt
            (List.forall_mem_cons.mpr ⟨hlt, fun f hf ↦ Std.TransCmp.lt_trans hlt (hl f hf)⟩)
          rw [hnone]
          rfl
      · next heq =>
          obtain rfl := Std.compare_eq_iff_eq.mp heq
          rw [findIn_cons_self]
          rfl
      · next hgt =>
          have hkl : k ≠ l := (ne_of_compare_lt (Std.OrientedCmp.gt_iff_lt.mp hgt)).symm
          rw [findIn_cons_of_ne hkl, List.length_cons, List.length_cons, ih hes]
          omega

/-- Two maps that answer every lookup alike are equal. -/
theorem ext (hm : m.Ascending) (hn : n.Ascending) (h : ∀ k, m.find? k = n.find? k) : m = n := by
  have hmem (e : κ × ν) : e ∈ m.entries ↔ e ∈ n.entries := by
    rw [hm.mem_entries_iff, hn.mem_entries_iff, h]
  have hnodup {m : SortedMap κ ν} (hm : m.Ascending) : m.entries.Nodup :=
    List.Pairwise.imp (fun hlt heq ↦ ne_of_compare_lt hlt (congrArg Prod.fst heq)) hm
  have hperm : m.entries.Perm n.entries :=
    (List.perm_ext_iff_of_nodup (hnodup hm) (hnodup hn)).mpr hmem
  have heq : m.entries = n.entries := by
    refine hperm.eq_of_pairwise (fun e f _ _ hef hfe ↦ ?_) hm hn
    exact absurd rfl (ne_of_compare_lt (Std.TransCmp.lt_trans hef hfe))
  exact congrArg mk heq

end Ascending

/-! ## Histories -/

/-- A map that lists exactly what it has, in order, and that edits change at their key alone. -/
structure Canonical (m : SortedMap κ ν) : Prop where
  keys_ascending : m.keys.Pairwise fun k l ↦ compare k l = .lt
  mem_keys_iff (k : κ) : k ∈ m.keys ↔ m.contains k = true
  mem_entries_iff (k : κ) (v : ν) : (k, v) ∈ m.entries ↔ m.find? k = some v
  size_eq : m.size = m.keys.length
  find?_insert_self (k : κ) (v : ν) : (m.insert k v).find? k = some v
  find?_insert_of_ne (k : κ) (v : ν) (l : κ) : l ≠ k → (m.insert k v).find? l = m.find? l
  size_insert (k : κ) (v : ν) : (m.insert k v).size = m.size + (!m.contains k).toNat
  find?_erase_self (k : κ) : (m.erase k).find? k = none
  find?_erase_of_ne (k l : κ) : l ≠ k → (m.erase k).find? l = m.find? l
  size_erase (k : κ) : (m.erase k).size + (m.contains k).toNat = m.size

/-- An ascending map is in canonical form. -/
theorem Ascending.canonical [Std.TransOrd κ] (h : m.Ascending) : m.Canonical where
  keys_ascending := h.keys
  mem_keys_iff _ := SortedMap.mem_keys_iff
  mem_entries_iff _ _ := h.mem_entries_iff
  size_eq := m.size_eq_length_keys
  find?_insert_self := m.find?_insert_self
  find?_insert_of_ne _ v _ hne := SortedMap.find?_insert_of_ne hne m v
  size_insert := h.size_insert
  find?_erase_self := h.find?_erase_self
  find?_erase_of_ne _ _ hne := SortedMap.find?_erase_of_ne hne m
  size_erase := m.size_erase

/-- The ways to come by a map: anew from pairs, or from another one. -/
inductive Edit (κ : Type u) (ν : Type v) where
  | ofList (es : List (κ × ν))
  | insert (k : κ) (v : ν)
  | erase (k : κ)

def Edit.apply (e : Edit κ ν) (m : SortedMap κ ν) : SortedMap κ ν :=
  match e with
  | ofList es => .ofList es
  | insert k v => m.insert k v
  | erase k => m.erase k

/-- The map that a history of edits leaves. -/
def replay (h : List (Edit κ ν)) : SortedMap κ ν :=
  h.foldl (fun m e ↦ e.apply m) empty

section Replay

variable [Std.TransOrd κ]

theorem Ascending.apply (h : m.Ascending) (e : Edit κ ν) : (e.apply m).Ascending := by
  cases e with
  | ofList es => exact .ofList es
  | insert k v => exact h.insert k v
  | erase k => exact h.erase k

/-- After any history of edits a map is ascending. -/
theorem ascending_replay (h : List (Edit κ ν)) : (replay h).Ascending := by
  have hrun (m : SortedMap κ ν) (hm : m.Ascending) :
      (h.foldl (fun m e ↦ e.apply m) m).Ascending := by
    induction h generalizing m with
    | nil => exact hm
    | cons e h ih => exact ih _ (hm.apply e)
  exact hrun empty .empty

/-- Histories that end with the same answers end with the same map. -/
theorem replay_ext {g h : List (Edit κ ν)}
    (hfind : ∀ k, (replay g).find? k = (replay h).find? k) : replay g = replay h :=
  (ascending_replay g).ext (ascending_replay h) hfind

end Replay

end MeteredLedger.SortedMap
