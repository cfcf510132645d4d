import MeteredLedger.Proofs.Sorted.Set
import MeteredLedger.Proofs.Value.Order
import MeteredLedger.Value.ContentHash
import MeteredLedger.Value.Edn

/-!
# Collections of values

The order of values is total, so maps, sets and blob-maps of values are canonical: whatever the
history of a collection, its bytes, its text and its hash are settled by what it has.
-/

namespace MeteredLedger

/-- The values are equal, and so are their bytes, their texts and their hashes. -/
structure Value.SameForm (v w : Value) : Prop where
  eq : v = w
  encode_eq : v.encode = w.encode
  edn_eq : v.edn = w.edn
  contentHash_eq : v.contentHash = w.contentHash

theorem Value.SameForm.of_eq {v w : Value} (h : v = w) : v.SameForm w :=
  ⟨h, congrArg encode h, congrArg edn h, congrArg contentHash h⟩

/-- Collections are canonical after every history of edits, and histories that end with the same
content end with the same collection. -/
theorem collections_canonical :
    ((∀ h : List (SortedMap.Edit Value Value), (SortedMap.replay h).Canonical) ∧
      (∀ (es : List (Value × Value)) (k : Value),
        (SortedMap.ofList es).find? k = SortedMap.findIn k es.reverse) ∧
      ∀ g h : List (SortedMap.Edit Value Value),
        (∀ k, (SortedMap.replay g).find? k = (SortedMap.replay h).find? k) →
          Value.SameForm (.map (.replay g)) (.map (.replay h))) ∧
    ((∀ h : List (SortedMap.Edit Blob Value), (SortedMap.replay h).Canonical) ∧
      (∀ (es : List (Blob × Value)) (k : Blob),
        (SortedMap.ofList es).find? k = SortedMap.findIn k es.reverse) ∧
      ∀ g h : List (SortedMap.Edit Blob Value),
        (∀ k, (SortedMap.replay g).find? k = (SortedMap.replay h).find? k) →
          Value.SameForm (.blobMap (.replay g)) (.blobMap (.replay h))) ∧
    (∀ h : List (SortedSet.Edit Value), (SortedSet.replay h).Canonical) ∧
      (∀ (vs : List Value) (v : Value), (SortedSet.ofList vs).contains v = true ↔ v ∈ vs) ∧
      ∀ g h : List (SortedSet.Edit Value),
        (∀ v, (SortedSet.replay g).contains v = (SortedSet.replay h).contains v) →
          Value.SameForm (.set (.replay g)) (.set (.replay h)) := by
  refine ⟨⟨?_, ?_, ?_⟩, ⟨?_, ?_, ?_⟩, ?_, ?_, ?_⟩
  · exact fun h ↦ (SortedMap.ascending_replay h).canonical
  · exact SortedMap.find?_ofList
  · exact fun g h hfind ↦ .of_eq (congrArg Value.map (SortedMap.replay_ext hfind))
  · exact fun h ↦ (SortedMap.ascending_replay h).canonical
  · exact SortedMap.find?_ofList
  · exact fun g h hfind ↦ .of_eq (congrArg Value.blobMap (SortedMap.replay_ext hfind))
  · exact fun h ↦ (SortedSet.ascending_replay h).canonical
  · exact SortedSet.contains_ofList
  · exact fun g h hcontains ↦ .of_eq (congrArg Value.set (SortedSet.replay_ext hcontains))

/-- Overwriting, erasing and adding again come to the same as building the collection at once. -/
theorem collections_canonical_rebuilt :
    let a : Value := .set ⟨[.map ⟨[(.nil, .long 4)]⟩]⟩
    let b : Value := .list [.long 1, .nil]
    let g : List (SortedMap.Edit Value Value) :=
      [.insert a .nil, .insert b (.long 1), .erase a, .insert b .nil, .insert a (.long 7)]
    let h : List (SortedMap.Edit Value Value) := [.ofList [(a, .long 3), (b, .nil), (a, .long 7)]]
    let g' : List (SortedSet.Edit Value) := [.insert a, .insert b, .erase a, .insert a]
    let h' : List (SortedSet.Edit Value) := [.erase a, .ofList [a, b, a]]
    ((∀ k, (SortedMap.replay g).find? k = (SortedMap.replay h).find? k) ∧
      Value.SameForm (.map (.replay g)) (.map (.replay h)) ∧ (SortedMap.replay g).keys = [b, a]) ∧
    (∀ v, (SortedSet.replay g').contains v = (SortedSet.replay h').contains v) ∧
      Value.SameForm (.set (.replay g')) (.set (.replay h')) := by
  intro a b g h g' h'
  have hfind (k : Value) : (SortedMap.replay g).find? k = (SortedMap.replay h).find? k := rfl
  have hcontains (v : Value) :
      (SortedSet.replay g').contains v = (SortedSet.replay h').contains v := rfl
  obtain ⟨⟨-, -, hmap⟩, -, -, -, hset⟩ := collections_canonical
  exact ⟨⟨hfind, hmap g h hfind, rfl⟩, hcontains, hset g' h' hcontains⟩

end MeteredLedger
