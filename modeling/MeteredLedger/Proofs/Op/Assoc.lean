import Mathlib.Data.List.Induction
import MeteredLedger.Op.Builtins
import MeteredLedger.Proofs.Sorted.Map
import MeteredLedger.Proofs.Value.Order

/-!
# Writing into collections

`assoc` puts pairs of keys and values into a collection, one after another, and gives up at the
first key that does not fit.  Which keys fit does not change on the way: a sequence keeps its
length, and nil becomes a map, which takes any key as well.  So whether the call succeeds can be
seen from the collection that it was given, and where it does, the last pair with a key decides.
-/

namespace MeteredLedger

open Builtin

/-! ## What was given last -/

/-- The value of the last pair whose key is wanted. -/
def lastWrite (wanted : Value → Bool) (ps : List (Value × Value)) : Option Value :=
  (ps.reverse.find? fun p ↦ wanted p.1).map (·.2)

section LastWrite

variable {wanted : Value → Bool}

/-- Of two lists of writes the second one decides, if it has a write that is wanted. -/
theorem lastWrite_append (ps qs : List (Value × Value)) :
    lastWrite wanted (ps ++ qs) = (lastWrite wanted qs).or (lastWrite wanted ps) := by
  rw [lastWrite, List.reverse_append, List.find?_append, Option.map_or, lastWrite, lastWrite]

theorem lastWrite_singleton_of_wanted {k : Value} (h : wanted k = true) (v : Value) :
    lastWrite wanted [(k, v)] = some v := by
  simp [lastWrite, h]

theorem lastWrite_singleton_of_not_wanted {k : Value} (h : wanted k = false) (v : Value) :
    lastWrite wanted [(k, v)] = none := by
  simp [lastWrite, h]

end LastWrite

variable {ps qs : List (Value × Value)} {k v : Value}

/-! ## Sequences -/

/-- The key is the long that names a position. -/
def isIndex (i : Nat) (k : Value) : Bool := k.long?.any fun n ↦ n.toInt == (i : Int)

/-- The second sequence has what was last written at each position of the first. -/
structure ItemsWritten (ps : List (Value × Value)) (xs ys : List Value) : Prop where
  length_eq : ys.length = xs.length
  getElem?_eq : ∀ i < xs.length, ys[i]? = (lastWrite (isIndex i) ps).or xs[i]?

namespace ItemsWritten

variable {xs ys zs : List Value}

theorem trans (h : ItemsWritten ps xs ys) (h' : ItemsWritten qs ys zs) :
    ItemsWritten (ps ++ qs) xs zs where
  length_eq := h'.length_eq.trans h.length_eq
  getElem?_eq i hi := by
    rw [h'.getElem?_eq i (h.length_eq ▸ hi), h.getElem?_eq i hi, lastWrite_append, Option.or_assoc]

/-- To set an item at its position is to write it there. -/
theorem set {n : Int64} (hn : 0 ≤ n.toInt) (xs : List Value) (v : Value) :
    ItemsWritten [(.long n, v)] xs (xs.set n.toInt.toNat v) where
  length_eq := List.length_set
  getElem?_eq i hi := by
    by_cases hin : n.toInt = i
    · have hindex : isIndex i (.long n) = true := beq_iff_eq.mpr hin
      rw [lastWrite_singleton_of_wanted hindex, hin, Int.toNat_natCast, List.getElem?_set_self hi]
      rfl
    · have hindex : isIndex i (.long n) = false := beq_eq_false_iff_ne.mpr hin
      rw [lastWrite_singleton_of_not_wanted hindex, List.getElem?_set_ne (by omega)]
      rfl

end ItemsWritten

/-! ## Maps -/

/-- The blob that a key names: itself, or the one of an address. -/
def namedBlob? : Value → Option Blob
  | .blob b => some b
  | .address a => some a.toBlob
  | _ => none

/-- The second map has what was last written at each key, and what the first has at all others. -/
structure EntriesWritten {κ : Type} [Ord κ] (names : κ → Value → Bool) (ps : List (Value × Value))
    (m n : SortedMap κ Value) : Prop where
  ascending : m.Ascending → n.Ascending
  find?_eq : ∀ k, n.find? k = (lastWrite (names k) ps).or (m.find? k)

namespace EntriesWritten

variable {κ : Type} [Ord κ] {names : κ → Value → Bool} {m n o : SortedMap κ Value}

theorem trans (h : EntriesWritten names ps m n) (h' : EntriesWritten names qs n o) :
    EntriesWritten names (ps ++ qs) m o where
  ascending hm := h'.ascending (h.ascending hm)
  find?_eq k := by rw [h'.find?_eq, h.find?_eq, lastWrite_append, Option.or_assoc]

/-- To insert an entry is to write it under the value that names its key. -/
theorem insert [Std.TransOrd κ] [Std.LawfulEqOrd κ] {key : κ} {k : Value}
    (hk : ∀ l, names l k = true ↔ l = key) (m : SortedMap κ Value) (v : Value) :
    EntriesWritten names [(k, v)] m (m.insert key v) where
  ascending hm := hm.insert key v
  find?_eq l := by
    by_cases hl : l = key
    · rw [lastWrite_singleton_of_wanted ((hk l).mpr hl), hl, m.find?_insert_self]
      rfl
    · have hnot : names l k = false := Bool.eq_false_iff.mpr fun h ↦ hl ((hk l).mp h)
      rw [lastWrite_singleton_of_not_wanted hnot, SortedMap.find?_insert_of_ne hl]
      rfl

end EntriesWritten

/-! ## Collections -/

/-- The key can be written to in the collection: any key of a map, a position of a sequence, a blob
or an address for a map of blobs, and none elsewhere. -/
def KeyFits (coll k : Value) : Prop :=
  match coll with
  | .nil | .map _ => True
  | .list xs | .vector xs => ∃ n : Int64, k = .long n ∧ 0 ≤ n.toInt ∧ n.toInt < xs.length
  | .blobMap _ => (∃ b, k = .blob b) ∨ ∃ a, k = .address a
  | _ => False

/-- The code under which a key is refused: a long that is no position of a sequence is out of its
bounds, and everything else is of a wrong kind. -/
def refusalCode (coll k : Value) : ErrorCode :=
  match coll, k with
  | .list _, .long _ | .vector _, .long _ => .bounds
  | _, _ => .cast

/-- The second collection is the first one with the pairs written into it, and of its kind, but for
nil, of which a map is made. -/
inductive Associated (ps : List (Value × Value)) : Value → Value → Prop
  | nil {n : Map} (h : EntriesWritten (fun k l ↦ l == k) ps .empty n) : Associated ps .nil (.map n)
  | map {m n : Map} (h : EntriesWritten (fun k l ↦ l == k) ps m n) : Associated ps (.map m) (.map n)
  | list {xs ys : List Value} (h : ItemsWritten ps xs ys) : Associated ps (.list xs) (.list ys)
  | vector {xs ys : List Value} (h : ItemsWritten ps xs ys) :
      Associated ps (.vector xs) (.vector ys)
  | blobMap {m n : BlobMap} (h : EntriesWritten (fun b l ↦ namedBlob? l == some b) ps m n) :
      Associated ps (.blobMap m) (.blobMap n)

namespace Associated

variable {coll r t : Value}

theorem trans (h : Associated ps coll r) (h' : Associated qs r t) :
    Associated (ps ++ qs) coll t := by
  cases h with
  | nil h =>
      cases h' with
      | map h' => exact .nil (h.trans h')
  | map h =>
      cases h' with
      | map h' => exact .map (h.trans h')
  | list h =>
      cases h' with
      | list h' => exact .list (h.trans h')
  | vector h =>
      cases h' with
      | vector h' => exact .vector (h.trans h')
  | blobMap h =>
      cases h' with
      | blobMap h' => exact .blobMap (h.trans h')

/-- Writing does not change which keys fit. -/
theorem keyFits_iff (h : Associated ps coll r) (k : Value) : KeyFits r k ↔ KeyFits coll k := by
  cases h with
  | nil h => exact Iff.rfl
  | map h => exact Iff.rfl
  | list h => rw [KeyFits, KeyFits, h.length_eq]
  | vector h => rw [KeyFits, KeyFits, h.length_eq]
  | blobMap h => exact Iff.rfl

/-- A key that does not fit is refused under the same code before and after a write. -/
theorem refusalCode_eq (h : Associated ps coll r) (k : Value) :
    refusalCode r k = refusalCode coll k := by
  cases h with
  | list h => cases k <;> rfl
  | vector h => cases k <;> rfl
  | _ => rfl

end Associated

/-! ## One pair -/

section OnePair

variable {n : Int64}

/-- One write into a sequence, with its errors as errors of the machine. -/
theorem assocOne_toValue {s : Sequence} {r : Except UpdateError Sequence} (h : s.assoc n v = r) :
    assocOne s.toValue (.long n) v = (r.map Sequence.toValue).mapError .ofUpdateError := by
  obtain ⟨kind, xs⟩ := s
  cases kind <;> cases r <;> simp only [assocOne, Sequence.toValue, Sequence.ofValue?, longArg,
    Value.long?, bind, Except.bind, h, Except.map, Except.mapError]

/-- A position that is there is set. -/
theorem assocOne_of_mem {s : Sequence} (h : 0 ≤ n.toInt ∧ n.toInt < s.size) (v : Value) :
    assocOne s.toValue (.long n) v =
      .ok (Sequence.toValue ⟨s.kind, s.items.set n.toInt.toNat v⟩) :=
  assocOne_toValue (if_pos h)

/-- A position that is not there is refused. -/
theorem assocOne_of_not_mem {s : Sequence} (h : ¬ (0 ≤ n.toInt ∧ n.toInt < s.size)) (v : Value) :
    assocOne s.toValue (.long n) v = .error (.ofUpdateError (.indexOutOfBounds n s.size)) :=
  assocOne_toValue (if_neg h)

end OnePair

variable {coll : Value}

/-- A pair whose key fits is written. -/
theorem assocOne_of_keyFits (h : KeyFits coll k) (v : Value) :
    ∃ r, assocOne coll k v = .ok r ∧ Associated [(k, v)] coll r := by
  cases coll with
  | nil =>
      refine ⟨_, rfl, .nil (.insert ?_ .empty v)⟩
      exact fun l ↦ beq_iff_eq.trans eq_comm
  | map m =>
      refine ⟨_, rfl, .map (.insert ?_ m v)⟩
      exact fun l ↦ beq_iff_eq.trans eq_comm
  | list xs =>
      obtain ⟨n, rfl, hn⟩ := h
      exact ⟨_, assocOne_of_mem (s := ⟨.list, xs⟩) hn v, .list (.set hn.1 xs v)⟩
  | vector xs =>
      obtain ⟨n, rfl, hn⟩ := h
      exact ⟨_, assocOne_of_mem (s := ⟨.vector, xs⟩) hn v, .vector (.set hn.1 xs v)⟩
  | blobMap m =>
      rcases h with ⟨b, rfl⟩ | ⟨a, rfl⟩
      · refine ⟨_, rfl, .blobMap (.insert ?_ m v)⟩
        exact fun l ↦ beq_iff_eq.trans (Option.some_inj.trans eq_comm)
      · refine ⟨_, rfl, .blobMap (.insert ?_ m v)⟩
        exact fun l ↦ beq_iff_eq.trans (Option.some_inj.trans eq_comm)
  | _ => exact h.elim

/-- A pair whose key does not fit is refused. -/
theorem assocOne_of_not_keyFits (h : ¬ KeyFits coll k) (v : Value) :
    ∃ text, assocOne coll k v = .error (.coded (refusalCode coll k) text) := by
  cases coll with
  | nil => exact absurd trivial h
  | map m => exact absurd trivial h
  | list xs =>
      cases k with
      | long n => exact ⟨_, assocOne_of_not_mem (s := ⟨.list, xs⟩) (fun hn ↦ h ⟨n, rfl, hn⟩) v⟩
      | _ => exact ⟨_, rfl⟩
  | vector xs =>
      cases k with
      | long n => exact ⟨_, assocOne_of_not_mem (s := ⟨.vector, xs⟩) (fun hn ↦ h ⟨n, rfl, hn⟩) v⟩
      | _ => exact ⟨_, rfl⟩
  | blobMap m =>
      cases k with
      | blob b => exact absurd (.inl ⟨b, rfl⟩) h
      | address a => exact absurd (.inr ⟨a, rfl⟩) h
      | _ => exact ⟨_, rfl⟩
  | _ => exact ⟨_, rfl⟩

/-! ## All pairs -/

/-- Keys and values in turn. -/
def pairArgs (ps : List (Value × Value)) : List Value := ps.flatMap fun p ↦ [p.1, p.2]

theorem length_pairArgs (ps : List (Value × Value)) : (pairArgs ps).length = 2 * ps.length := by
  induction ps with
  | nil => rfl
  | cons p ps ih =>
      change (pairArgs ps).length + 1 + 1 = 2 * (ps.length + 1)
      omega

/-- Arguments of an even number are pairs. -/
theorem exists_eq_pairArgs {args : List Value} (h : args.length % 2 = 0) :
    ∃ ps, args = pairArgs ps := by
  induction args using List.twoStepInduction with
  | nil => exact ⟨[], rfl⟩
  | singleton k => cases h
  | cons_cons k v args ih _ =>
      rw [List.length_cons, List.length_cons, Nat.add_assoc, Nat.add_mod_right] at h
      obtain ⟨ps, rfl⟩ := ih h
      exact ⟨(k, v) :: ps, rfl⟩

theorem assocPairs_cons (p : Value × Value) (ps : List (Value × Value)) :
    assocPairs coll (pairArgs (p :: ps)) =
      assocOne coll p.1 p.2 >>= fun r ↦ assocPairs r (pairArgs ps) := rfl

/-- Keys that all fit are all written. -/
theorem assocPairs_of_keyFits (hps : ps ≠ []) (h : ∀ p ∈ ps, KeyFits coll p.1) :
    ∃ r, assocPairs coll (pairArgs ps) = .ok r ∧ Associated ps coll r := by
  induction ps generalizing coll with
  | nil => exact absurd rfl hps
  | cons p ps ih =>
      obtain ⟨hp, hrest⟩ := List.forall_mem_cons.mp h
      obtain ⟨r, hr, hwritten⟩ := assocOne_of_keyFits hp p.2
      rw [assocPairs_cons, hr]
      cases ps with
      | nil => exact ⟨r, rfl, hwritten⟩
      | cons q ps =>
          -- The keys that are left fit what the first pair has made of the collection.
          obtain ⟨t, ht, hwritten'⟩ := ih (List.cons_ne_nil q ps) fun p' hp' ↦
            (hwritten.keyFits_iff p'.1).mpr (hrest p' hp')
          exact ⟨t, ht, hwritten.trans hwritten'⟩

/-- The first key that does not fit is refused, whatever was written before it. -/
theorem assocPairs_of_not_keyFits {before : List (Value × Value)}
    (h : ∀ p ∈ before, KeyFits coll p.1) (hk : ¬ KeyFits coll k) (v : Value)
    (after : List (Value × Value)) :
    ∃ text, assocPairs coll (pairArgs (before ++ (k, v) :: after)) =
      .error (.coded (refusalCode coll k) text) := by
  induction before generalizing coll with
  | nil =>
      obtain ⟨text, htext⟩ := assocOne_of_not_keyFits hk v
      refine ⟨text, ?_⟩
      rw [List.nil_append, assocPairs_cons, htext]
      rfl
  | cons p before ih =>
      obtain ⟨hp, hrest⟩ := List.forall_mem_cons.mp h
      obtain ⟨r, hr, hwritten⟩ := assocOne_of_keyFits hp p.2
      obtain ⟨text, htext⟩ := ih (fun p' hp' ↦ (hwritten.keyFits_iff p'.1).mpr (hrest p' hp'))
        fun hfits ↦ hk ((hwritten.keyFits_iff k).mp hfits)
      refine ⟨text, ?_⟩
      rw [List.cons_append, assocPairs_cons, hr, ← hwritten.refusalCode_eq k]
      exact htext

/-! ## The function -/

/-- Beyond the checks of their number the arguments are a collection and pairs. -/
theorem assocAll_pairArgs (coll : Value) (hps : ps ≠ []) :
    assocAll (coll :: pairArgs ps) = assocPairs coll (pairArgs ps) := by
  cases ps with
  | nil => exact absurd rfl hps
  | cons p ps =>
      have heven : (pairArgs ps).length % 2 = 0 := by rw [length_pairArgs, Nat.mul_mod_right]
      exact if_pos heven

/-- Too few arguments are refused, and so are pairs that do not come out even. -/
theorem assocAll_of_arity {args : List Value} (h : args.length < 3 ∨ args.length % 2 = 0) :
    assocAll args = .error (assoc.arityError args.length) := by
  unfold assocAll
  split
  · next coll k v rest =>
      refine if_neg fun hrest ↦ ?_
      simp only [List.length_cons] at h
      omega
  · rfl

section Apply

variable (c : Context)

/-- A call whose keys all fit comes to the collection with all pairs written. -/
theorem apply_assoc_of_keyFits (hps : ps ≠ []) (h : ∀ p ∈ ps, KeyFits coll p.1) :
    ∃ r, assoc.apply (coll :: pairArgs ps) c = c.produce r ∧ Associated ps coll r := by
  obtain ⟨r, hr, hwritten⟩ := assocPairs_of_keyFits hps h
  rw [← assocAll_pairArgs coll hps] at hr
  exact ⟨r, congrArg c.conclude hr, hwritten⟩

/-- A call raises an error for the first key that does not fit. -/
theorem apply_assoc_of_not_keyFits {before after : List (Value × Value)}
    (h : ∀ p ∈ before, KeyFits coll p.1) (hk : ¬ KeyFits coll k) :
    ∃ text, assoc.apply (coll :: pairArgs (before ++ (k, v) :: after)) c =
      c.raise (.coded (refusalCode coll k) text) := by
  obtain ⟨text, htext⟩ := assocPairs_of_not_keyFits h hk v after
  rw [← assocAll_pairArgs coll (by simp)] at htext
  exact ⟨text, congrArg c.conclude htext⟩

/-- If the call succeeds, no key is left that does not fit. -/
theorem keyFits_of_apply_assoc {r : Value} (h : assoc.apply (coll :: pairArgs ps) c = c.produce r) :
    ∀ p ∈ ps, KeyFits coll p.1 := by
  classical
  cases hfirst : ps.find? fun p ↦ !decide (KeyFits coll p.1) with
  | none => simpa using List.find?_eq_none.mp hfirst
  | some p =>
      obtain ⟨hp, before, after, rfl, hbefore⟩ := List.find?_eq_some_iff_append.mp hfirst
      simp only [Bool.not_not, decide_eq_true_eq] at hbefore
      obtain ⟨text, htext⟩ := apply_assoc_of_not_keyFits c hbefore (by simpa using hp)
      rw [htext] at h
      cases congrArg Context.outcome h

end Apply

/-- `assoc` takes a collection and at least one pair of a key and a value, and refuses any other
number of arguments before it looks at them.  It succeeds exactly if every key fits the collection
that it was given, and then the last pair with a key decides what is there.  Otherwise it raises an
error for the first key that does not fit.  In both cases the context has a new outcome, and nothing
else. -/
theorem assoc_writes_all_or_none (c : Context) :
    (∀ args : List Value, args.length < 3 ∨ args.length % 2 = 0 →
      ∃ text, Builtin.assoc.apply args c = c.raise (.coded .arity text)) ∧
    (∀ args : List Value, ¬ (args.length < 3 ∨ args.length % 2 = 0) →
      ∃ coll ps, ps ≠ [] ∧ args = coll :: pairArgs ps) ∧
    ∀ (coll : Value) (ps : List (Value × Value)), ps ≠ [] →
      ((∃ r, Builtin.assoc.apply (coll :: pairArgs ps) c = c.produce r) ↔
        ∀ p ∈ ps, KeyFits coll p.1) ∧
      (∀ r, Builtin.assoc.apply (coll :: pairArgs ps) c = c.produce r → Associated ps coll r) ∧
      (∀ before k v after, ps = before ++ (k, v) :: after → (∀ p ∈ before, KeyFits coll p.1) →
        ¬ KeyFits coll k →
        ∃ text, Builtin.assoc.apply (coll :: pairArgs ps) c =
          c.raise (.coded (refusalCode coll k) text)) := by
  refine ⟨fun args hargs ↦ ?_, fun args hargs ↦ ?_,
    fun coll ps hps ↦ ⟨⟨?_, fun hfits ↦ ?_⟩, fun r hr ↦ ?_, ?_⟩⟩
  · exact ⟨_, congrArg c.conclude (assocAll_of_arity hargs)⟩
  · cases args with
    | nil => exact absurd (.inl (by decide)) hargs
    | cons coll args =>
        rw [List.length_cons] at hargs
        have heven : args.length % 2 = 0 := by omega
        obtain ⟨ps, rfl⟩ := exists_eq_pairArgs heven
        refine ⟨coll, ps, ?_, rfl⟩
        rintro rfl
        exact hargs (.inl (by decide))
  · rintro ⟨r, hr⟩
    exact keyFits_of_apply_assoc c hr
  · obtain ⟨r, hr, -⟩ := apply_assoc_of_keyFits c hps hfits
    exact ⟨r, hr⟩
  · obtain ⟨r', hr', hwritten⟩ := apply_assoc_of_keyFits c hps (keyFits_of_apply_assoc c hr)
    rw [hr'] at hr
    obtain rfl := Outcome.value.inj (congrArg Context.outcome hr)
    exact hwritten
  · rintro before k v after rfl hbefore hk
    exact apply_assoc_of_not_keyFits c hbefore hk

/-- A position written twice, and a position that is not there before a key of a wrong kind. -/
theorem assoc_writes_all_or_none_vector :
    let c : Context := .start (.genesis []) ⟨0⟩ { }
    let coll : Value := .vector [.nil, .nil]
    let ps : List (Value × Value) := [(.long 1, .bool true), (.long 0, .nil), (.long 1, .long 7)]
    (∃ r, assoc.apply (coll :: pairArgs ps) c = c.produce r ∧ Associated ps coll r) ∧
    (∃ text, assoc.apply (coll :: pairArgs [(.long 0, .nil), (.long 2, .nil), (.nil, .nil)]) c =
      c.raise (.coded .bounds text)) ∧
    ∃ text, assoc.apply [coll, .long 0] c = c.raise (.coded .arity text) := by
  intro c coll ps
  obtain ⟨harity, -, hpairs⟩ := assoc_writes_all_or_none c
  have hzero : KeyFits coll (.long 0) := ⟨0, rfl, by decide⟩
  have hone : KeyFits coll (.long 1) := ⟨1, rfl, by decide⟩
  have htwo : ¬ KeyFits coll (.long 2) := by
    rintro ⟨n, hn, hbounds⟩
    obtain rfl := Value.long.inj hn
    exact absurd hbounds (by decide)
  have hps : ps ≠ [] := List.cons_ne_nil _ _
  refine ⟨?_, ?_, harity _ (.inl (Nat.lt_succ_self 2))⟩
  · have hfits : ∀ p ∈ ps, KeyFits coll p.1 :=
      List.forall_mem_cons.mpr ⟨hone, List.forall_mem_cons.mpr
        ⟨hzero, List.forall_mem_singleton.mpr hone⟩⟩
    obtain ⟨r, hr⟩ := (hpairs coll ps hps).1.mpr hfits
    exact ⟨r, hr, (hpairs coll ps hps).2.1 r hr⟩
  · exact (hpairs coll [(.long 0, .nil), (.long 2, .nil), (.nil, .nil)] (List.cons_ne_nil _ _)).2.2
      [(.long 0, .nil)] (.long 2) .nil [(.nil, .nil)] rfl (List.forall_mem_singleton.mpr hzero) htwo

end MeteredLedger
