import MeteredLedger.Proofs.Ledger.Accounts
import MeteredLedger.Proofs.Text.Reading
import MeteredLedger.Proofs.Value.Order
import MeteredLedger.Value.Edn

/-!
# The printed form can be read back

A name prints as it is spelled, so a symbol can look like any other value; and a ledger does not
show all that it has.  Data without either are determined by their text.  One text may be the
beginning of another one, as `1` is of `12`, but not if a delimiter or nothing follows each of them,
and within a text that is always so.  Where the first characters of two texts agree the values are
of the same kind, and are taken apart side by side.
-/

namespace MeteredLedger

open Text

variable {s t : List Char}

/-! ## Sequences of texts -/

section Sequences

variable {α β : Type} {f : α → List Char} {xs ys : List α}

/-- Two things are equal if they have the same text before what may follow a text. -/
def ToldApart (f : α → List Char) (x y : α) : Prop :=
  ∀ s t, Delimited s → Delimited t → f x ++ s = f y ++ t → x = y ∧ s = t

/-- The text has a beginning, and that is no delimiter. -/
def Opens (a : List Char) : Prop := ∃ c r, a = c :: r ∧ isDelimiter c = false

/-- A text that opens does not begin with a delimiter, so it is not the end of a list. -/
theorem Opens.append_ne {a : List Char} {c : Char} (ha : Opens a) (hc : isDelimiter c = true) :
    a ++ s ≠ c :: t := by
  obtain ⟨d, r, rfl, hd⟩ := ha
  intro h
  obtain rfl : d = c := (List.cons.inj h).1
  rw [hc] at hd
  cases hd

/-- The text of a pair, with a space between its parts. -/
def pairChars (f : α → List Char) (g : β → List Char) (e : α × β) : List Char :=
  f e.1 ++ ' ' :: g e.2

/-- Pairs are told apart if their halves are. -/
theorem toldApart_pairChars {g : β → List Char} {e e' : α × β} (hf : ToldApart f e.1 e'.1)
    (hg : ToldApart g e.2 e'.2) : ToldApart (pairChars f g) e e' := by
  intro s t hs ht h
  rw [pairChars, pairChars, List.append_assoc, List.append_assoc] at h
  obtain ⟨hfst, h⟩ := hf _ _ (delimited_cons rfl) (delimited_cons rfl) h
  obtain ⟨hsnd, hst⟩ := hg s t hs ht (List.cons.inj h).2
  exact ⟨Prod.ext hfst hsnd, hst⟩

theorem opens_pairChars {g : β → List Char} {e : α × β} (hf : Opens (f e.1)) :
    Opens (pairChars f g e) := by
  obtain ⟨c, r, hc, hd⟩ := hf
  exact ⟨c, r ++ ' ' :: g e.2, by rw [pairChars, hc, List.cons_append], hd⟩

/-- After the first text of a list, each has a separator in front. -/
theorem intercalate_map_cons (sep : List Char) (f : α → List Char) (x : α) (xs : List α) :
    sep.intercalate ((x :: xs).map f) = f x ++ xs.flatMap fun y ↦ sep ++ f y := by
  induction xs generalizing x with
  | nil => simp
  | cons y ys ih =>
      rw [List.map_cons, List.map_cons, List.intercalate_cons_cons, ← List.map_cons, ih,
        List.flatMap_cons, List.append_assoc, List.append_assoc]

variable {sep : List Char} {d close : Char}

/-- After an item comes another one or the end, and both begin with a delimiter. -/
theorem delimited_items (hd : isDelimiter d = true) (hclose : isDelimiter close = true) :
    Delimited ((xs.flatMap fun x ↦ d :: sep ++ f x) ++ close :: s) := by
  cases xs with
  | nil => exact delimited_cons hclose
  | cons x xs => exact delimited_cons hd

/-- Items that are all led in by the same separator are determined up to what closes them. -/
theorem separated_append_inj (hd : isDelimiter d = true) (hclose : isDelimiter close = true)
    (hne : d ≠ close) (hxy : ∀ x ∈ xs, ∀ y ∈ ys, ToldApart f x y)
    (h : (xs.flatMap fun x ↦ d :: sep ++ f x) ++ close :: s =
      (ys.flatMap fun y ↦ d :: sep ++ f y) ++ close :: t) : xs = ys ∧ s = t := by
  induction xs generalizing ys with
  | nil =>
      cases ys with
      | nil => exact ⟨rfl, (List.cons.inj h).2⟩
      | cons y ys => exact absurd (List.cons.inj h).1.symm hne
  | cons x xs ih =>
      cases ys with
      | nil => exact absurd (List.cons.inj h).1 hne
      | cons y ys =>
          rw [List.flatMap_cons, List.flatMap_cons, List.append_assoc, List.append_assoc,
            List.append_assoc, List.append_assoc] at h
          obtain ⟨rfl, hrest⟩ := hxy x List.mem_cons_self y List.mem_cons_self _ _
            (delimited_items hd hclose) (delimited_items hd hclose) (List.append_cancel_left h)
          obtain ⟨rfl, hst⟩ := ih (fun x hx y hy ↦
            hxy x (List.mem_cons_of_mem _ hx) y (List.mem_cons_of_mem _ hy)) hrest
          exact ⟨rfl, hst⟩

/-- Items between separators are determined, if the same opens and closes them. -/
theorem enclosed_append_inj {lead : List Char} (hd : isDelimiter d = true)
    (hclose : isDelimiter close = true) (hne : d ≠ close) (hx : ∀ x ∈ xs, Opens (f x))
    (hy : ∀ y ∈ ys, Opens (f y)) (hxy : ∀ x ∈ xs, ∀ y ∈ ys, ToldApart f x y)
    (h : lead ++ (d :: sep).intercalate (xs.map f) ++ [close] ++ s =
      lead ++ (d :: sep).intercalate (ys.map f) ++ [close] ++ t) : xs = ys ∧ s = t := by
  rw [List.append_assoc, List.append_assoc, List.append_assoc, List.append_assoc] at h
  replace h := List.append_cancel_left h
  rw [List.singleton_append, List.singleton_append] at h
  cases xs with
  | nil =>
      cases ys with
      | nil => exact ⟨rfl, (List.cons.inj h).2⟩
      | cons y ys =>
          rw [intercalate_map_cons, List.append_assoc] at h
          exact absurd h.symm ((hy y List.mem_cons_self).append_ne hclose)
  | cons x xs =>
      cases ys with
      | nil =>
          rw [intercalate_map_cons, List.append_assoc] at h
          exact absurd h ((hx x List.mem_cons_self).append_ne hclose)
      | cons y ys =>
          rw [intercalate_map_cons, intercalate_map_cons, List.append_assoc, List.append_assoc] at h
          obtain ⟨rfl, hrest⟩ := hxy x List.mem_cons_self y List.mem_cons_self _ _
            (delimited_items hd hclose) (delimited_items hd hclose) h
          obtain ⟨rfl, hst⟩ := separated_append_inj hd hclose hne (fun x hx y hy ↦
            hxy x (List.mem_cons_of_mem _ hx) y (List.mem_cons_of_mem _ hy)) hrest
          exact ⟨rfl, hst⟩

end Sequences

namespace Value

/-! ## Data without names -/

/-- The value has no symbol, keyword or ledger in it, at any depth. -/
inductive Nameless : Value → Prop
  | nil : Nameless nil
  | bool (b : Bool) : Nameless (bool b)
  | long (n : Int64) : Nameless (long n)
  | string (s : String) : Nameless (string s)
  | blob (b : Blob) : Nameless (blob b)
  | address (a : Address) : Nameless (address a)
  | list {xs : List Value} (h : ∀ x ∈ xs, Nameless x) : Nameless (list xs)
  | vector {xs : List Value} (h : ∀ x ∈ xs, Nameless x) : Nameless (vector xs)
  | map {m : Map} (hkeys : ∀ e ∈ m.entries, Nameless e.1)
      (hvalues : ∀ e ∈ m.entries, Nameless e.2) : Nameless (map m)
  | set {s : ValueSet} (h : ∀ x ∈ s.items, Nameless x) : Nameless (set s)
  | blobMap {m : BlobMap} (h : ∀ e ∈ m.entries, Nameless e.2) : Nameless (blobMap m)

variable {v w : Value}

/-! ## Kinds -/

/-- The kind of nameless data whose text begins like this. -/
def announcedKind : List Char → Kind
  | 'n' :: _ => .nil
  | 't' :: _ | 'f' :: _ => .bool
  | '"' :: _ => .string
  | '0' :: 'x' :: _ => .blob
  | '(' :: _ => .list
  | '[' :: _ => .vector
  | '\x7b' :: _ => .map
  | '#' :: '\x7b' :: _ => .set
  | '#' :: 'b' :: _ => .blobMap
  | '#' :: _ => .address
  | _ => .long

/-- A number begins with a digit, and has nothing but digits. -/
theorem exists_natChars_eq_cons (n : Nat) :
    ∃ c r, natChars n = c :: r ∧ c.isDigit = true ∧ ∀ d ∈ r, d.isDigit = true := by
  obtain ⟨c, r, hcr⟩ := List.exists_cons_of_ne_nil (Nat.toDigits_ne_nil (n := n) (b := 10))
  have hdigits := isDigit_of_mem_natChars (n := n)
  rw [natChars, hcr] at hdigits
  exact ⟨c, r, hcr, List.forall_mem_cons.mp hdigits⟩

/-- A digit announces a long, unless it begins a blob. -/
theorem announcedKind_of_isDigit {c : Char} (hc : c.isDigit = true) (hs : s.head? ≠ some 'x') :
    announcedKind (c :: s) = .long := by
  unfold announcedKind
  split <;> simp_all

theorem announcedKind_hash_of_isDigit {c : Char} (hc : c.isDigit = true) :
    announcedKind ('#' :: c :: s) = .address := by
  unfold announcedKind
  split <;> simp_all

/-- A number is announced as a long by its first two characters. -/
theorem announcedKind_natChars_append (n : Nat) (hs : Delimited s) :
    announcedKind (natChars n ++ s) = .long := by
  obtain ⟨c, r, hcr, hc, hr⟩ := exists_natChars_eq_cons n
  -- What comes second is a digit or a delimiter, so a number is not taken for a blob.
  have hx : (r ++ s).head? ≠ some 'x' := by
    cases r with
    | nil => exact fun h ↦ absurd (hs 'x' h) (by decide)
    | cons d r =>
        intro h
        obtain rfl : d = 'x' := Option.some.inj h
        exact absurd (hr _ List.mem_cons_self) (by decide)
  rw [hcr, List.cons_append]
  exact announcedKind_of_isDigit hc hx

/-- The first characters of a text announce the kind of the value. -/
theorem announcedKind_ednChars_append (hv : v.Nameless) (hs : Delimited s) :
    announcedKind (v.ednChars ++ s) = v.kind := by
  cases hv with
  | bool b => cases b <;> rfl
  | long n =>
      change announcedKind (intChars n.toInt ++ s) = .long
      cases n.toInt with
      | ofNat n => exact announcedKind_natChars_append n hs
      | negSucc n => rfl
  | address a =>
      obtain ⟨c, r, hcr, hc, -⟩ := exists_natChars_eq_cons a.toNat
      change announcedKind ('#' :: natChars a.toNat ++ s) = .address
      rw [hcr]
      exact announcedKind_hash_of_isDigit hc
  | _ => rfl

/-- Values with the same text are of the same kind. -/
theorem kind_eq_of_ednChars_append_eq (hv : v.Nameless) (hw : w.Nameless) (hs : Delimited s)
    (ht : Delimited t) (h : v.ednChars ++ s = w.ednChars ++ t) : v.kind = w.kind := by
  rw [← announcedKind_ednChars_append hv hs, h, announcedKind_ednChars_append hw ht]

/-- No text begins with a delimiter. -/
theorem Nameless.opens (hv : v.Nameless) : Opens v.ednChars := by
  cases hv with
  | bool b => cases b <;> exact ⟨_, _, rfl, rfl⟩
  | long n =>
      change Opens (intChars n.toInt)
      cases n.toInt with
      | ofNat n =>
          obtain ⟨c, r, hcr, -⟩ := exists_natChars_eq_cons n
          refine ⟨c, r, hcr, ?_⟩
          exact isWord_natChars n c (hcr ▸ List.mem_cons_self)
      | negSucc n => exact ⟨_, _, rfl, rfl⟩
  | _ => exact ⟨_, _, rfl, rfl⟩

/-! ## Taking texts apart -/

theorem entryTexts_eq_map (es : List (Value × Value)) :
    entryTexts es = es.map (pairChars ednChars ednChars) := by
  induction es with
  | nil => rfl
  | cons e es ih => rw [entryTexts, ih, List.map_cons, pairChars]

theorem blobEntryTexts_eq_map (es : List (Blob × Value)) :
    blobEntryTexts es = es.map (pairChars Blob.ednChars ednChars) := by
  induction es with
  | nil => rfl
  | cons e es ih => rw [blobEntryTexts, ih, List.map_cons, pairChars]

/-- Blobs are told apart, since digits of hex end at a delimiter. -/
theorem toldApart_blob (a b : Blob) : ToldApart Blob.ednChars a b := by
  intro s t hs ht h
  obtain ⟨hdigits, hst⟩ := (Hex.isWord_encode a.bytes).append_inj (Hex.isWord_encode b.bytes) hs ht
    (List.cons.inj (List.cons.inj h).2).2
  exact ⟨congrArg Blob.mk (Hex.encode_inj hdigits), hst⟩

theorem opens_blob (b : Blob) : Opens b.ednChars := ⟨_, _, rfl, rfl⟩

section Containers

variable (lead : List Char)

/-- A list of items in brackets is cut off from what follows. -/
theorem items_append_inj {close : Char} {xs ys : List Value} (hclose : isDelimiter close = true)
    (hne : ' ' ≠ close) (hx : ∀ x ∈ xs, Nameless x) (hy : ∀ y ∈ ys, Nameless y)
    (hxy : ∀ x ∈ xs, ∀ y ∈ ys, ToldApart ednChars x y)
    (h : lead ++ [' '].intercalate (itemTexts xs) ++ [close] ++ s =
      lead ++ [' '].intercalate (itemTexts ys) ++ [close] ++ t) : xs = ys ∧ s = t := by
  rw [itemTexts_eq_map, itemTexts_eq_map] at h
  exact enclosed_append_inj rfl hclose hne (fun x hmem ↦ (hx x hmem).opens)
    (fun y hmem ↦ (hy y hmem).opens) hxy h

/-- A list of entries in braces is cut off from what follows. -/
theorem entries_append_inj {κ : Type} {g : κ → List Char} {es fs : List (κ × Value)}
    (he : ∀ e ∈ es, Opens (g e.1)) (hf : ∀ f ∈ fs, Opens (g f.1))
    (hkey : ∀ e ∈ es, ∀ f ∈ fs, ToldApart g e.1 f.1)
    (hvalue : ∀ e ∈ es, ∀ f ∈ fs, ToldApart ednChars e.2 f.2)
    (h : lead ++ [',', ' '].intercalate (es.map (pairChars g ednChars)) ++ ['\x7d'] ++ s =
      lead ++ [',', ' '].intercalate (fs.map (pairChars g ednChars)) ++ ['\x7d'] ++ t) :
    es = fs ∧ s = t := by
  refine enclosed_append_inj rfl rfl (by decide) (fun e hmem ↦ opens_pairChars (he e hmem))
    (fun f hmem ↦ opens_pairChars (hf f hmem)) ?_ h
  intro e hmem f hmem'
  exact toldApart_pairChars (hkey e hmem f hmem') (hvalue e hmem f hmem')

end Containers

/-- The text of nameless data determines them. -/
theorem Nameless.toldApart (hv : v.Nameless) (hw : w.Nameless) : ToldApart ednChars v w := by
  induction v using Value.of_eachPart generalizing w with
  | h v ih =>
  intro s t hs ht h
  have hk := kind_eq_of_ednChars_append_eq hv hw hs ht h
  cases hv with
  | nil =>
      cases hw with
      | nil => exact ⟨rfl, List.append_cancel_left h⟩
      | _ => cases hk
  | bool a =>
      cases hw with
      | bool b =>
          have hab : a = b := by cases a <;> cases b <;> first | rfl | cases (List.cons.inj h).1
          subst hab
          exact ⟨rfl, List.append_cancel_left h⟩
      | _ => cases hk
  | long m =>
      cases hw with
      | long n =>
          obtain ⟨hmn, hst⟩ := intChars_append_inj hs ht h
          exact ⟨congrArg Value.long (Int64.toInt_inj.mp hmn), hst⟩
      | _ => cases hk
  | string a =>
      cases hw with
      | string b =>
          obtain ⟨hab, hst⟩ := quoteChars_append_inj h
          exact ⟨congrArg Value.string hab, hst⟩
      | _ => cases hk
  | blob a =>
      cases hw with
      | blob b =>
          obtain ⟨hab, hst⟩ := toldApart_blob a b s t hs ht h
          exact ⟨congrArg Value.blob hab, hst⟩
      | _ => cases hk
  | address a =>
      cases hw with
      | address b =>
          obtain ⟨hab, hst⟩ := natChars_append_inj hs ht (List.cons.inj h).2
          exact ⟨congrArg Value.address (Address.toNat_inj.mp hab), hst⟩
      | _ => cases hk
  | @list xs hx =>
      cases hw with
      | @list ys hy =>
          obtain ⟨hxy, hst⟩ := items_append_inj ['('] rfl (by decide) hx hy
            (fun x hmem y hmem' ↦ ih x hmem (hx x hmem) (hy y hmem')) h
          exact ⟨congrArg Value.list hxy, hst⟩
      | _ => cases hk
  | @vector xs hx =>
      cases hw with
      | @vector ys hy =>
          obtain ⟨hxy, hst⟩ := items_append_inj ['['] rfl (by decide) hx hy
            (fun x hmem y hmem' ↦ ih x hmem (hx x hmem) (hy y hmem')) h
          exact ⟨congrArg Value.vector hxy, hst⟩
      | _ => cases hk
  | @map m hmkeys hmvalues =>
      cases hw with
      | @map n hnkeys hnvalues =>
          replace h : ['\x7b'] ++ [',', ' '].intercalate (entryTexts m.entries) ++ ['\x7d'] ++ s =
            ['\x7b'] ++ [',', ' '].intercalate (entryTexts n.entries) ++ ['\x7d'] ++ t := h
          rw [entryTexts_eq_map, entryTexts_eq_map] at h
          obtain ⟨hmn, hst⟩ := entries_append_inj ['\x7b'] (fun e he ↦ (hmkeys e he).opens)
            (fun f hf ↦ (hnkeys f hf).opens)
            (fun e he f hf ↦ (ih e he).1 (hmkeys e he) (hnkeys f hf))
            (fun e he f hf ↦ (ih e he).2 (hmvalues e he) (hnvalues f hf)) h
          exact ⟨congrArg (Value.map ⟨·⟩) hmn, hst⟩
      | _ => cases hk
  | @set m hx =>
      cases hw with
      | @set n hy =>
          obtain ⟨hxy, hst⟩ := items_append_inj "#\x7b".toList rfl (by decide) hx hy
            (fun x hmem y hmem' ↦ ih x hmem (hx x hmem) (hy y hmem')) h
          exact ⟨congrArg (Value.set ⟨·⟩) hxy, hst⟩
      | _ => cases hk
  | @blobMap m hm =>
      cases hw with
      | @blobMap n hn =>
          replace h : "#blob-map \x7b".toList ++
              [',', ' '].intercalate (blobEntryTexts m.entries) ++ ['\x7d'] ++ s =
            "#blob-map \x7b".toList ++
              [',', ' '].intercalate (blobEntryTexts n.entries) ++ ['\x7d'] ++ t := h
          rw [blobEntryTexts_eq_map, blobEntryTexts_eq_map] at h
          obtain ⟨hmn, hst⟩ := entries_append_inj _ (fun e _ ↦ opens_blob e.1)
            (fun f _ ↦ opens_blob f.1) (fun e _ f _ ↦ toldApart_blob e.1 f.1)
            (fun e he f hf ↦ ih e he (hm e he) (hn f hf)) h
          exact ⟨congrArg (Value.blobMap ⟨·⟩) hmn, hst⟩
      | _ => cases hk

/-- Nameless data that print alike are equal. -/
theorem Nameless.eq_of_edn_eq (hv : v.Nameless) (hw : w.Nameless) (h : v.edn = w.edn) : v = w := by
  have hchars : v.ednChars ++ [] = w.ednChars ++ [] := by
    rw [String.ofList_inj.mp h]
  exact (hv.toldApart hw [] [] delimited_nil delimited_nil hchars).1

end Value

end MeteredLedger
