import MeteredLedger.Ledger.Basic
import MeteredLedger.Proofs.Bytes.BigEndian
import MeteredLedger.Value.Encoding

/-!
# The canonical encoding can be read back

Whatever follows the encoding of a value, the value and the rest are determined: no encoding is the
beginning of another one.  There is no reader to show this with, so two values with a common
encoding are taken apart side by side.  The tag gives the kind, a number has a fixed width, and a
text or a collection begins with its length, which says where it ends; hence the only assumption,
that a length can be written in eight bytes.
-/

namespace MeteredLedger

/-! ## Numbers and strings of bytes -/

namespace Bytes

/-- The lengths are below `2 ^ 64`, so that each can be written in eight bytes. -/
def Fit (lengths : List Nat) : Prop := ∀ n ∈ lengths, n < UInt64.size

instance (lengths : List Nat) : Decidable (Fit lengths) :=
  List.decidableBAll (· < UInt64.size) lengths

@[simp] theorem fit_cons {n : Nat} {lengths : List Nat} :
    Fit (n :: lengths) ↔ n < UInt64.size ∧ Fit lengths := List.forall_mem_cons

@[simp] theorem fit_append {lengths lengths' : List Nat} :
    Fit (lengths ++ lengths') ↔ Fit lengths ∧ Fit lengths' := List.forall_mem_append

variable {s t : List UInt8}

/-- A number of eight bytes is cut off from what follows. -/
theorem bigEndian_append_inj {m n : Nat} (hm : m < UInt64.size) (hn : n < UInt64.size)
    (h : bigEndian 8 m ++ s = bigEndian 8 n ++ t) : m = n ∧ s = t := by
  obtain ⟨hbytes, hst⟩ := List.append_inj h (by simp)
  exact ⟨eq_of_bigEndian_eq hbytes ((above_eq_zero hm).trans (above_eq_zero hn).symm), hst⟩

theorem ofUInt64_append_inj {m n : UInt64} (h : ofUInt64 m ++ s = ofUInt64 n ++ t) :
    m = n ∧ s = t := by
  obtain ⟨hmn, hst⟩ := bigEndian_append_inj m.toNat_lt_size n.toNat_lt_size h
  exact ⟨UInt64.toNat_inj.mp hmn, hst⟩

theorem ofInt64_append_inj {m n : Int64} (h : ofInt64 m ++ s = ofInt64 n ++ t) :
    m = n ∧ s = t := by
  obtain ⟨hmn, hst⟩ := ofUInt64_append_inj (m := m.toUInt64) (n := n.toUInt64) h
  exact ⟨congrArg Int64.ofUInt64 hmn, hst⟩

/-- Bytes with their length in front are cut off from what follows. -/
theorem withLength_append_inj {a b : List UInt8} (ha : a.length < UInt64.size)
    (hb : b.length < UInt64.size)
    (h : withLength a ++ s = withLength b ++ t) : a = b ∧ s = t := by
  rw [withLength, withLength, List.append_assoc, List.append_assoc] at h
  obtain ⟨hlen, h⟩ := bigEndian_append_inj ha hb h
  exact List.append_inj h hlen

/-- A list after its length can be told apart if lists of the same length can. -/
theorem counted_append_inj {α : Type} {f : List α → List UInt8} {xs ys : List α}
    (hx : xs.length < UInt64.size) (hy : ys.length < UInt64.size)
    (h : ofLength xs.length ++ (f xs ++ s) = ofLength ys.length ++ (f ys ++ t))
    (hf : xs.length = ys.length → f xs ++ s = f ys ++ t → xs = ys ∧ s = t) : xs = ys ∧ s = t := by
  obtain ⟨hlen, h⟩ := bigEndian_append_inj hx hy h
  exact hf hlen h

/-- A text with its length in front is cut off from what follows. -/
theorem withLength_utf8_append_inj {a b : String} (ha : (Text.utf8 a).length < UInt64.size)
    (hb : (Text.utf8 b).length < UInt64.size)
    (h : withLength (Text.utf8 a) ++ s = withLength (Text.utf8 b) ++ t) : a = b ∧ s = t := by
  obtain ⟨hab, hst⟩ := withLength_append_inj ha hb h
  exact ⟨Text.utf8_inj.mp hab, hst⟩

end Bytes

/-! ## Tags -/

/-- The kind of value that each tag announces. -/
def Tag.kinds : List (UInt8 × Kind) :=
  [(nil, .nil), (no, .bool), (yes, .bool), (long, .long), (string, .string), (blob, .blob),
    (address, .address), (symbol, .symbol), (keyword, .keyword), (list, .list), (vector, .vector),
    (map, .map), (set, .set), (blobMap, .blobMap), (ledger, .ledger)]

namespace Value

/-- The first byte of an encoding tells the kind. -/
theorem lookup_head?_encode (v : Value) (s : List UInt8) :
    (v.encode ++ s).head?.bind (List.lookup · Tag.kinds) = some v.kind := by
  cases v with
  | bool b => cases b <;> rfl
  | _ => rfl

/-- The first byte tells the kind. -/
theorem kind_eq_of_encode_append_eq {v w : Value} {s t : List UInt8}
    (h : v.encode ++ s = w.encode ++ t) : v.kind = w.kind := by
  have hv := lookup_head?_encode v s
  rw [h, lookup_head?_encode] at hv
  exact (Option.some.inj hv).symm

/-! ## The lengths in a value -/

mutual

/-- The lengths that an encoding holds: of texts and names in bytes, of blobs, and of collections,
at every level of nesting. -/
def lengths : Value → List Nat
  | .nil | .bool _ | .long _ | .address _ => []
  | .string s => [(Text.utf8 s).length]
  | .blob b => [b.bytes.length]
  | .symbol s => [(Text.utf8 s.name).length]
  | .keyword k => [(Text.utf8 k.name).length]
  | .list xs => xs.length :: lengthsOfItems xs
  | .vector xs => xs.length :: lengthsOfItems xs
  | .map ⟨es⟩ => es.length :: lengthsOfEntries es
  | .set ⟨xs⟩ => xs.length :: lengthsOfItems xs
  | .blobMap ⟨es⟩ => es.length :: lengthsOfBlobEntries es
  | .ledger ⟨_, as⟩ => as.length :: lengthsOfAccounts as
termination_by structural v => v

def lengthsOfItems : List Value → List Nat
  | [] => []
  | v :: vs => lengths v ++ lengthsOfItems vs
termination_by structural vs => vs

def lengthsOfEntries : List (Value × Value) → List Nat
  | [] => []
  | (k, v) :: es => lengths k ++ lengths v ++ lengthsOfEntries es
termination_by structural es => es

def lengthsOfBlobEntries : List (Blob × Value) → List Nat
  | [] => []
  | (k, v) :: es => k.bytes.length :: lengths v ++ lengthsOfBlobEntries es
termination_by structural es => es

def lengthsOfAccounts : List (Account Value) → List Nat
  | [] => []
  | ⟨_, _, ⟨env⟩, ⟨holdings⟩⟩ :: as =>
    (env.length :: lengthsOfEntries env) ++ (holdings.length :: lengthsOfBlobEntries holdings) ++
      lengthsOfAccounts as
termination_by structural as => as

end

/-! ## Taking encodings apart -/

open Bytes

mutual

/-- What begins with the encodings of two values begins with one value only. -/
theorem encode_append_inj {v w : Value} {s t : List UInt8} (hv : Fit v.lengths)
    (hw : Fit w.lengths) (h : v.encode ++ s = w.encode ++ t) : v = w ∧ s = t := by
  have hk := kind_eq_of_encode_append_eq h
  cases v with
  | nil => cases w with
    | nil => exact ⟨rfl, (List.cons.inj h).2⟩
    | _ => cases hk
  | bool a => cases w with
    | bool b =>
      have hab : a = b := by cases a <;> cases b <;> first | rfl | cases (List.cons.inj h).1
      subst hab
      exact ⟨rfl, List.append_cancel_left h⟩
    | _ => cases hk
  | long a => cases w with
    | long b =>
      obtain ⟨rfl, hst⟩ := ofInt64_append_inj (List.cons.inj h).2
      exact ⟨rfl, hst⟩
    | _ => cases hk
  | string a => cases w with
    | string b =>
      obtain ⟨rfl, hst⟩ := withLength_utf8_append_inj (fit_cons.mp hv).1 (fit_cons.mp hw).1
        (List.cons.inj h).2
      exact ⟨rfl, hst⟩
    | _ => cases hk
  | blob a => cases w with
    | blob b =>
      obtain ⟨hab, hst⟩ := withLength_append_inj (fit_cons.mp hv).1 (fit_cons.mp hw).1
        (List.cons.inj h).2
      exact ⟨congrArg (blob ⟨·⟩) hab, hst⟩
    | _ => cases hk
  | address a => cases w with
    | address b =>
      obtain ⟨hab, hst⟩ := ofUInt64_append_inj (List.cons.inj h).2
      exact ⟨congrArg (address ⟨·⟩) hab, hst⟩
    | _ => cases hk
  | symbol a => cases w with
    | symbol b =>
      obtain ⟨hab, hst⟩ := withLength_utf8_append_inj (fit_cons.mp hv).1 (fit_cons.mp hw).1
        (List.cons.inj h).2
      exact ⟨congrArg (symbol ⟨·⟩) hab, hst⟩
    | _ => cases hk
  | keyword a => cases w with
    | keyword b =>
      obtain ⟨hab, hst⟩ := withLength_utf8_append_inj (fit_cons.mp hv).1 (fit_cons.mp hw).1
        (List.cons.inj h).2
      exact ⟨congrArg (keyword ⟨·⟩) hab, hst⟩
    | _ => cases hk
  | list xs => cases w with
    | list ys =>
      simp only [lengths, fit_cons] at hv hw
      simp only [encode, List.cons_append, List.append_assoc, List.cons.injEq, true_and] at h
      obtain ⟨hxy, hst⟩ := counted_append_inj hv.1 hw.1 h fun hlen h ↦
        encodeItems_append_inj hlen hv.2 hw.2 h
      exact ⟨congrArg list hxy, hst⟩
    | _ => cases hk
  | vector xs => cases w with
    | vector ys =>
      simp only [lengths, fit_cons] at hv hw
      simp only [encode, List.cons_append, List.append_assoc, List.cons.injEq, true_and] at h
      obtain ⟨hxy, hst⟩ := counted_append_inj hv.1 hw.1 h fun hlen h ↦
        encodeItems_append_inj hlen hv.2 hw.2 h
      exact ⟨congrArg vector hxy, hst⟩
    | _ => cases hk
  | map m => cases w with
    | map m' =>
      simp only [lengths, fit_cons] at hv hw
      simp only [encode, List.cons_append, List.append_assoc, List.cons.injEq, true_and] at h
      obtain ⟨hm, hst⟩ := counted_append_inj hv.1 hw.1 h fun hlen h ↦
        encodeEntries_append_inj hlen hv.2 hw.2 h
      exact ⟨congrArg (map ⟨·⟩) hm, hst⟩
    | _ => cases hk
  | set xs => cases w with
    | set ys =>
      simp only [lengths, fit_cons] at hv hw
      simp only [encode, List.cons_append, List.append_assoc, List.cons.injEq, true_and] at h
      obtain ⟨hxy, hst⟩ := counted_append_inj hv.1 hw.1 h fun hlen h ↦
        encodeItems_append_inj hlen hv.2 hw.2 h
      exact ⟨congrArg (set ⟨·⟩) hxy, hst⟩
    | _ => cases hk
  | blobMap m => cases w with
    | blobMap m' =>
      simp only [lengths, fit_cons] at hv hw
      simp only [encode, List.cons_append, List.append_assoc, List.cons.injEq, true_and] at h
      obtain ⟨hm, hst⟩ := counted_append_inj hv.1 hw.1 h fun hlen h ↦
        encodeBlobEntries_append_inj hlen hv.2 hw.2 h
      exact ⟨congrArg (blobMap ⟨·⟩) hm, hst⟩
    | _ => cases hk
  | ledger l => cases w with
    | ledger l' =>
      simp only [lengths, fit_cons] at hv hw
      simp only [encode, List.cons_append, List.append_assoc, List.cons.injEq, true_and] at h
      obtain ⟨htime, h⟩ := ofInt64_append_inj h
      obtain ⟨haccounts, hst⟩ := counted_append_inj hv.1 hw.1 h fun hlen h ↦
        encodeAccounts_append_inj hlen hv.2 hw.2 h
      exact ⟨congrArg ledger (congr (congrArg Ledger.mk htime) haccounts), hst⟩
    | _ => cases hk
termination_by structural v

/-- As many items, one after the other. -/
theorem encodeItems_append_inj {xs ys : List Value} {s t : List UInt8}
    (hlen : xs.length = ys.length) (hx : Fit (lengthsOfItems xs)) (hy : Fit (lengthsOfItems ys))
    (h : encodeItems xs ++ s = encodeItems ys ++ t) : xs = ys ∧ s = t := by
  cases xs with
  | nil =>
    cases ys with
    | nil => exact ⟨rfl, h⟩
    | cons => cases hlen
  | cons x xs =>
    cases ys with
    | nil => cases hlen
    | cons y ys =>
      simp only [lengthsOfItems, fit_append] at hx hy
      simp only [encodeItems, List.append_assoc] at h
      obtain ⟨hxy, h⟩ := encode_append_inj hx.1 hy.1 h
      obtain ⟨hrest, hst⟩ := encodeItems_append_inj (Nat.succ.inj hlen) hx.2 hy.2 h
      exact ⟨by rw [hxy, hrest], hst⟩
termination_by structural xs

theorem encodeEntries_append_inj {es fs : List (Value × Value)} {s t : List UInt8}
    (hlen : es.length = fs.length) (he : Fit (lengthsOfEntries es))
    (hf : Fit (lengthsOfEntries fs)) (h : encodeEntries es ++ s = encodeEntries fs ++ t) :
    es = fs ∧ s = t := by
  cases es with
  | nil =>
    cases fs with
    | nil => exact ⟨rfl, h⟩
    | cons => cases hlen
  | cons e es =>
    cases fs with
    | nil => cases hlen
    | cons f fs =>
      obtain ⟨k, v⟩ := e
      obtain ⟨l, w⟩ := f
      simp only [lengthsOfEntries, fit_append] at he hf
      simp only [encodeEntries, List.append_assoc] at h
      obtain ⟨hkey, h⟩ := encode_append_inj he.1.1 hf.1.1 h
      obtain ⟨hvalue, h⟩ := encode_append_inj he.1.2 hf.1.2 h
      obtain ⟨hrest, hst⟩ := encodeEntries_append_inj (Nat.succ.inj hlen) he.2 hf.2 h
      exact ⟨by rw [hkey, hvalue, hrest], hst⟩
termination_by structural es

theorem encodeBlobEntries_append_inj {es fs : List (Blob × Value)} {s t : List UInt8}
    (hlen : es.length = fs.length) (he : Fit (lengthsOfBlobEntries es))
    (hf : Fit (lengthsOfBlobEntries fs))
    (h : encodeBlobEntries es ++ s = encodeBlobEntries fs ++ t) : es = fs ∧ s = t := by
  cases es with
  | nil =>
    cases fs with
    | nil => exact ⟨rfl, h⟩
    | cons => cases hlen
  | cons e es =>
    cases fs with
    | nil => cases hlen
    | cons f fs =>
      obtain ⟨⟨k⟩, v⟩ := e
      obtain ⟨⟨l⟩, w⟩ := f
      simp only [lengthsOfBlobEntries, fit_append, fit_cons] at he hf
      simp only [encodeBlobEntries, List.append_assoc] at h
      obtain ⟨hkey, h⟩ := withLength_append_inj he.1.1 hf.1.1 h
      obtain ⟨hvalue, h⟩ := encode_append_inj he.1.2 hf.1.2 h
      obtain ⟨hrest, hst⟩ := encodeBlobEntries_append_inj (Nat.succ.inj hlen) he.2 hf.2 h
      exact ⟨by rw [hkey, hvalue, hrest], hst⟩
termination_by structural es

theorem encodeAccounts_append_inj {as bs : List (Account Value)} {s t : List UInt8}
    (hlen : as.length = bs.length) (ha : Fit (lengthsOfAccounts as))
    (hb : Fit (lengthsOfAccounts bs)) (h : encodeAccounts as ++ s = encodeAccounts bs ++ t) :
    as = bs ∧ s = t := by
  cases as with
  | nil =>
    cases bs with
    | nil => exact ⟨rfl, h⟩
    | cons => cases hlen
  | cons a as =>
    cases bs with
    | nil => cases hlen
    | cons b bs =>
      obtain ⟨balance, sequence, ⟨env⟩, ⟨holdings⟩⟩ := a
      obtain ⟨balance', sequence', ⟨env'⟩, ⟨holdings'⟩⟩ := b
      simp only [lengthsOfAccounts, fit_append, fit_cons] at ha hb
      obtain ⟨⟨⟨henvLen, henv⟩, hholdLen, hhold⟩, ha⟩ := ha
      obtain ⟨⟨⟨henvLen', henv'⟩, hholdLen', hhold'⟩, hb⟩ := hb
      simp only [encodeAccounts, List.append_assoc, List.cons_append] at h
      obtain ⟨hbalance, h⟩ := ofInt64_append_inj h
      obtain ⟨hsequence, h⟩ := ofInt64_append_inj h
      obtain ⟨henvEq, h⟩ := counted_append_inj henvLen henvLen' (List.cons.inj h).2 fun hlen h ↦
        encodeEntries_append_inj hlen henv henv' h
      obtain ⟨hholdEq, h⟩ := counted_append_inj hholdLen hholdLen' (List.cons.inj h).2 fun hlen h ↦
        encodeBlobEntries_append_inj hlen hhold hhold' h
      obtain ⟨hrest, hst⟩ := encodeAccounts_append_inj (Nat.succ.inj hlen) ha hb h
      exact ⟨by rw [hbalance, hsequence, henvEq, hholdEq, hrest], hst⟩
termination_by structural as

end

end Value

/-- The lengths that the encoding of a ledger holds. -/
def Ledger.lengths (s : Ledger Value) : List Nat := (Value.ledger s).lengths

/-- **The encoding is prefix-free.** If the encodings of two values, with any bytes after them, are
the same, then the values are the same and so are the bytes after them; hence the encoding alone
determines the value.  The same holds of ledgers, so two ledgers with one encoding have the same
time and the same account, with all its fields, at every address. -/
theorem encode_prefix_free :
    (∀ (v w : Value) (s t : List UInt8), Bytes.Fit v.lengths → Bytes.Fit w.lengths →
      v.encode ++ s = w.encode ++ t → v = w ∧ s = t) ∧
    (∀ v w : Value, Bytes.Fit v.lengths → Bytes.Fit w.lengths → v.encode = w.encode → v = w) ∧
    (∀ (l m : Ledger Value) (s t : List UInt8), Bytes.Fit l.lengths → Bytes.Fit m.lengths →
      l.encode ++ s = m.encode ++ t → l = m ∧ s = t) ∧
    (∀ l m : Ledger Value, Bytes.Fit l.lengths → Bytes.Fit m.lengths → l.encode = m.encode →
      l.timestamp = m.timestamp ∧ ∀ a, l.account? a = m.account? a) := by
  have hvalue : ∀ (v w : Value) (s t : List UInt8), Bytes.Fit v.lengths → Bytes.Fit w.lengths →
      v.encode ++ s = w.encode ++ t → v = w ∧ s = t :=
    fun v w s t hv hw h ↦ Value.encode_append_inj hv hw h
  have hledger : ∀ (l m : Ledger Value) (s t : List UInt8), Bytes.Fit l.lengths →
      Bytes.Fit m.lengths → l.encode ++ s = m.encode ++ t → l = m ∧ s = t := by
    intro l m s t hl hm h
    obtain ⟨hlm, hst⟩ := hvalue (.ledger l) (.ledger m) s t hl hm h
    exact ⟨Value.ledger.inj hlm, hst⟩
  refine ⟨hvalue, ?_, hledger, ?_⟩
  · intro v w hv hw h
    exact (hvalue v w [] [] hv hw (congrArg (· ++ []) h)).1
  · intro l m hl hm h
    obtain ⟨rfl, -⟩ := hledger l m [] [] hl hm (congrArg (· ++ []) h)
    exact ⟨rfl, fun a ↦ rfl⟩

/-- A ledger whose account has defined a map, with the entries of the map put in in two orders. -/
theorem encode_prefix_free_reordered :
    let a : Value × Value := (.keyword ⟨"a"⟩, .list [.string "é", .nil])
    let b : Value × Value := (.symbol ⟨"b"⟩, .set (.ofList [.bool true, .long (-1)]))
    let holdings : BlobMap := .ofList [(Address.toBlob ⟨3⟩, .blob ⟨[1, 2]⟩)]
    let l : Ledger Value :=
      ⟨7, [⟨100, 1, .ofList [(.symbol ⟨"m"⟩, .map (.ofList [a, b]))], holdings⟩]⟩
    let m : Ledger Value :=
      ⟨7, [⟨100, 1, .ofList [(.symbol ⟨"m"⟩, .map (.ofList [b, a]))], holdings⟩]⟩
    Bytes.Fit l.lengths ∧ Bytes.Fit m.lengths ∧
      l.encode ++ [0x80] = m.encode ++ [0x80] ∧ l = m := by
  intro a b holdings l m
  have hl : Bytes.Fit l.lengths := by decide
  have hm : Bytes.Fit m.lengths := by decide
  have h : l.encode ++ [0x80] = m.encode ++ [0x80] := by decide +kernel
  obtain ⟨-, -, hledger, -⟩ := encode_prefix_free
  exact ⟨hl, hm, h, (hledger l m _ _ hl hm h).1⟩

end MeteredLedger
