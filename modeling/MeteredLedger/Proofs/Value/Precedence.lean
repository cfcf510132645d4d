import MeteredLedger.Proofs.Value.Order

/-!
# What comes before what

`Precedes` says in so many words which of two values comes first: kinds in the order in which they
are declared, numbers by size, texts and blobs by their bytes, containers lexicographically.  The
comparison decides it, at every depth of nesting, and is a total order.
-/

namespace MeteredLedger.Value

variable {v w : Value}

mutual

/-- The first value is of a kind that is declared earlier, or it is of the same kind as the second
and has the smaller payload. -/
inductive Precedes : Value → Value → Prop
  | kind {v w : Value} (h : v.ctorIdx < w.ctorIdx) : Precedes v w
  | bool : Precedes (bool false) (bool true)
  | long {m n : Int64} (h : m.toInt < n.toInt) : Precedes (long m) (long n)
  | string {s t : String} (h : Text.utf8 s < Text.utf8 t) : Precedes (string s) (string t)
  | blob {a b : Blob} (h : a.bytes < b.bytes) : Precedes (blob a) (blob b)
  | address {a b : Address} (h : a.toNat < b.toNat) : Precedes (address a) (address b)
  | symbol {s t : Symbol} (h : Text.utf8 s.name < Text.utf8 t.name) :
      Precedes (symbol s) (symbol t)
  | keyword {k l : Keyword} (h : Text.utf8 k.name < Text.utf8 l.name) :
      Precedes (keyword k) (keyword l)
  | list {xs ys : List Value} (h : List.Lex Precedes xs ys) : Precedes (list xs) (list ys)
  | vector {xs ys : List Value} (h : List.Lex Precedes xs ys) : Precedes (vector xs) (vector ys)
  | map {m n : Map} (h : List.Lex (Prod.Lex Precedes Precedes) m.entries n.entries) :
      Precedes (map m) (map n)
  | set {s t : ValueSet} (h : List.Lex Precedes s.items t.items) : Precedes (set s) (set t)
  | blobMap {m n : BlobMap}
      (h : List.Lex (Prod.Lex (fun a b ↦ a.bytes < b.bytes) Precedes) m.entries n.entries) :
      Precedes (blobMap m) (blobMap n)
  | timestamp {s t : Ledger Value} (h : s.timestamp.toInt < t.timestamp.toInt) :
      Precedes (ledger s) (ledger t)
  | accounts {s t : Ledger Value} (ht : s.timestamp = t.timestamp)
      (h : List.Lex AccountPrecedes s.accounts t.accounts) : Precedes (ledger s) (ledger t)

/-- The first account has the smaller balance or, where that is the same, the smaller sequence
number, then definitions, then holdings. -/
inductive AccountPrecedes : Account Value → Account Value → Prop
  | balance {a b : Account Value} (h : a.balance.toInt < b.balance.toInt) : AccountPrecedes a b
  | sequence {a b : Account Value} (hb : a.balance = b.balance)
      (h : a.sequence.toInt < b.sequence.toInt) : AccountPrecedes a b
  | environment {a b : Account Value} (hb : a.balance = b.balance) (hs : a.sequence = b.sequence)
      (h : List.Lex (Prod.Lex Precedes Precedes) a.environment.entries b.environment.entries) :
      AccountPrecedes a b
  | holdings {a b : Account Value} (hb : a.balance = b.balance) (hs : a.sequence = b.sequence)
      (he : a.environment = b.environment)
      (h : List.Lex (Prod.Lex (fun a b ↦ a.bytes < b.bytes) Precedes)
        a.holdings.entries b.holdings.entries) : AccountPrecedes a b

end

/-! ## Atoms -/

/-- Bytes are compared as lists are ordered. -/
theorem compare_bytes_eq_lt_iff {as bs : List UInt8} : Ord.compare as bs = .lt ↔ as < bs :=
  compareLex_list_eq_lt_iff (fun _ _ ↦ Std.compare_eq_iff_eq) (fun _ _ _ ↦ Std.compare_eq_lt) bs

/-- Blobs are compared by their bytes. -/
theorem compare_blob_eq_lt_iff {a b : Blob} : Ord.compare a b = .lt ↔ a.bytes < b.bytes :=
  compare_bytes_eq_lt_iff

/-- Longs are compared as numbers with a sign. -/
theorem compare_int64_eq_lt_iff {m n : Int64} : Ord.compare m n = .lt ↔ m.toInt < n.toInt :=
  Std.compare_eq_lt.trans Int64.lt_iff_toInt_lt

/-- Addresses are compared as numbers without a sign. -/
theorem compare_address_eq_lt_iff {a b : Address} : Ord.compare a b = .lt ↔ a.toNat < b.toNat :=
  (Std.compare_eq_lt (a := a.number)).trans UInt64.lt_iff_toNat_lt

/-! ## Kinds -/

/-- The comparison decides what the value precedes. -/
def IsPlaced (v : Value) : Prop := ∀ w, compare v w = .lt ↔ v.Precedes w

/-- The kinds are in the order of the constructors. -/
theorem rank_kind (v : Value) : v.kind.rank = v.ctorIdx := by
  cases v <;> rfl

/-- Between kinds, precedence is a matter of ranks. -/
theorem precedes_iff_of_kind_ne (h : v.kind ≠ w.kind) :
    v.Precedes w ↔ v.kind.rank < w.kind.rank := by
  rw [rank_kind, rank_kind]
  refine ⟨fun hvw ↦ ?_, .kind⟩
  cases hvw with
  | kind hlt => exact hlt
  | _ => exact absurd rfl h

/-- It is enough that the comparison decides what a value precedes among those of its kind. -/
theorem isPlaced_ofPayload {k : Kind} {p : k.Payload}
    (h : ∀ q, compare (ofPayload k p) (ofPayload k q) = .lt ↔
      (ofPayload k p).Precedes (ofPayload k q)) : (ofPayload k p).IsPlaced := by
  intro w
  by_cases hk : w.kind = k
  · obtain ⟨q, rfl⟩ := exists_ofPayload hk
    exact h q
  · have hne : (ofPayload k p).kind ≠ w.kind := by
      rw [kind_ofPayload]
      exact Ne.symm hk
    rw [compare_of_kind_ne hne, precedes_iff_of_kind_ne hne, Nat.compare_eq_lt]

/-! ## Containers -/

/-- An entry comes first by its key, or by its value if the keys are equal. -/
theorem compareEntry_eq_lt_iff {κ : Type} [Ord κ] [Std.LawfulEqOrd κ] {r : κ → κ → Prop}
    {e : κ × Value} (hkey : ∀ k, Ord.compare e.1 k = .lt ↔ r e.1 k)
    (hvalue : e.2.IsPlaced) (e' : κ × Value) :
    compareEntry e e' = .lt ↔ Prod.Lex r Precedes e e' := by
  rw [compareEntry, compareLex, Ordering.then_eq_lt, Prod.lex_def]
  exact or_congr (hkey _) (and_congr Std.compare_eq_iff_eq (hvalue _))

theorem compareEntry_eq_eq_iff {κ : Type} [Ord κ] [Std.LawfulEqOrd κ] (e e' : κ × Value) :
    compareEntry e e' = .eq ↔ e = e' := by
  rw [compareEntry, compareLex, Ordering.then_eq_eq, Prod.ext_iff]
  exact and_congr Std.compare_eq_iff_eq Std.compare_eq_iff_eq

/-- Items come first lexicographically. -/
theorem compareItems_eq_lt_iff {xs : List Value} (h : ∀ x ∈ xs, x.IsPlaced) (ys : List Value) :
    compareItems xs ys = .lt ↔ List.Lex Precedes xs ys := by
  rw [compareItems_eq_lex]
  exact compareLex_list_eq_lt_iff (fun _ _ ↦ compare_eq_iff) h ys

theorem compareEntries_eq_lt_iff {es : List (Value × Value)}
    (h : ∀ e ∈ es, e.1.IsPlaced ∧ e.2.IsPlaced) (es' : List (Value × Value)) :
    compareEntries es es' = .lt ↔ List.Lex (Prod.Lex Precedes Precedes) es es' := by
  rw [compareEntries_eq_lex]
  exact compareLex_list_eq_lt_iff compareEntry_eq_eq_iff
    (fun e he ↦ compareEntry_eq_lt_iff (h e he).1 (h e he).2) es'

theorem compareHoldings_eq_lt_iff {es : List (Blob × Value)}
    (h : ∀ e ∈ es, e.2.IsPlaced) (es' : List (Blob × Value)) :
    compareHoldings es es' = .lt ↔
      List.Lex (Prod.Lex (fun a b ↦ a.bytes < b.bytes) Precedes) es es' := by
  rw [compareHoldings_eq_lex]
  exact compareLex_list_eq_lt_iff compareEntry_eq_eq_iff
    (fun e he ↦ compareEntry_eq_lt_iff (fun _ ↦ compare_blob_eq_lt_iff) (h e he)) es'

theorem compareAccount_eq_eq_iff (a b : Account Value) : compareAccount a b = .eq ↔ a = b := by
  have h : compareAccounts [a] [b] = .eq ↔ [a] = [b] :=
    ⟨eq_of_compareAccounts, fun h ↦ h ▸ compareAccounts_self [a]⟩
  rw [compareAccounts_eq_lex, List.compareLex_cons_cons, Ordering.then_eq_eq, List.cons.injEq] at h
  simpa [List.compareLex] using h

/-- Accounts precede each other in their fields, one after another. -/
theorem accountPrecedes_iff {a b : Account Value} : AccountPrecedes a b ↔
    a.balance.toInt < b.balance.toInt ∨ a.balance = b.balance ∧
      (a.sequence.toInt < b.sequence.toInt ∨ a.sequence = b.sequence ∧
        (List.Lex (Prod.Lex Precedes Precedes) a.environment.entries b.environment.entries ∨
          a.environment = b.environment ∧
            List.Lex (Prod.Lex (fun a b ↦ a.bytes < b.bytes) Precedes)
              a.holdings.entries b.holdings.entries)) := by
  constructor
  · intro h
    cases h with
    | balance h => exact .inl h
    | sequence hb h => exact .inr ⟨hb, .inl h⟩
    | environment hb hs h => exact .inr ⟨hb, .inr ⟨hs, .inl h⟩⟩
    | holdings hb hs he h => exact .inr ⟨hb, .inr ⟨hs, .inr ⟨he, h⟩⟩⟩
  · rintro (h | ⟨hb, h | ⟨hs, h | ⟨he, h⟩⟩⟩)
    · exact .balance h
    · exact .sequence hb h
    · exact .environment hb hs h
    · exact .holdings hb hs he h

/-- An account comes first by the first of its four parts that differs. -/
theorem compareAccount_eq_lt_iff {a : Account Value}
    (henvironment : ∀ es, compareEntries a.environment.entries es = .lt ↔
      List.Lex (Prod.Lex Precedes Precedes) a.environment.entries es)
    (hholdings : ∀ es, compareHoldings a.holdings.entries es = .lt ↔
      List.Lex (Prod.Lex (fun a b ↦ a.bytes < b.bytes) Precedes) a.holdings.entries es)
    (b : Account Value) : compareAccount a b = .lt ↔ AccountPrecedes a b := by
  have henv : compareEntries a.environment.entries b.environment.entries = .eq ↔
      a.environment = b.environment := by
    rw [SortedMap.mk.injEq]
    exact ⟨eq_of_compareEntries, fun h ↦ h ▸ compareEntries_self _⟩
  rw [accountPrecedes_iff]
  simp only [compareAccount, compareLex, compareOn, Ordering.then_assoc, Ordering.then_eq_lt,
    compare_int64_eq_lt_iff, Std.compare_eq_iff_eq, henvironment, hholdings, henv]

theorem compareAccounts_eq_lt_iff {as : List (Account Value)}
    (h : ∀ a ∈ as, (∀ e ∈ a.environment.entries, e.1.IsPlaced ∧ e.2.IsPlaced) ∧
      ∀ e ∈ a.holdings.entries, e.2.IsPlaced)
    (bs : List (Account Value)) :
    compareAccounts as bs = .lt ↔ List.Lex AccountPrecedes as bs := by
  rw [compareAccounts_eq_lex]
  exact compareLex_list_eq_lt_iff compareAccount_eq_eq_iff (fun a ha ↦ compareAccount_eq_lt_iff
    (compareEntries_eq_lt_iff (h a ha).1) (compareHoldings_eq_lt_iff (h a ha).2)) bs

/-- Every value is placed, by induction over its parts. -/
theorem isPlaced (v : Value) : v.IsPlaced := by
  refine of_eachPart (fun v hparts ↦ ?_) v
  -- Within a kind, `Precedes` is the order of the payloads.
  cases v with
  | nil =>
      refine isPlaced_ofPayload (k := .nil) (p := ()) fun _ ↦ ⟨nofun, ?_⟩
      exact fun | .kind h => absurd h (Nat.lt_irrefl _)
  | bool b =>
      refine isPlaced_ofPayload (k := .bool) fun c ↦ ⟨fun h ↦ ?_, ?_⟩
      · cases b <;> cases c <;> first | exact .bool | cases h
      · exact fun | .kind h => absurd h (Nat.lt_irrefl _) | .bool => rfl
  | long n =>
      refine isPlaced_ofPayload (k := .long) fun q ↦ compare_int64_eq_lt_iff.trans ?_
      exact ⟨.long, fun | .kind h => absurd h (Nat.lt_irrefl _) | .long h => h⟩
  | string s =>
      refine isPlaced_ofPayload (k := .string) fun q ↦ compare_bytes_eq_lt_iff.trans ?_
      exact ⟨.string, fun | .kind h => absurd h (Nat.lt_irrefl _) | .string h => h⟩
  | blob b =>
      refine isPlaced_ofPayload (k := .blob) fun q ↦ compare_blob_eq_lt_iff.trans ?_
      exact ⟨.blob, fun | .kind h => absurd h (Nat.lt_irrefl _) | .blob h => h⟩
  | address a =>
      refine isPlaced_ofPayload (k := .address) fun q ↦ compare_address_eq_lt_iff.trans ?_
      exact ⟨.address, fun | .kind h => absurd h (Nat.lt_irrefl _) | .address h => h⟩
  | symbol s =>
      refine isPlaced_ofPayload (k := .symbol) fun q ↦ compare_bytes_eq_lt_iff.trans ?_
      exact ⟨.symbol, fun | .kind h => absurd h (Nat.lt_irrefl _) | .symbol h => h⟩
  | keyword k =>
      refine isPlaced_ofPayload (k := .keyword) fun q ↦ compare_bytes_eq_lt_iff.trans ?_
      exact ⟨.keyword, fun | .kind h => absurd h (Nat.lt_irrefl _) | .keyword h => h⟩
  | list xs =>
      refine isPlaced_ofPayload (k := .list) fun q ↦ (compareItems_eq_lt_iff hparts q).trans ?_
      exact ⟨.list, fun | .kind h => absurd h (Nat.lt_irrefl _) | .list h => h⟩
  | vector xs =>
      refine isPlaced_ofPayload (k := .vector) fun q ↦ (compareItems_eq_lt_iff hparts q).trans ?_
      exact ⟨.vector, fun | .kind h => absurd h (Nat.lt_irrefl _) | .vector h => h⟩
  | map m =>
      refine isPlaced_ofPayload (k := .map) fun q ↦
        (compareEntries_eq_lt_iff hparts q.entries).trans ?_
      exact ⟨.map, fun | .kind h => absurd h (Nat.lt_irrefl _) | .map h => h⟩
  | set s =>
      refine isPlaced_ofPayload (k := .set) fun q ↦ (compareItems_eq_lt_iff hparts q.items).trans ?_
      exact ⟨.set, fun | .kind h => absurd h (Nat.lt_irrefl _) | .set h => h⟩
  | blobMap m =>
      refine isPlaced_ofPayload (k := .blobMap) fun q ↦
        (compareHoldings_eq_lt_iff hparts q.entries).trans ?_
      exact ⟨.blobMap, fun | .kind h => absurd h (Nat.lt_irrefl _) | .blobMap h => h⟩
  | ledger s =>
      refine isPlaced_ofPayload (k := .ledger) fun t ↦ ?_
      have haccounts := compareAccounts_eq_lt_iff hparts t.accounts
      refine Ordering.then_eq_lt.trans ((or_congr compare_int64_eq_lt_iff
        (and_congr Std.compare_eq_iff_eq haccounts)).trans ⟨?_, ?_⟩)
      · rintro (h | ⟨ht, h⟩)
        · exact .timestamp h
        · exact .accounts ht h
      · exact fun
          | .kind h => absurd h (Nat.lt_irrefl _)
          | .timestamp h => .inl h
          | .accounts ht h => .inr ⟨ht, h⟩

/-- Values are totally ordered by what precedes what. -/
theorem compare_total :
    (∀ v w, compare v w = .eq ↔ v = w) ∧
    (∀ v w, compare w v = (compare v w).swap) ∧
    (∀ u v w, compare u v = .lt → compare v w = .lt → compare u w = .lt) ∧
    ∀ v w, compare v w = .lt ↔ v.Precedes w :=
  ⟨fun _ _ ↦ compare_eq_iff, fun v ↦ (ordersAt_compare v).swap,
    fun u _ _ ↦ (ordersAt_compare u).trans, isPlaced⟩

/-- Ledger states as keys of maps, told apart by a value that an account holds, and a set of such
maps. -/
theorem compare_total_ledger_keys :
    let state v : Value := ledger ⟨5, [⟨10, 2, ⟨[]⟩, ⟨[(⟨[7]⟩, v)]⟩⟩]⟩
    let u : Value := map ⟨[(state (long (-3)), set ⟨[nil, list []]⟩)]⟩
    let v : Value := map ⟨[(state (set ⟨[]⟩), nil), (state (blobMap ⟨[]⟩), nil)]⟩
    let w : Value := set ⟨[u, v]⟩
    (compare u v = .lt ∧ compare v w = .lt) ∧ compare u w = .lt ∧ u.Precedes v := by
  intro state u v w
  have huv : compare u v = .lt := rfl
  have hvw : compare v w = .lt := rfl
  obtain ⟨-, -, htrans, hiff⟩ := compare_total
  exact ⟨⟨huv, hvw⟩, htrans u v w huv hvw, (hiff u v).mp huv⟩

end MeteredLedger.Value
