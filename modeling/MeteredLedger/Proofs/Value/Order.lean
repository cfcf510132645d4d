import MeteredLedger.Proofs.Order.Lexicographic
import MeteredLedger.Value.Order

/-!
# The order of values is total

Values are nested in their own containers, so the laws of their order are proved by induction over
the parts of a value, with the laws at the parts as hypotheses.  Values of different kinds are a
matter of ranks, and values of one kind are compared by their payloads, which are lexicographic
comparisons of the parts.
-/

namespace MeteredLedger

/-! ## The atoms -/

instance : Std.TransCmp Text.compareUtf8 := inferInstanceAs (Std.TransCmp (compareOn Text.utf8))

instance : Std.TransOrd Symbol :=
  inferInstanceAs (Std.TransCmp (compareOn fun s : Symbol ↦ Text.utf8 s.name))

instance : Std.TransOrd Keyword :=
  inferInstanceAs (Std.TransCmp (compareOn fun k : Keyword ↦ Text.utf8 k.name))

instance : Std.TransOrd Blob := inferInstanceAs (Std.TransCmp (compareOn Blob.bytes))

instance : Std.LawfulEqOrd Blob where
  compare_self {a} := Std.ReflOrd.compare_self (a := a.bytes)
  eq_of_compare {a _} h := congrArg Blob.mk (Std.LawfulEqOrd.eq_of_compare (a := a.bytes) h)

instance : Std.TransOrd Address := inferInstanceAs (Std.TransCmp (compareOn Address.number))

namespace Value

/-! ## Induction over the parts of a value -/

/-- All values directly inside a value have a property. -/
def EachPart (P : Value → Prop) (v : Value) : Prop :=
  match v with
  | list xs | vector xs => ∀ x ∈ xs, P x
  | map m => ∀ e ∈ m.entries, P e.1 ∧ P e.2
  | set s => ∀ x ∈ s.items, P x
  | blobMap m => ∀ e ∈ m.entries, P e.2
  | ledger s => ∀ a ∈ s.accounts,
      (∀ e ∈ a.environment.entries, P e.1 ∧ P e.2) ∧ ∀ e ∈ a.holdings.entries, P e.2
  | _ => True

section Induction

variable {P : Value → Prop}

mutual

/-- A property that passes from the parts of a value to the value holds of every value. -/
theorem of_eachPart (h : ∀ v, v.EachPart P → P v) (v : Value) : P v := by
  refine h v ?_
  match v with
  | .list xs => exact items_of_eachPart h xs
  | .vector xs => exact items_of_eachPart h xs
  | .map ⟨es⟩ => exact entries_of_eachPart h es
  | .set ⟨xs⟩ => exact items_of_eachPart h xs
  | .blobMap ⟨es⟩ => exact holdings_of_eachPart h es
  | .ledger ⟨_, as⟩ => exact accounts_of_eachPart h as
  | .nil | .bool _ | .long _ | .string _ | .blob _ | .address _ | .symbol _ | .keyword _ => trivial
termination_by structural v

/-- What passes from parts to values holds of all items. -/
theorem items_of_eachPart (h : ∀ v, v.EachPart P → P v) (xs : List Value) : ∀ x ∈ xs, P x := by
  match xs with
  | [] => exact List.forall_mem_nil _
  | x :: xs => exact List.forall_mem_cons.mpr ⟨of_eachPart h x, items_of_eachPart h xs⟩
termination_by structural xs

/-- What passes from parts to values holds of all keys and values. -/
theorem entries_of_eachPart (h : ∀ v, v.EachPart P → P v) (es : List (Value × Value)) :
    ∀ e ∈ es, P e.1 ∧ P e.2 := by
  match es with
  | [] => exact List.forall_mem_nil _
  | (k, v) :: es =>
    exact List.forall_mem_cons.mpr
      ⟨⟨of_eachPart h k, of_eachPart h v⟩, entries_of_eachPart h es⟩
termination_by structural es

theorem holdings_of_eachPart (h : ∀ v, v.EachPart P → P v) (es : List (Blob × Value)) :
    ∀ e ∈ es, P e.2 := by
  match es with
  | [] => exact List.forall_mem_nil _
  | (_, v) :: es =>
    exact List.forall_mem_cons.mpr ⟨of_eachPart h v, holdings_of_eachPart h es⟩
termination_by structural es

/-- What passes from parts to values holds of all that accounts have and hold. -/
theorem accounts_of_eachPart (h : ∀ v, v.EachPart P → P v) (as : List (Account Value)) :
    ∀ a ∈ as, (∀ e ∈ a.environment.entries, P e.1 ∧ P e.2) ∧ ∀ e ∈ a.holdings.entries, P e.2 := by
  match as with
  | [] => exact List.forall_mem_nil _
  | ⟨_, _, ⟨env⟩, ⟨holdings⟩⟩ :: as =>
    exact List.forall_mem_cons.mpr
      ⟨⟨entries_of_eachPart h env, holdings_of_eachPart h holdings⟩, accounts_of_eachPart h as⟩
termination_by structural as

end

end Induction

/-! ## Containers are compared lexicographically -/

/-- Entries are compared by their keys, then by their values. -/
def compareEntry {κ : Type} [Ord κ] : κ × Value → κ × Value → Ordering :=
  compareLex (compareOn Prod.fst) (compareOn Prod.snd)

/-- Accounts are compared by balance, sequence number, definitions and holdings. -/
def compareAccount : Account Value → Account Value → Ordering :=
  compareLex (compareLex (compareLex (compareOn (·.balance)) (compareOn (·.sequence)))
    fun a b ↦ compareEntries a.environment.entries b.environment.entries)
    fun a b ↦ compareHoldings a.holdings.entries b.holdings.entries

/-- Items are compared lexicographically. -/
theorem compareItems_eq_lex : compareItems = List.compareLex compare :=
  eq_compareLex_list rfl (fun _ _ ↦ rfl) (fun _ _ ↦ rfl) (fun _ _ _ _ ↦ rfl)

/-- Entries are compared lexicographically, each by its key and then by its value. -/
theorem compareEntries_eq_lex : compareEntries = List.compareLex compareEntry :=
  eq_compareLex_list rfl (fun _ _ ↦ rfl) (fun _ _ ↦ rfl) (fun _ _ _ _ ↦ rfl)

theorem compareHoldings_eq_lex : compareHoldings = List.compareLex compareEntry :=
  eq_compareLex_list rfl (fun _ _ ↦ rfl) (fun _ _ ↦ rfl) (fun _ _ _ _ ↦ rfl)

/-- Accounts are compared lexicographically, each by its four parts. -/
theorem compareAccounts_eq_lex : compareAccounts = List.compareLex compareAccount :=
  eq_compareLex_list rfl (fun _ _ ↦ rfl) (fun _ _ ↦ rfl) (fun _ _ _ _ ↦ rfl)

end Value

/-! ## Kinds and payloads -/

/-- No two kinds have the same place. -/
theorem Kind.rank_inj {k l : Kind} (h : k.rank = l.rank) : k = l := by
  cases k <;> cases l <;> first | rfl | cases h

/-- What a value of a kind is made of. -/
def Kind.Payload (k : Kind) : Type :=
  match k with
  | nil => Unit
  | bool => Bool
  | long => Int64
  | string => String
  | blob => Blob
  | address => Address
  | symbol => Symbol
  | keyword => Keyword
  | list | vector => List Value
  | map => Map
  | set => ValueSet
  | blobMap => BlobMap
  | ledger => Ledger Value

namespace Value

/-- The value of a kind with a payload. -/
def ofPayload (k : Kind) (p : k.Payload) : Value :=
  match k, p with
  | .nil, _ => nil
  | .bool, b => bool b
  | .long, n => long n
  | .string, s => string s
  | .blob, b => blob b
  | .address, a => address a
  | .symbol, s => symbol s
  | .keyword, k => keyword k
  | .list, xs => list xs
  | .vector, xs => vector xs
  | .map, m => map m
  | .set, s => set s
  | .blobMap, m => blobMap m
  | .ledger, s => ledger s

theorem kind_ofPayload (k : Kind) (p : k.Payload) : (ofPayload k p).kind = k := by
  cases k <;> rfl

/-- A value is made of its kind and a payload. -/
theorem exists_ofPayload {v : Value} {k : Kind} (h : v.kind = k) : ∃ p, v = ofPayload k p := by
  subst h
  cases v with
  | nil => exact ⟨(), rfl⟩
  | _ x => exact ⟨x, rfl⟩

variable {v w : Value}

/-- Values of different kinds are ordered by kind. -/
theorem compare_of_kind_ne (h : v.kind ≠ w.kind) :
    compare v w = Ord.compare v.kind.rank w.kind.rank := by
  cases v <;> cases w <;> first | rfl | exact absurd rfl h

/-- A value of an earlier kind comes first. -/
theorem compare_of_rank_lt (h : v.kind.rank < w.kind.rank) : compare v w = .lt := by
  rw [compare_of_kind_ne fun hk ↦ absurd (hk ▸ h) (Nat.lt_irrefl _)]
  exact Nat.compare_eq_lt.mpr h

/-- What comes first is not of a later kind. -/
theorem rank_le_of_compare (h : compare v w = .lt) : v.kind.rank ≤ w.kind.rank := by
  by_cases hk : v.kind = w.kind
  · exact Nat.le_of_eq (congrArg Kind.rank hk)
  · rw [compare_of_kind_ne hk] at h
    exact Nat.le_of_lt (Nat.compare_eq_lt.mp h)

/-- The laws hold at a value if they hold at its payload among the payloads of its kind. -/
theorem ordersAt_ofPayload {k : Kind} {p : k.Payload}
    (h : OrdersAt (fun p q ↦ compare (ofPayload k p) (ofPayload k q)) p) :
    OrdersAt compare (ofPayload k p) where
  swap w := by
    by_cases hk : w.kind = k
    · obtain ⟨q, rfl⟩ := exists_ofPayload hk
      exact h.swap q
    · have hne : w.kind ≠ (ofPayload k p).kind := (kind_ofPayload k p).symm ▸ hk
      rw [compare_of_kind_ne hne, compare_of_kind_ne hne.symm]
      exact Std.OrientedOrd.eq_swap
  trans {v w} huv hvw := by
    have hv := rank_le_of_compare huv
    have hw := rank_le_of_compare hvw
    rw [kind_ofPayload] at hv
    rcases Nat.lt_or_eq_of_le (Nat.le_trans hv hw) with hlt | heq
    · exact compare_of_rank_lt ((kind_ofPayload k p).symm ▸ hlt)
    · -- All three have the same rank, so they are of the same kind.
      obtain ⟨q, rfl⟩ := exists_ofPayload (Kind.rank_inj (l := k) (by omega) : v.kind = k)
      obtain ⟨r, rfl⟩ := exists_ofPayload (Kind.rank_inj heq.symm)
      exact h.trans huv hvw
  congr_left huv := by rw [eq_of_compare huv]
  congr_right hvw := by rw [eq_of_compare hvw]

/-! ## The laws -/

/-- The laws at an entry follow from those at its key and its value. -/
theorem ordersAt_compareEntry {κ : Type} [Ord κ] {e : κ × Value} (hkey : OrdersAt Ord.compare e.1)
    (hvalue : OrdersAt compare e.2) : OrdersAt compareEntry e :=
  (hkey.on Prod.fst).lex (hvalue.on Prod.snd)

theorem ordersAt_compareEntries {es : List (Value × Value)}
    (h : ∀ e ∈ es, OrdersAt compare e.1 ∧ OrdersAt compare e.2) : OrdersAt compareEntries es := by
  rw [compareEntries_eq_lex]
  exact .list fun e he ↦ ordersAt_compareEntry (h e he).1 (h e he).2

theorem ordersAt_compareHoldings {es : List (Blob × Value)}
    (h : ∀ e ∈ es, OrdersAt compare e.2) : OrdersAt compareHoldings es := by
  rw [compareHoldings_eq_lex]
  exact .list fun e he ↦ ordersAt_compareEntry (.of_transCmp _ _) (h e he)

/-- The laws at an account follow from those at what it has and holds. -/
theorem ordersAt_compareAccount {a : Account Value}
    (henvironment : OrdersAt compareEntries a.environment.entries)
    (hholdings : OrdersAt compareHoldings a.holdings.entries) : OrdersAt compareAccount a :=
  (((OrdersAt.of_transCmp _ a.balance).on Account.balance).lex
    ((OrdersAt.of_transCmp _ a.sequence).on Account.sequence)).lex
    (henvironment.on fun a : Account Value ↦ a.environment.entries) |>.lex
    (hholdings.on fun a : Account Value ↦ a.holdings.entries)

theorem ordersAt_compareItems {xs : List Value} (h : ∀ x ∈ xs, OrdersAt compare x) :
    OrdersAt compareItems xs := by
  rw [compareItems_eq_lex]
  exact .list h

/-- The laws hold at every value. -/
theorem ordersAt_compare (v : Value) : OrdersAt compare v := by
  refine of_eachPart (fun v hparts ↦ ?_) v
  cases v with
  | nil =>
      exact ordersAt_ofPayload (k := .nil) (p := ()) ⟨fun _ ↦ rfl, nofun, fun _ ↦ rfl, fun _ ↦ rfl⟩
  | bool b => exact ordersAt_ofPayload (k := .bool) (.of_transCmp Ord.compare b)
  | long n => exact ordersAt_ofPayload (k := .long) (.of_transCmp Ord.compare n)
  | string s => exact ordersAt_ofPayload (k := .string) (.of_transCmp Text.compareUtf8 s)
  | blob b => exact ordersAt_ofPayload (k := .blob) (.of_transCmp Ord.compare b)
  | address a => exact ordersAt_ofPayload (k := .address) (.of_transCmp Ord.compare a)
  | symbol s => exact ordersAt_ofPayload (k := .symbol) (.of_transCmp Ord.compare s)
  | keyword s => exact ordersAt_ofPayload (k := .keyword) (.of_transCmp Ord.compare s)
  | list xs => exact ordersAt_ofPayload (k := .list) (ordersAt_compareItems hparts)
  | vector xs => exact ordersAt_ofPayload (k := .vector) (ordersAt_compareItems hparts)
  | map m =>
      exact ordersAt_ofPayload (k := .map)
        ((ordersAt_compareEntries hparts).on SortedMap.entries)
  | set s =>
      exact ordersAt_ofPayload (k := .set)
        ((ordersAt_compareItems hparts).on SortedSet.items)
  | blobMap m =>
      exact ordersAt_ofPayload (k := .blobMap)
        ((ordersAt_compareHoldings hparts).on SortedMap.entries)
  | ledger s =>
      have haccounts : OrdersAt compareAccounts s.accounts := by
        rw [compareAccounts_eq_lex]
        exact .list fun a ha ↦ ordersAt_compareAccount (ordersAt_compareEntries (hparts a ha).1)
          (ordersAt_compareHoldings (hparts a ha).2)
      exact ordersAt_ofPayload (k := .ledger)
        (((OrdersAt.of_transCmp Ord.compare s.timestamp).on Ledger.timestamp).lex
          (haccounts.on Ledger.accounts))

instance : Std.TransOrd Value := OrdersAt.transCmp ordersAt_compare

instance : Std.LawfulEqOrd Value where
  eq_of_compare := eq_of_compare

end Value

end MeteredLedger
