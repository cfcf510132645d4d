import MeteredLedger.Value.Basic

/-!
# The order of values

Values are ordered by kind first, then by payload: longs and addresses as numbers, texts, names
and blobs by bytes, sequences and sets lexicographically, maps lexicographically by their
entries, ledger states by timestamp and then by their accounts.
-/

namespace MeteredLedger

namespace Kind

/-- The place of a kind in the order of kinds. -/
def rank : Kind → Nat
  | nil => 0
  | bool => 1
  | long => 2
  | string => 3
  | blob => 4
  | address => 5
  | symbol => 6
  | keyword => 7
  | list => 8
  | vector => 9
  | map => 10
  | set => 11
  | blobMap => 12
  | ledger => 13

end Kind

namespace Value

mutual

def compare : Value → Value → Ordering
  | .bool a, .bool b => Ord.compare a b
  | .long a, .long b => Ord.compare a b
  | .string a, .string b => Text.compareUtf8 a b
  | .blob a, .blob b => Ord.compare a b
  | .address a, .address b => Ord.compare a b
  | .symbol a, .symbol b => Ord.compare a b
  | .keyword a, .keyword b => Ord.compare a b
  | .list as, .list bs => compareItems as bs
  | .vector as, .vector bs => compareItems as bs
  | .map ⟨as⟩, .map ⟨bs⟩ => compareEntries as bs
  | .set ⟨as⟩, .set ⟨bs⟩ => compareItems as bs
  | .blobMap ⟨as⟩, .blobMap ⟨bs⟩ => compareHoldings as bs
  | .ledger ⟨t, as⟩, .ledger ⟨u, bs⟩ => (Ord.compare t u).then (compareAccounts as bs)
  | a, b => Ord.compare a.kind.rank b.kind.rank
termination_by structural a => a

def compareItems : List Value → List Value → Ordering
  | [], [] => .eq
  | [], _ :: _ => .lt
  | _ :: _, [] => .gt
  | a :: as, b :: bs => (compare a b).then (compareItems as bs)
termination_by structural as => as

def compareEntries : List (Value × Value) → List (Value × Value) → Ordering
  | [], [] => .eq
  | [], _ :: _ => .lt
  | _ :: _, [] => .gt
  | (k, a) :: as, (l, b) :: bs => ((compare k l).then (compare a b)).then (compareEntries as bs)
termination_by structural as => as

def compareHoldings : List (Blob × Value) → List (Blob × Value) → Ordering
  | [], [] => .eq
  | [], _ :: _ => .lt
  | _ :: _, [] => .gt
  | (k, a) :: as, (l, b) :: bs =>
    ((Ord.compare k l).then (compare a b)).then (compareHoldings as bs)
termination_by structural as => as

def compareAccounts : List (Account Value) → List (Account Value) → Ordering
  | [], [] => .eq
  | [], _ :: _ => .lt
  | _ :: _, [] => .gt
  | ⟨ba, sa, ⟨ea⟩, ⟨ha⟩⟩ :: as, ⟨bb, sb, ⟨eb⟩, ⟨hb⟩⟩ :: bs =>
    ((((Ord.compare ba bb).then (Ord.compare sa sb)).then (compareEntries ea eb)).then
      (compareHoldings ha hb)).then (compareAccounts as bs)
termination_by structural as => as

end

instance : Ord Value := ⟨compare⟩

/-- Values that compare as equal are of the same kind. -/
theorem kind_eq_of_compare {a b : Value} (h : compare a b = .eq) : a.kind = b.kind := by
  cases a <;> cases b <;> first | rfl | exact absurd h (by intro h; cases h)

mutual

/-- Values that compare as equal are equal. -/
theorem eq_of_compare {a b : Value} (h : compare a b = .eq) : a = b := by
  have hk := kind_eq_of_compare h
  cases a with
  | nil => cases b with
    | nil => rfl
    | _ => cases hk
  | bool x => cases b with
    | bool y => exact congrArg bool (Std.LawfulEqOrd.eq_of_compare h)
    | _ => cases hk
  | long x => cases b with
    | long y => exact congrArg long (Std.LawfulEqOrd.eq_of_compare h)
    | _ => cases hk
  | string x => cases b with
    | string y => exact congrArg string (Text.compareUtf8_eq_iff.1 h)
    | _ => cases hk
  | blob x => cases b with
    | blob y => exact congrArg (blob ⟨·⟩) (Std.LawfulEqOrd.eq_of_compare (α := List UInt8) h)
    | _ => cases hk
  | address x => cases b with
    | address y => exact congrArg (address ⟨·⟩) (Std.LawfulEqOrd.eq_of_compare (α := UInt64) h)
    | _ => cases hk
  | symbol x => cases b with
    | symbol y => exact congrArg (symbol ⟨·⟩) (Text.compareUtf8_eq_iff.1 h)
    | _ => cases hk
  | keyword x => cases b with
    | keyword y => exact congrArg (keyword ⟨·⟩) (Text.compareUtf8_eq_iff.1 h)
    | _ => cases hk
  | list x => cases b with
    | list y => exact congrArg list (eq_of_compareItems h)
    | _ => cases hk
  | vector x => cases b with
    | vector y => exact congrArg vector (eq_of_compareItems h)
    | _ => cases hk
  | map x => cases b with
    | map y => exact congrArg (fun es ↦ map ⟨es⟩) (eq_of_compareEntries h)
    | _ => cases hk
  | set x => cases b with
    | set y => exact congrArg (fun xs ↦ set ⟨xs⟩) (eq_of_compareItems h)
    | _ => cases hk
  | blobMap x => cases b with
    | blobMap y => exact congrArg (fun es ↦ blobMap ⟨es⟩) (eq_of_compareHoldings h)
    | _ => cases hk
  | ledger x => cases b with
    | ledger y =>
      obtain ⟨ht, ha⟩ := Ordering.then_eq_eq.1 h
      have ht : x.timestamp = y.timestamp := Std.LawfulEqOrd.eq_of_compare ht
      have ha : x.accounts = y.accounts := eq_of_compareAccounts ha
      exact congrArg ledger (congr (congrArg Ledger.mk ht) ha)
    | _ => cases hk
termination_by structural a

/-- Items that compare as equal are equal. -/
theorem eq_of_compareItems {as bs : List Value} (h : compareItems as bs = .eq) : as = bs := by
  match as, bs with
  | [], [] => rfl
  | [], _ :: _ => cases h
  | _ :: _, [] => cases h
  | a :: as, b :: bs =>
    obtain ⟨ha, has⟩ := Ordering.then_eq_eq.1 h
    rw [eq_of_compare ha, eq_of_compareItems has]
termination_by structural as

theorem eq_of_compareEntries {as bs : List (Value × Value)} (h : compareEntries as bs = .eq) :
    as = bs := by
  match as, bs with
  | [], [] => rfl
  | [], _ :: _ => cases h
  | _ :: _, [] => cases h
  | (k, a) :: as, (l, b) :: bs =>
    obtain ⟨he, has⟩ := Ordering.then_eq_eq.1 h
    obtain ⟨hk, ha⟩ := Ordering.then_eq_eq.1 he
    rw [eq_of_compare hk, eq_of_compare ha, eq_of_compareEntries has]
termination_by structural as

theorem eq_of_compareHoldings {as bs : List (Blob × Value)} (h : compareHoldings as bs = .eq) :
    as = bs := by
  match as, bs with
  | [], [] => rfl
  | [], _ :: _ => cases h
  | _ :: _, [] => cases h
  | (⟨k⟩, a) :: as, (⟨l⟩, b) :: bs =>
    obtain ⟨he, has⟩ := Ordering.then_eq_eq.1 h
    obtain ⟨hk, ha⟩ := Ordering.then_eq_eq.1 he
    have hkl : k = l := Std.LawfulEqOrd.eq_of_compare hk
    rw [hkl, eq_of_compare ha, eq_of_compareHoldings has]
termination_by structural as

theorem eq_of_compareAccounts {as bs : List (Account Value)} (h : compareAccounts as bs = .eq) :
    as = bs := by
  match as, bs with
  | [], [] => rfl
  | [], _ :: _ => cases h
  | _ :: _, [] => cases h
  | ⟨ba, sa, ⟨ea⟩, ⟨ha⟩⟩ :: as, ⟨bb, sb, ⟨eb⟩, ⟨hb⟩⟩ :: bs =>
    obtain ⟨h, has⟩ := Ordering.then_eq_eq.1 h
    obtain ⟨h, hh⟩ := Ordering.then_eq_eq.1 h
    obtain ⟨h, he⟩ := Ordering.then_eq_eq.1 h
    obtain ⟨hb, hs⟩ := Ordering.then_eq_eq.1 h
    rw [Std.LawfulEqOrd.eq_of_compare hb, Std.LawfulEqOrd.eq_of_compare hs,
      eq_of_compareEntries he, eq_of_compareHoldings hh, eq_of_compareAccounts has]
termination_by structural as

end

mutual

/-- A value compares as equal to itself. -/
theorem compare_self (a : Value) : compare a a = .eq := by
  cases a with
  | nil => rfl
  | bool x => exact Std.ReflOrd.compare_self
  | long x => exact Std.ReflOrd.compare_self
  | string x => exact Text.compareUtf8_eq_iff.2 rfl
  | blob x => exact Std.ReflOrd.compare_self (α := List UInt8)
  | address x => exact Std.ReflOrd.compare_self (α := UInt64)
  | symbol x => exact Text.compareUtf8_eq_iff.2 rfl
  | keyword x => exact Text.compareUtf8_eq_iff.2 rfl
  | list x => exact compareItems_self x
  | vector x => exact compareItems_self x
  | map x => exact compareEntries_self x.entries
  | set x => exact compareItems_self x.items
  | blobMap x => exact compareHoldings_self x.entries
  | ledger x =>
    exact Ordering.then_eq_eq.2 ⟨Std.ReflOrd.compare_self, compareAccounts_self x.accounts⟩
termination_by structural a

theorem compareItems_self (as : List Value) : compareItems as as = .eq := by
  match as with
  | [] => rfl
  | a :: as => exact Ordering.then_eq_eq.2 ⟨compare_self a, compareItems_self as⟩
termination_by structural as

theorem compareEntries_self (as : List (Value × Value)) : compareEntries as as = .eq := by
  match as with
  | [] => rfl
  | (k, a) :: as =>
    exact Ordering.then_eq_eq.2
      ⟨Ordering.then_eq_eq.2 ⟨compare_self k, compare_self a⟩, compareEntries_self as⟩
termination_by structural as

theorem compareHoldings_self (as : List (Blob × Value)) : compareHoldings as as = .eq := by
  match as with
  | [] => rfl
  | (⟨k⟩, a) :: as =>
    have hk : Ord.compare k k = .eq := Std.ReflOrd.compare_self
    exact Ordering.then_eq_eq.2
      ⟨Ordering.then_eq_eq.2 ⟨hk, compare_self a⟩, compareHoldings_self as⟩
termination_by structural as

theorem compareAccounts_self (as : List (Account Value)) : compareAccounts as as = .eq := by
  match as with
  | [] => rfl
  | ⟨_, _, ⟨e⟩, ⟨h⟩⟩ :: as =>
    exact Ordering.then_eq_eq.2 ⟨Ordering.then_eq_eq.2 ⟨Ordering.then_eq_eq.2
      ⟨Ordering.then_eq_eq.2 ⟨Std.ReflOrd.compare_self, Std.ReflOrd.compare_self⟩,
        compareEntries_self e⟩, compareHoldings_self h⟩, compareAccounts_self as⟩
termination_by structural as

end

/-- The order decides equality. -/
theorem compare_eq_iff {a b : Value} : compare a b = .eq ↔ a = b :=
  ⟨eq_of_compare, fun h ↦ h ▸ compare_self a⟩

instance : DecidableEq Value := fun _ _ ↦ decidable_of_iff _ compare_eq_iff

/-- The values of a list in ascending order; equal ones stay as many as they are. -/
def sort (vs : List Value) : List Value :=
  vs.mergeSort fun a b ↦ (compare a b).isLE

end Value

deriving instance DecidableEq for SortedMap, SortedSet, Account, Ledger

end MeteredLedger
