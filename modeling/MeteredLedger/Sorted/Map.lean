/-!
# Finite maps as ascending lists

A map is the list of its entries in ascending key order.  The type does not carry the order, so
that it can occur inside the type of its own keys; `Ascending` states it, and every operation
here keeps it.
-/

namespace MeteredLedger

universe u v

/-- A finite map, as the list of its entries in ascending order of their keys. -/
structure SortedMap (κ : Type u) (ν : Type v) where
  entries : List (κ × ν)
deriving Repr

namespace SortedMap

variable {κ : Type u} {ν : Type v}

def empty : SortedMap κ ν := ⟨[]⟩

instance : EmptyCollection (SortedMap κ ν) := ⟨empty⟩
instance : Inhabited (SortedMap κ ν) := ⟨empty⟩

def isEmpty (m : SortedMap κ ν) : Bool := m.entries.isEmpty
def size (m : SortedMap κ ν) : Nat := m.entries.length
def keys (m : SortedMap κ ν) : List κ := m.entries.map (·.1)

@[simp] theorem entries_empty : (empty : SortedMap κ ν).entries = [] := rfl

variable [Ord κ]

/-- The keys stand in strictly ascending order, so none occurs twice. -/
def Ascending (m : SortedMap κ ν) : Prop :=
  m.entries.Pairwise fun e f ↦ compare e.1 f.1 = .lt

/-- The value of the first entry at `k`. -/
def findIn (k : κ) : List (κ × ν) → Option ν
  | [] => none
  | (k', v) :: es => if compare k k' = .eq then some v else findIn k es

def find? (m : SortedMap κ ν) (k : κ) : Option ν := findIn k m.entries

def contains (m : SortedMap κ ν) (k : κ) : Bool := (m.find? k).isSome

/-- Puts an entry at its place, instead of the one that stands there. -/
def insertIn (k : κ) (v : ν) : List (κ × ν) → List (κ × ν)
  | [] => [(k, v)]
  | (k', v') :: es =>
    match compare k k' with
    | .lt => (k, v) :: (k', v') :: es
    | .eq => (k, v) :: es
    | .gt => (k', v') :: insertIn k v es

def insert (m : SortedMap κ ν) (k : κ) (v : ν) : SortedMap κ ν := ⟨insertIn k v m.entries⟩

/-- Takes the entry at `k` out, if there is one. -/
def eraseIn (k : κ) : List (κ × ν) → List (κ × ν)
  | [] => []
  | (k', v') :: es => if compare k k' = .eq then es else (k', v') :: eraseIn k es

def erase (m : SortedMap κ ν) (k : κ) : SortedMap κ ν := ⟨eraseIn k m.entries⟩

/-- The map of a list of pairs, where a later pair replaces an earlier one with its key. -/
def ofList (es : List (κ × ν)) : SortedMap κ ν :=
  es.foldl (fun m e ↦ m.insert e.1 e.2) empty

/-- The entries with `lo ≤ key < hi`, in ascending order: a scan that begins at `lo` and stops
at the first key that is not below `hi`. -/
def range (m : SortedMap κ ν) (lo hi : κ) : List (κ × ν) :=
  (m.entries.dropWhile fun e ↦ compare e.1 lo == .lt).takeWhile fun e ↦ compare e.1 hi == .lt

@[simp] theorem entries_insert (m : SortedMap κ ν) (k : κ) (v : ν) :
    (m.insert k v).entries = insertIn k v m.entries := rfl
@[simp] theorem entries_erase (m : SortedMap κ ν) (k : κ) :
    (m.erase k).entries = eraseIn k m.entries := rfl
@[simp] theorem find?_empty (k : κ) : (empty : SortedMap κ ν).find? k = none := rfl
@[simp] theorem ofList_nil : (ofList [] : SortedMap κ ν) = empty := rfl

end SortedMap

end MeteredLedger
