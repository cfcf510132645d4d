/-!
# Finite sets as ascending lists
-/

namespace MeteredLedger

universe u

/-- A finite set, as the list of its elements in ascending order. -/
structure SortedSet (α : Type u) where
  items : List α
deriving Repr

namespace SortedSet

variable {α : Type u}

def empty : SortedSet α := ⟨[]⟩

instance : EmptyCollection (SortedSet α) := ⟨empty⟩
instance : Inhabited (SortedSet α) := ⟨empty⟩

def isEmpty (s : SortedSet α) : Bool := s.items.isEmpty
def size (s : SortedSet α) : Nat := s.items.length

@[simp] theorem items_empty : (empty : SortedSet α).items = [] := rfl

variable [Ord α]

/-- The elements stand in strictly ascending order, so none occurs twice. -/
def Ascending (s : SortedSet α) : Prop :=
  s.items.Pairwise fun a b ↦ compare a b = .lt

def contains (s : SortedSet α) (a : α) : Bool :=
  s.items.any fun b ↦ compare a b == .eq

/-- Puts an element at its place, unless it stands there already. -/
def insertIn (a : α) : List α → List α
  | [] => [a]
  | b :: bs =>
    match compare a b with
    | .lt => a :: b :: bs
    | .eq => b :: bs
    | .gt => b :: insertIn a bs

def insert (s : SortedSet α) (a : α) : SortedSet α := ⟨insertIn a s.items⟩

/-- Takes an element out, if it is there. -/
def eraseIn (a : α) : List α → List α
  | [] => []
  | b :: bs => if compare a b = .eq then bs else b :: eraseIn a bs

def erase (s : SortedSet α) (a : α) : SortedSet α := ⟨eraseIn a s.items⟩

def ofList (as : List α) : SortedSet α :=
  as.foldl insert empty

@[simp] theorem items_insert (s : SortedSet α) (a : α) :
    (s.insert a).items = insertIn a s.items := rfl
@[simp] theorem items_erase (s : SortedSet α) (a : α) :
    (s.erase a).items = eraseIn a s.items := rfl
@[simp] theorem ofList_nil : (ofList [] : SortedSet α) = empty := rfl

end SortedSet

end MeteredLedger
