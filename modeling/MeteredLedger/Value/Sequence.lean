import MeteredLedger.Value.Error

/-!
# Sequences

Lists and vectors hold values in order.  They differ in where `conj` adds: a list grows at the
front, a vector at the back.
-/

namespace MeteredLedger

inductive SequenceKind where
  | list
  | vector
deriving DecidableEq, Repr

/-- A list or a vector. -/
structure Sequence where
  kind : SequenceKind
  items : List Value

namespace Sequence

def ofValue? : Value → Option Sequence
  | .list xs => some ⟨.list, xs⟩
  | .vector xs => some ⟨.vector, xs⟩
  | _ => none

def toValue : Sequence → Value
  | ⟨.list, xs⟩ => .list xs
  | ⟨.vector, xs⟩ => .vector xs

@[simp] theorem ofValue?_toValue (s : Sequence) : ofValue? s.toValue = some s := by
  obtain ⟨kind, items⟩ := s
  cases kind <;> rfl

def isEmpty (s : Sequence) : Bool := s.items.isEmpty
def size (s : Sequence) : Nat := s.items.length
def get? (s : Sequence) (i : Nat) : Option Value := s.items[i]?
def first? (s : Sequence) : Option Value := s.items.head?
def last? (s : Sequence) : Option Value := s.items.getLast?

/-- Adds a value where the kind of sequence grows. -/
def conj (s : Sequence) (v : Value) : Sequence :=
  match s.kind with
  | .list => ⟨.list, v :: s.items⟩
  | .vector => ⟨.vector, s.items ++ [v]⟩

/-- The list that begins with `v`. -/
def cons (v : Value) (s : Sequence) : Sequence := ⟨.list, v :: s.items⟩

/-- All but the first element, and nothing of an empty sequence. -/
def rest (s : Sequence) : Sequence := ⟨s.kind, s.items.tail⟩

def map (f : Value → Value) (s : Sequence) : Sequence := ⟨s.kind, s.items.map f⟩

/-- The elements of both, in the kind of the first. -/
def append (s t : Sequence) : Sequence := ⟨s.kind, s.items ++ t.items⟩

/-- Replaces the element at an index in `[0, size)`. -/
def assoc (s : Sequence) (index : Int64) (v : Value) : Except UpdateError Sequence :=
  if 0 ≤ index.toInt ∧ index.toInt < s.size then .ok ⟨s.kind, s.items.set index.toInt.toNat v⟩
  else .error (.indexOutOfBounds index s.size)

/-- The form that names the kind twice: of the sequence, and of what it holds. -/
def inspect (s : Sequence) : String :=
  match s.kind with
  | .list => "List(" ++ s.toValue.inspect ++ ")"
  | .vector => "Vector(" ++ s.toValue.inspect ++ ")"

end Sequence

end MeteredLedger
