import MeteredLedger.Machine.Special
import MeteredLedger.Op.Basic

/-!
# The nodes of an operation

What an operation contains is said of the list of all its nodes, itself included.
-/

namespace MeteredLedger

namespace Op

mutual

/-- All nodes of an operation, each before its parts. -/
def nodes (op : Op) : List Op :=
  op :: match op with
    | constant _ | lookup _ | undefine _ => []
    | define _ body => nodes body
    | sequence ops | branch ops | invoke _ ops => nodesOf ops
termination_by structural op

def nodesOf (ops : List Op) : List Op :=
  match ops with
  | [] => []
  | op :: ops => nodes op ++ nodesOf ops
termination_by structural ops

end

/-- An operation is its own first node. -/
theorem mem_nodes_self (op : Op) : op ∈ op.nodes := by
  unfold nodes
  exact List.mem_cons_self

/-- No lookup in the operation names the special variable. -/
def Ignores (op : Op) (s : Special) : Prop := lookup s.symbol ∉ op.nodes

def isLookup (op : Op) (s : Symbol) : Bool :=
  match op with
  | lookup t => t = s
  | _ => false

theorem isLookup_iff {op : Op} {s : Symbol} : op.isLookup s = true ↔ op = lookup s := by
  cases op <;> simp [isLookup]

instance (op : Op) (s : Special) : Decidable (op.Ignores s) :=
  decidable_of_iff (op.nodes.any (·.isLookup s.symbol) = false)
    (by simp [Ignores, ← Bool.not_eq_true, isLookup_iff])

/-- No call in the operation is one of the function. -/
def Avoids (op : Op) (f : Builtin) : Prop := ∀ args, invoke f args ∉ op.nodes

def isCall (op : Op) (f : Builtin) : Bool :=
  match op with
  | invoke g _ => g = f
  | _ => false

theorem isCall_iff {op : Op} {f : Builtin} : op.isCall f = true ↔ ∃ args, op = invoke f args := by
  cases op <;> simp [isCall]

instance (op : Op) (f : Builtin) : Decidable (op.Avoids f) :=
  decidable_of_iff (op.nodes.any (·.isCall f) = false)
    (by simp only [List.any_eq_false, isCall_iff, Avoids]; grind)

end Op

/-- A symbol that stands for a special variable is its name. -/
theorem Special.symbol_of_ofSymbol?_eq_some {s : Symbol} {special : Special}
    (h : ofSymbol? s = some special) : special.symbol = s := by
  unfold ofSymbol? at h
  split at h
  · have hname := List.find?_some h
    exact congrArg Symbol.mk (eq_of_beq hname)
  · cases h

/-- A lookup in an operation that ignores a special variable does not come to it. -/
theorem Op.Ignores.ofSymbol?_ne {op : Op} {special : Special} (h : op.Ignores special) {s : Symbol}
    (hs : lookup s ∈ op.nodes) : Special.ofSymbol? s ≠ some special := by
  intro he
  rw [← Special.symbol_of_ofSymbol?_eq_some he] at hs
  exact h hs

end MeteredLedger
