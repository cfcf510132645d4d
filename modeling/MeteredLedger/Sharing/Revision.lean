import MeteredLedger.Ledger.Transfer
import MeteredLedger.Machine.Environment
import MeteredLedger.Value.Sequence

/-!
# Shared collections

Collections and ledgers are shared and never change.  An update either hands back the very
collection it was given or builds a new one, even if that has the same content; a host that
keeps both can tell.  The empty collection of a kind is one and the same wherever it occurs.
-/

namespace MeteredLedger

universe u

/-- The result of an update, and whether it is the very thing that was updated. -/
structure Revision (α : Type u) where
  value : α
  same : Bool

/-- Things whose empty instances are shared. -/
class SharedEmpty (α : Type u) where
  /-- Both are the shared empty instance. -/
  bothEmpty : α → α → Bool

namespace Revision

variable {α : Type u}

/-- The update had nothing to do. -/
def kept (a : α) : Revision α := ⟨a, true⟩

/-- The update built a new thing. -/
def built [SharedEmpty α] (old new : α) : Revision α := ⟨new, SharedEmpty.bothEmpty old new⟩

end Revision

namespace SortedMap

variable {κ ν : Type} [Ord κ]

instance : SharedEmpty (SortedMap κ ν) := ⟨fun m n ↦ m.isEmpty && n.isEmpty⟩

def reviseInsert (m : SortedMap κ ν) (k : κ) (v : ν) : Revision (SortedMap κ ν) :=
  .built m (m.insert k v)

def reviseErase (m : SortedMap κ ν) (k : κ) : Revision (SortedMap κ ν) :=
  if m.contains k then .built m (m.erase k) else .kept m

/-- Collects the entries again. -/
def rebuild (m : SortedMap κ ν) : Revision (SortedMap κ ν) := .built m (.ofList m.entries)

end SortedMap

namespace SortedSet

variable {α : Type} [Ord α]

instance : SharedEmpty (SortedSet α) := ⟨fun s t ↦ s.isEmpty && t.isEmpty⟩

def reviseInsert (s : SortedSet α) (a : α) : Revision (SortedSet α) :=
  if s.contains a then .kept s else .built s (s.insert a)

def reviseErase (s : SortedSet α) (a : α) : Revision (SortedSet α) :=
  if s.contains a then .built s (s.erase a) else .kept s

end SortedSet

namespace Sequence

instance : SharedEmpty Sequence := ⟨fun s t ↦ s.kind == t.kind && s.isEmpty && t.isEmpty⟩

def reviseAppend (s t : Sequence) : Revision Sequence :=
  if t.isEmpty then .kept s else .built s (s.append t)

end Sequence

namespace Environment

instance : SharedEmpty Environment := ⟨fun e f ↦ e.isEmpty && f.isEmpty⟩

def reviseDefine (e : Environment) (s : Symbol) (v : Value) : Revision Environment :=
  .built e (e.define s v)

def reviseUndefine (e : Environment) (s : Symbol) : Revision Environment :=
  if e.isDefined s then .built e (e.undefine s) else .kept e

end Environment

namespace Ledger

/-- Ledgers are never shared by content. -/
instance : SharedEmpty (Ledger Value) := ⟨fun _ _ ↦ false⟩

def reviseTimestamp (s : Ledger Value) (timestamp : Int64) : Revision (Ledger Value) :=
  if timestamp = s.timestamp then .kept s else .built s { s with timestamp }

def reviseTransfer (s : Ledger Value) (source target : Address) (amount : Int64) :
    Except UpdateError (Revision (Ledger Value)) :=
  (s.transfer source target amount).map fun next ↦
    if source = target then .kept s else .built s next

end Ledger

end MeteredLedger
