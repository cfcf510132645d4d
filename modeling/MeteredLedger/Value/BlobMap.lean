import MeteredLedger.Value.Order

/-!
# Scans of blob-maps

Since keys are in byte order, all keys with a common beginning stand together.
-/

namespace MeteredLedger.SortedMap

/-- The entries whose key begins with `start`, in ascending order: a scan that begins at `start` and
stops at the first key that does not begin with it. -/
def startingWith {ν : Type} (m : SortedMap Blob ν) (start : Blob) : List (Blob × ν) :=
  (m.entries.dropWhile fun e ↦ compare e.1 start == .lt).takeWhile fun e ↦ e.1.startsWith start

end MeteredLedger.SortedMap
