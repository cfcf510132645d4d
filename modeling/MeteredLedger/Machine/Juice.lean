import MeteredLedger.Text.Decimal
import MeteredLedger.Text.Record

/-!
# Juice

The meter of an execution: a counter with a limit that only ever goes down.  Charging exactly what
remains is legal and leaves nothing; charging more empties the counter.
-/

namespace MeteredLedger

/-- What one execution may use. -/
structure Limits where
  juice : Int64 := 1000000
  maxDepth : Nat := 256
deriving DecidableEq, Repr

namespace Limits

def inspect (l : Limits) : String :=
  Text.record "Limits" [("juice", Text.ofInt l.juice.toInt), ("max_depth", Text.ofInt l.maxDepth)]

end Limits

/-- A bounded counter that is never refunded. -/
structure Juice where
  limit : Nat
  remaining : Nat
deriving DecidableEq, Repr

namespace Juice

/-- A full counter; a negative limit counts as zero. -/
def full (limit : Int64) : Juice := ⟨limit.toInt.toNat, limit.toInt.toNat⟩

def used (j : Juice) : Nat := j.limit - j.remaining

/-- Whether an amount can be charged without exhausting the counter. -/
def covers (j : Juice) (amount : Int) : Bool := decide (amount ≤ j.remaining)

/-- Takes an amount off, or all that remains if that is less. -/
def charge (j : Juice) (amount : Nat) : Juice := { j with remaining := j.remaining - amount }

@[simp] theorem limit_charge (j : Juice) (n : Nat) : (j.charge n).limit = j.limit := rfl
@[simp] theorem remaining_charge (j : Juice) (n : Nat) :
    (j.charge n).remaining = j.remaining - n := rfl

def inspect (j : Juice) : String :=
  Text.record "Juice" [("limit", Text.ofInt j.limit), ("remaining", Text.ofInt j.remaining)]

end Juice

end MeteredLedger
