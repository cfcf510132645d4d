import MeteredLedger.Text.Record
import MeteredLedger.Value.Edn
import MeteredLedger.Value.Order

/-!
# Conversions between host data and values

A host type is built from unit, truth values, integers, texts, addresses and values by vectors and
options.  Writing gives the value of a datum, reading goes back: a vector is read from a vector or a
list, and an absent option is nil.
-/

namespace MeteredLedger

/-- The types of data that a host exchanges with the ledger. -/
inductive HostType where
  | value
  | unit
  | bool
  | int64
  | int32
  /-- A count or an index. -/
  | size
  | string
  | address
  | vector (item : HostType)
  | optional (item : HostType)
deriving DecidableEq, Repr

/-- Why a value or a datum could not be converted. -/
inductive ConversionError where
  | typeMismatch (expected got : String)
  /-- A long that does not fit the target. -/
  | outOfRange (n : Int64) (target : String)
  /-- A size that does not fit a long. -/
  | tooLarge (n : UInt64)
deriving DecidableEq, Repr

namespace ConversionError

def message : ConversionError → String
  | typeMismatch expected got => "type error: expected " ++ expected ++ ", got " ++ got
  | outOfRange n target => "integer " ++ Text.ofInt n.toInt ++ " out of range for " ++ target
  | tooLarge n => "integer " ++ Text.ofInt n.toNat ++ " out of range for long"

end ConversionError

namespace HostType

/-- The data of a host type. -/
@[reducible] def Data : HostType → Type
  | value => Value
  | unit => Unit
  | bool => Bool
  | int64 => Int64
  | int32 => Int32
  | size => UInt64
  | string => String
  | address => Address
  | vector item => List item.Data
  | optional item => Option item.Data

def readLong (v : Value) : Except ConversionError Int64 :=
  match v with
  | .long n => .ok n
  | v => .error (.typeMismatch "long" v.typeName)

/-- Reads a datum from a value.  In a vector the first element that cannot be read decides. -/
def read : (t : HostType) → Value → Except ConversionError t.Data
  | value, v => .ok v
  | unit, v =>
    match v with
    | .nil => .ok ()
    | v => .error (.typeMismatch "nil" v.typeName)
  | bool, v =>
    match v with
    | .bool b => .ok b
    | v => .error (.typeMismatch "bool" v.typeName)
  | int64, v => readLong v
  | int32, v => do
    let n ← readLong v
    if Int32.minValue.toInt ≤ n.toInt ∧ n.toInt ≤ Int32.maxValue.toInt then .ok n.toInt32
    else .error (.outOfRange n "i32")
  | size, v => do
    let n ← readLong v
    if 0 ≤ n.toInt then .ok n.toUInt64 else .error (.outOfRange n "usize")
  | string, v =>
    match v with
    | .string s => .ok s
    | v => .error (.typeMismatch "string" v.typeName)
  | address, v =>
    match v with
    | .address a => .ok a
    | v => .error (.typeMismatch "address" v.typeName)
  | vector item, v =>
    match v with
    | .vector vs => vs.mapM item.read
    | .list vs => vs.mapM item.read
    | v => .error (.typeMismatch "vector or list" v.typeName)
  | optional item, v =>
    match v with
    | .nil => .ok none
    | v => (item.read v).map some

/-- Writes a datum as a value.  Only a size can fail. -/
def write : (t : HostType) → t.Data → Except ConversionError Value
  | value, v => .ok v
  | unit, () => .ok .nil
  | bool, b => .ok (.bool b)
  | int64, n => .ok (.long n)
  | int32, n => .ok (.long n.toInt64)
  | size, n =>
    if n.toNat ≤ Int64.maxValue.toInt.toNat then .ok (.long n.toInt64) else .error (.tooLarge n)
  | string, s => .ok (.string s)
  | address, a => .ok (.address a)
  | vector item, xs => (xs.mapM item.write).map .vector
  | optional item, x =>
    match x with
    | none => .ok .nil
    | some x => item.write x

/-- A datum with the form of its type. -/
def inspect : (t : HostType) → t.Data → String
  | value, v => v.edn
  | unit, () => "()"
  | bool, b => Value.edn (.bool b)
  | int64, n => Text.ofInt n.toInt
  | int32, n => Text.ofInt n.toInt
  | size, n => Text.ofInt n.toNat
  | string, s => Text.quote s
  | address, a => Value.inspect (.address a)
  | vector item, xs => Text.bracketed (xs.map item.inspect)
  | optional item, x =>
    match x with
    | none => "None"
    | some x => Text.tagged "Some" [item.inspect x]

end HostType

end MeteredLedger
