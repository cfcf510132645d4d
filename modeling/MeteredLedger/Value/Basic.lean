import MeteredLedger.Bytes.BigEndian
import MeteredLedger.Sorted.Map
import MeteredLedger.Sorted.Set
import MeteredLedger.Text.Hex
import MeteredLedger.Text.Order

/-!
# Values

The universal datum of the ledger: atoms, sequences, maps, sets, blob-maps, and whole ledger states,
which hold accounts, whose environments and holdings hold values again.  Collections are plain
ascending lists, so two values are equal exactly when they have the same content.
-/

namespace MeteredLedger

/-- A name that code looks up. -/
structure Symbol where
  name : String
deriving DecidableEq, Repr, Inhabited

/-- A name that stands for itself. -/
structure Keyword where
  name : String
deriving DecidableEq, Repr, Inhabited

/-- A string of bytes. -/
structure Blob where
  bytes : List UInt8
deriving DecidableEq, Repr, Inhabited

/-- The number of an account. -/
structure Address where
  number : UInt64
deriving DecidableEq, Repr, Inhabited

instance : Ord Symbol := ⟨fun s t ↦ Text.compareUtf8 s.name t.name⟩
instance : Ord Keyword := ⟨fun s t ↦ Text.compareUtf8 s.name t.name⟩
instance : Ord Blob := ⟨fun a b ↦ compare a.bytes b.bytes⟩
instance : Ord Address := ⟨fun a b ↦ compare a.number b.number⟩

namespace Symbol

/-- Surrounded by asterisks, with something between them. -/
def isStarred (s : Symbol) : Bool :=
  let cs := s.name.toList
  decide (2 < cs.length) && cs.head? == some '*' && cs.getLast? == some '*'

end Symbol

namespace Blob

def empty : Blob := ⟨[]⟩
def isEmpty (b : Blob) : Bool := b.bytes.isEmpty
def size (b : Blob) : Nat := b.bytes.length

def startsWith (b start : Blob) : Bool := start.bytes.isPrefixOf b.bytes

def hexChars (b : Blob) : List Char := Hex.encode b.bytes

/-- The bytes as lower-case digits. -/
def toHex (b : Blob) : String := String.ofList b.hexChars

/-- Reads digits of either case, after at most one leading `0x`. -/
def ofHexChars? : List Char → Option Blob
  | '0' :: 'x' :: cs => (Hex.decode cs).map mk
  | cs => (Hex.decode cs).map mk

def ofHex? (s : String) : Option Blob := ofHexChars? s.toList

end Blob

namespace Address

def ofNat (n : Nat) : Address := ⟨n.toUInt64⟩
def toNat (a : Address) : Nat := a.number.toNat

/-- The key under which holdings of this account are kept: eight bytes, big-endian. -/
def toBlob (a : Address) : Blob := ⟨Bytes.ofUInt64 a.number⟩

end Address

/-- What the ledger records of one account, over a type of values. -/
structure Account (V : Type) where
  balance : Int64
  sequence : Int64
  environment : SortedMap V V
  holdings : SortedMap Blob V

/-- A ledger state over a type of values: a block timestamp, and the accounts by number. -/
structure Ledger (V : Type) where
  timestamp : Int64
  accounts : List (Account V)

/-- The universal immutable datum. -/
inductive Value where
  | nil
  | bool (b : Bool)
  | long (n : Int64)
  | string (s : String)
  | blob (b : Blob)
  | address (a : Address)
  | symbol (s : Symbol)
  | keyword (k : Keyword)
  | list (xs : List Value)
  | vector (xs : List Value)
  | map (m : SortedMap Value Value)
  | set (s : SortedSet Value)
  | blobMap (m : SortedMap Blob Value)
  | ledger (s : Ledger Value)

abbrev Map := SortedMap Value Value
abbrev ValueSet := SortedSet Value
abbrev BlobMap := SortedMap Blob Value

/-- The kinds of values, in the order in which values of different kinds are sorted. -/
inductive Kind where
  | nil | bool | long | string | blob | address | symbol | keyword
  | list | vector | map | set | blobMap | ledger
deriving DecidableEq, Repr

namespace Kind

def name : Kind → String
  | nil => "nil"
  | bool => "bool"
  | long => "long"
  | string => "string"
  | blob => "blob"
  | address => "address"
  | symbol => "symbol"
  | keyword => "keyword"
  | list => "list"
  | vector => "vector"
  | map => "map"
  | set => "set"
  | blobMap => "blob-map"
  | ledger => "state"

end Kind

namespace Value

instance : Inhabited Value := ⟨.nil⟩

def kind : Value → Kind
  | nil => .nil
  | bool _ => .bool
  | long _ => .long
  | string _ => .string
  | blob _ => .blob
  | address _ => .address
  | symbol _ => .symbol
  | keyword _ => .keyword
  | list _ => .list
  | vector _ => .vector
  | map _ => .map
  | set _ => .set
  | blobMap _ => .blobMap
  | ledger _ => .ledger

/-- The name of the kind, as error messages give it. -/
def typeName (v : Value) : String := v.kind.name

/-- All values but nil and false count as true. -/
def truthy : Value → Bool
  | nil => false
  | bool b => b
  | _ => true

def isNil : Value → Bool
  | nil => true
  | _ => false

def long? : Value → Option Int64
  | long n => some n
  | _ => none

def address? : Value → Option Address
  | address a => some a
  | _ => none

def keyword? : Value → Option Keyword
  | keyword k => some k
  | _ => none

def symbol? : Value → Option Symbol
  | symbol s => some s
  | _ => none

def string? : Value → Option String
  | string s => some s
  | _ => none

/-- An optional address, where nil stands for none. -/
def ofAddress? : Option Address → Value
  | none => nil
  | some a => address a

/-- An optional long, where nil stands for none. -/
def ofLong? : Option Int64 → Value
  | none => nil
  | some n => long n

end Value

end MeteredLedger
