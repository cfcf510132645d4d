import MeteredLedger.Value.Basic

/-!
# The canonical encoding of values

A value is a tag byte and a payload.  Numbers are big-endian, texts, names and blobs carry their
length, collections their count, and maps, sets and blob-maps list their content in ascending order,
so equal values have equal encodings.
-/

namespace MeteredLedger

namespace Tag

def nil : UInt8 := 0x00
def no : UInt8 := 0x01
def yes : UInt8 := 0x02
def long : UInt8 := 0x10
def string : UInt8 := 0x20
def blob : UInt8 := 0x21
def address : UInt8 := 0x22
def symbol : UInt8 := 0x30
def keyword : UInt8 := 0x31
def list : UInt8 := 0x80
def vector : UInt8 := 0x81
def map : UInt8 := 0x82
def set : UInt8 := 0x83
def blobMap : UInt8 := 0x84
def ledger : UInt8 := 0x90

end Tag

namespace Value

mutual

/-- The canonical encoding. -/
def encode : Value → List UInt8
  | .nil => [Tag.nil]
  | .bool false => [Tag.no]
  | .bool true => [Tag.yes]
  | .long n => Tag.long :: Bytes.ofInt64 n
  | .string s => Tag.string :: Bytes.withLength (Text.utf8 s)
  | .blob b => Tag.blob :: Bytes.withLength b.bytes
  | .address a => Tag.address :: Bytes.ofUInt64 a.number
  | .symbol s => Tag.symbol :: Bytes.withLength (Text.utf8 s.name)
  | .keyword k => Tag.keyword :: Bytes.withLength (Text.utf8 k.name)
  | .list xs => Tag.list :: Bytes.ofLength xs.length ++ encodeItems xs
  | .vector xs => Tag.vector :: Bytes.ofLength xs.length ++ encodeItems xs
  | .map ⟨es⟩ => Tag.map :: Bytes.ofLength es.length ++ encodeEntries es
  | .set ⟨xs⟩ => Tag.set :: Bytes.ofLength xs.length ++ encodeItems xs
  | .blobMap ⟨es⟩ => Tag.blobMap :: Bytes.ofLength es.length ++ encodeBlobEntries es
  | .ledger ⟨t, as⟩ =>
    Tag.ledger :: Bytes.ofInt64 t ++ Bytes.ofLength as.length ++ encodeAccounts as
termination_by structural v => v

def encodeItems : List Value → List UInt8
  | [] => []
  | v :: vs => encode v ++ encodeItems vs
termination_by structural vs => vs

def encodeEntries : List (Value × Value) → List UInt8
  | [] => []
  | (k, v) :: es => encode k ++ encode v ++ encodeEntries es
termination_by structural es => es

def encodeBlobEntries : List (Blob × Value) → List UInt8
  | [] => []
  | (k, v) :: es => Bytes.withLength k.bytes ++ encode v ++ encodeBlobEntries es
termination_by structural es => es

/-- An account has no tag of its own; its environment and its holdings carry theirs. -/
def encodeAccounts : List (Account Value) → List UInt8
  | [] => []
  | ⟨balance, sequence, ⟨env⟩, ⟨holdings⟩⟩ :: as =>
    Bytes.ofInt64 balance ++ Bytes.ofInt64 sequence ++
      Tag.map :: Bytes.ofLength env.length ++ encodeEntries env ++
      Tag.blobMap :: Bytes.ofLength holdings.length ++ encodeBlobEntries holdings ++
      encodeAccounts as
termination_by structural as => as

end

end Value

namespace Ledger

def encode (s : Ledger Value) : List UInt8 := Value.encode (.ledger s)

end Ledger

end MeteredLedger
