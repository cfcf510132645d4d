import MeteredLedger.Machine.Context
import MeteredLedger.Op.Basic
import MeteredLedger.Value.Sequence

/-!
# The built-in functions

What each function makes of its evaluated arguments.  The number of arguments is checked first,
then the arguments from left to right; functions that fold over their arguments stop at the
first one that does not fit.
-/

namespace MeteredLedger

namespace Builtin

/-- A function was given a number of arguments it does not take. -/
def arityError (f : Builtin) (got : Nat) : Signal :=
  .coded .arity ("wrong number of arguments to '" ++ f.name ++ "': got " ++ Text.ofInt got)

/-- A function was given a value of a kind it does not take. -/
def castError (f : Builtin) (expected : String) (got : Value) : Signal :=
  .coded .cast (f.name ++ ": expected " ++ expected ++ ", got " ++ got.typeName)

def longArg (f : Builtin) (v : Value) : Except Signal Int64 :=
  match v.long? with
  | some n => .ok n
  | none => .error (f.castError "long" v)

def addressArg (f : Builtin) (v : Value) : Except Signal Address :=
  match v.address? with
  | some a => .ok a
  | none => .error (f.castError "address" v)

/-! ### Collections -/

/-- Adds one element to a collection; nil counts as the empty list. -/
def conjOne (coll x : Value) : Except Signal Value :=
  match coll with
  | .nil => .ok (.list [x])
  | .set s => .ok (.set (s.insert x))
  | .map m =>
    match x with
    | .vector [k, v] => .ok (.map (m.insert k v))
    | _ => .error (conj.castError "map entry" x)
  | coll =>
    match Sequence.ofValue? coll with
    | some s => .ok (s.conj x).toValue
    | none => .error (conj.castError "collection" coll)

def conjAll (args : List Value) : Except Signal Value :=
  match args with
  | [] => .error (conj.arityError 0)
  | coll :: xs => xs.foldlM conjOne coll

/-- The key of a blob-map that a value stands for: a blob, or the blob of an address. -/
def blobKey (k : Value) : Except Signal Blob :=
  match k with
  | .blob b => .ok b
  | .address a => .ok a.toBlob
  | k => .error (assoc.castError "blob key" k)

/-- Puts one value under a key or index of a collection; nil counts as the empty map. -/
def assocOne (coll k v : Value) : Except Signal Value :=
  match coll with
  | .nil => .ok (.map (.ofList [(k, v)]))
  | .map m => .ok (.map (m.insert k v))
  | .blobMap m => (blobKey k).map fun key ↦ .blobMap (m.insert key v)
  | coll =>
    match Sequence.ofValue? coll with
    | none => .error (assoc.castError "associative collection" coll)
    | some s => do
      let index ← assoc.longArg k
      match s.assoc index v with
      | .ok s => .ok s.toValue
      | .error e => .error (.ofUpdateError e)

/-- Puts the pairs of keys and values in, one after the other. -/
def assocPairs (coll : Value) : List Value → Except Signal Value
  | k :: v :: rest => assocOne coll k v >>= fun coll ↦ assocPairs coll rest
  | _ => .ok coll

def assocAll (args : List Value) : Except Signal Value :=
  match args with
  | coll :: k :: v :: rest =>
    if rest.length % 2 = 0 then assocPairs coll (k :: v :: rest)
    else .error (assoc.arityError args.length)
  | args => .error (assoc.arityError args.length)

/-- How many elements, bytes or characters a value has. -/
def sizeOf? : Value → Option Nat
  | .nil => some 0
  | .list xs => some xs.length
  | .vector xs => some xs.length
  | .map m => some m.size
  | .set s => some s.size
  | .blobMap m => some m.size
  | .blob b => some b.size
  | .string s => some s.length
  | _ => none

def countOf (args : List Value) : Except Signal Value :=
  match args with
  | [v] =>
    match sizeOf? v with
    | some n => .ok (.long (.ofNat n))
    | none => .error (count.castError "countable" v)
  | args => .error (count.arityError args.length)

/-! ### Numbers and comparison -/

/-- A long plus all longs of a list, modulo the word. -/
def addLongs (n : Int64) : List Value → Except Signal Int64
  | [] => .ok n
  | v :: vs => do addLongs (n + (← add.longArg v)) vs

/-- A long less all longs of a list, modulo the word. -/
def subLongs (n : Int64) : List Value → Except Signal Int64
  | [] => .ok n
  | v :: vs => do subLongs (n - (← sub.longArg v)) vs

def sum (args : List Value) : Except Signal Value := (addLongs 0 args).map .long

/-- The first long less all others, or the negation of a single one. -/
def difference (args : List Value) : Except Signal Value :=
  match args with
  | [] => .error (sub.arityError 0)
  | [v] => do return .long (-(← sub.longArg v))
  | v :: vs => do return .long (← subLongs (← sub.longArg v) vs)

/-- Whether every two neighbours are equal. -/
def neighboursEqual : List Value → Bool
  | v :: w :: vs => v == w && neighboursEqual (w :: vs)
  | _ => true

def equal (args : List Value) : Except Signal Value :=
  match args with
  | [] => .error (eq.arityError 0)
  | args => .ok (.bool (neighboursEqual args))

/-! ### Failing and leaving -/

/-- Nil if all arguments are true; otherwise the first that is not is named by its index. -/
def assertAll (args : List Value) : Except Signal Value :=
  match args.findIdx? (!·.truthy) with
  | none => .ok .nil
  | some i => .error (.coded .assert ("assertion " ++ Text.ofInt i ++ " failed"))

/-- The error that a program raises: with a message, or with a code and a message. -/
def failure (args : List Value) : Signal :=
  match args with
  | [] => .error ErrorCode.assert.toValue .nil
  | [message] => .error ErrorCode.assert.toValue message
  | [.nil, _] => .coded .argument "error code must not be nil"
  | [code, message] => .error code message
  | args => fail.arityError args.length

/-- The control signal that a program sends, with nil as its payload if none is given. -/
def leave (f : Builtin) (kind : Control) (args : List Value) : Signal :=
  match args with
  | [] => .control kind .nil
  | [payload] => .control kind payload
  | args => f.arityError args.length

/-! ### The ledger -/

def transferArgs (args : List Value) : Except Signal (Address × Int64) :=
  match args with
  | [target, amount] => do
    let target ← transfer.addressArg target
    let amount ← transfer.longArg amount
    return (target, amount)
  | args => .error (transfer.arityError args.length)

/-- The account whose balance is asked for; without an argument it is the executing one. -/
def balanceArg (c : Context) (args : List Value) : Except Signal Address :=
  match args with
  | [] => .ok c.address
  | [a] => balance.addressArg a
  | args => .error (balance.arityError args.length)

def holdingArgs (args : List Value) : Except Signal (Address × Value) :=
  match args with
  | [owner, v] => do
    let owner ← setHolding.addressArg owner
    return (owner, v)
  | args => .error (setHolding.arityError args.length)

/-- Applies a function to evaluated arguments.  No juice is charged here. -/
def apply (f : Builtin) (args : List Value) (c : Context) : Context :=
  match f with
  | vector => c.produce (.vector args)
  | list => c.produce (.list args)
  | conj => c.conclude (conjAll args)
  | assoc => c.conclude (assocAll args)
  | count => c.conclude (countOf args)
  | add => c.conclude (sum args)
  | sub => c.conclude (difference args)
  | eq => c.conclude (equal args)
  | assert => c.conclude (assertAll args)
  | fail => c.raise (failure args)
  | ret => c.raise (ret.leave .ret args)
  | rollback => c.raise (rollback.leave .rollback args)
  | halt => c.raise (halt.leave .halt args)
  | transfer =>
    match transferArgs args with
    | .ok (target, amount) => c.transfer target amount
    | .error s => c.raise s
  | balance =>
    match balanceArg c args with
    | .ok a => c.produce (.ofLong? (c.ledger.balance? a))
    | .error s => c.raise s
  | setHolding =>
    match holdingArgs args with
    | .ok (owner, v) => c.setHolding owner v
    | .error s => c.raise s

end Builtin

end MeteredLedger
