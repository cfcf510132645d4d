import MeteredLedger.Proofs.Control.Except
import MeteredLedger.Proofs.Op.Instrument

/-!
# No guard is ever reached

A host that misuses a context is stopped: at the result of an exceptional context, at a negative
charge, at an error with nil as its code.  It is stopped as well when it asks for an argument that
is not there.  Here the functions are written once more with all these guards in place, together
with the checks that are to keep them from the guards: arguments are counted first and then fetched
by their index.  And the evaluator is run with an instrument that has guards at every charge, at
every result and at every application of a function.  The checks suffice, so nothing is ever
stopped.
-/

namespace MeteredLedger

/-- What stops a host. -/
inductive Fault where
  | defect (d : Defect)
  /-- An argument was asked for that is not there. -/
  | noArgument (index count : Nat)
deriving DecidableEq

/-! ## Arguments by index -/

/-- The argument at an index. -/
def argument (args : List Value) (index : Nat) : Except Fault Value :=
  match args[index]? with
  | some v => .ok v
  | none => .error (.noArgument index args.length)

/-- The arguments from an index on. -/
def argumentsFrom (args : List Value) (index : Nat) : Except Fault (List Value) :=
  if index ≤ args.length then .ok (args.drop index) else .error (.noArgument index args.length)

/-- The pieces of length two, without what is left over. -/
def piecesOfTwo : List Value → List (List Value)
  | v :: w :: vs => [v, w] :: piecesOfTwo vs
  | _ => []

/-- All neighbours. -/
def neighbours : List Value → List (List Value)
  | v :: w :: vs => [v, w] :: neighbours (w :: vs)
  | _ => []

namespace Builtin

/-- Puts in the pairs that pieces hold, up to the first that does not fit. -/
def assocPieces (coll : Value) : List (List Value) → Except Fault (Except Signal Value)
  | [] => .ok (.ok coll)
  | piece :: pieces => do
    let k ← argument piece 0
    let v ← argument piece 1
    match assocOne coll k v with
    | .ok coll => assocPieces coll pieces
    | .error s => return .error s

/-- Whether the two in each piece are equal, up to the first that are not. -/
def piecesEqual : List (List Value) → Except Fault Bool
  | [] => .ok true
  | piece :: pieces => do
    let v ← argument piece 0
    let w ← argument piece 1
    if v == w then piecesEqual pieces else return false

/-- An error with a code that may not be nil. -/
def errorGuarded (code message : Value) : Except Fault Signal :=
  (Signal.ofCode code message).mapError .defect

/-- The error that a program raises, of which there is none for more than two arguments. -/
def failureGuarded (args : List Value) : Except Fault Signal :=
  match args with
  | [] => errorGuarded ErrorCode.assert.toValue .nil
  | [message] => errorGuarded ErrorCode.assert.toValue message
  | [code, message] =>
    if code.isNil then .ok (.coded .argument "error code must not be nil")
    else errorGuarded code message
  | _ => .ok (.coded .unexpected "fail arity")

/-- Goes on if there are at least and at most so many arguments. -/
def withArity {α : Type} (f : Builtin) (args : List Value) (least : Nat) (most : Option Nat)
    (rest : Except Fault (Except Signal α)) : Except Fault (Except Signal α) :=
  if args.length < least ∨ most.any (· < args.length) then .ok (.error (f.arityError args.length))
  else rest

/-- What a function that does not need the context makes of its arguments.  One that needs it is not
to be applied here, which is an internal failure. -/
def applyPure (f : Builtin) (args : List Value) : Except Fault (Except Signal Value) :=
  match f with
  | vector => .ok (.ok (.vector args))
  | list => .ok (.ok (.list args))
  | conj => f.withArity args 1 none do
    let coll ← argument args 0
    let xs ← argumentsFrom args 1
    return xs.foldlM conjOne coll
  | assoc => f.withArity args 3 none <|
    if args.length % 2 = 0 then .ok (.error (f.arityError args.length))
    else do
      let coll ← argument args 0
      let rest ← argumentsFrom args 1
      assocPieces coll (piecesOfTwo rest)
  | count => f.withArity args 1 (some 1) do
    let v ← argument args 0
    match sizeOf? v with
    | some n => return .ok (.long (.ofNat n))
    | none => return .error (f.castError "countable" v)
  | add => .ok (sum args)
  | sub => f.withArity args 1 none do
    let v ← argument args 0
    match f.longArg v with
    | .error s => return .error s
    | .ok first =>
      if args.length = 1 then return .ok (.long (-first))
      else
        let vs ← argumentsFrom args 1
        return (subLongs first vs).map .long
  | eq => f.withArity args 1 none do return .ok (.bool (← piecesEqual (neighbours args)))
  | assert => .ok (assertAll args)
  | fail => f.withArity args 0 (some 2) do return .error (← failureGuarded args)
  | ret => f.withArity args 0 (some 1) (.ok (.error (.control .ret (args.head?.getD .nil))))
  | rollback =>
    f.withArity args 0 (some 1) (.ok (.error (.control .rollback (args.head?.getD .nil))))
  | halt => f.withArity args 0 (some 1) (.ok (.error (.control .halt (args.head?.getD .nil))))
  | transfer | balance | setHolding =>
    .ok (.error (.coded .unexpected (f.name ++ " requires a context")))

def transferArgsGuarded (args : List Value) : Except Fault (Except Signal (Address × Int64)) :=
  transfer.withArity args 2 (some 2) do
    match transfer.addressArg (← argument args 0) with
    | .error s => return .error s
    | .ok target =>
      match transfer.longArg (← argument args 1) with
      | .error s => return .error s
      | .ok amount => return .ok (target, amount)

def balanceArgGuarded (c : Context) (args : List Value) : Except Fault (Except Signal Address) :=
  balance.withArity args 0 (some 1) <|
    match args.head? with
    | some a => .ok (balance.addressArg a)
    | none => .ok (.ok c.address)

def holdingArgsGuarded (args : List Value) : Except Fault (Except Signal (Address × Value)) :=
  setHolding.withArity args 2 (some 2) do
    match setHolding.addressArg (← argument args 0) with
    | .error s => return .error s
    | .ok owner => return .ok (owner, ← argument args 1)

/-- Applies a function to evaluated arguments, with all guards. -/
def applyGuarded (f : Builtin) (args : List Value) (c : Context) : Except Fault Context :=
  match f with
  | transfer => do
    match ← transferArgsGuarded args with
    | .ok (target, amount) => return c.transfer target amount
    | .error s => return c.raise s
  | balance => do
    match ← balanceArgGuarded c args with
    | .ok a => return c.produce (.ofLong? (c.ledger.balance? a))
    | .error s => return c.raise s
  | setHolding => do
    match ← holdingArgsGuarded args with
    | .ok (owner, v) => return c.setHolding owner v
    | .error s => return c.raise s
  | f => do return c.conclude (← f.applyPure args)

end Builtin

/-! ## Evaluation -/

namespace Context

def resultGuarded (c : Context) : Except Fault Value := c.result.mapError .defect

/-- Charges the word that a price is. -/
def chargeGuarded (c : Context) (price : Nat) : Except Fault Context :=
  (c.chargeChecked (.ofNat price)).mapError .defect

end Context

/-- A step that a guard may stop. -/
def guarded (step : Context → Except Fault Context) : StateT Context (Except Fault) Unit := do
  set (← step (← get))

/-- The steps of the evaluator with all guards. -/
def guarding : Instrument (Except Fault) where
  __ := Instrument.plain
  charge amount := guarded (·.chargeGuarded amount)
  result := do (← get).resultGuarded
  apply f args := guarded (f.applyGuarded args)

/-- Evaluates an operation in a context, with all guards. -/
def Op.evalGuarded (op : Op) (c : Context) : Except Fault Context := do
  let ((), d) ← (op.evalWith guarding).run c
  return d

/-! ## The guards of the functions -/

@[simp] theorem argument_cons_zero (v : Value) (args : List Value) :
    argument (v :: args) 0 = .ok v := rfl

@[simp] theorem argumentsFrom_cons (v : Value) (args : List Value) :
    argumentsFrom (v :: args) 1 = .ok args := by
  simp [argumentsFrom]

namespace Builtin

/-- Every piece has a key and a value. -/
theorem assocPieces_eq (coll : Value) (args : List Value) :
    assocPieces coll (piecesOfTwo args) = .ok (assocPairs coll args) := by
  fun_induction piecesOfTwo args generalizing coll with
  | case1 k v rest ih =>
      change (match assocOne coll k v with
        | .ok coll => assocPieces coll (piecesOfTwo rest)
        | .error s => .ok (.error s)) = _
      rw [assocPairs]
      cases assocOne coll k v with
      | ok coll => exact ih coll
      | error s => rfl
  | case2 args hargs =>
      rw [assocPairs.eq_def]
      split
      · next k v rest => exact absurd rfl (hargs k v rest)
      · rfl

/-- Every piece has two neighbours. -/
theorem piecesEqual_eq (args : List Value) :
    piecesEqual (neighbours args) = .ok (neighboursEqual args) := by
  fun_induction neighbours args with
  | case1 v w vs ih =>
      change (if v == w then piecesEqual (neighbours (w :: vs)) else .ok false) = _
      rw [neighboursEqual, ih]
      cases v == w <;> rfl
  | case2 args hargs =>
      rw [neighboursEqual.eq_def]
      split
      · next v w vs => exact absurd rfl (hargs v w vs)
      · rfl

/-- There is a collection once there is an argument. -/
theorem applyPure_conj (args : List Value) : conj.applyPure args = .ok (conjAll args) := by
  cases args with
  | nil => rfl
  | cons coll xs =>
      rw [applyPure, withArity, if_neg (by simp)]
      simp only [argument_cons_zero, argumentsFrom_cons]
      rfl

/-- There are a collection and pairs once there are three arguments or more, and an odd number. -/
theorem applyPure_assoc (args : List Value) : assoc.applyPure args = .ok (assocAll args) := by
  match args with
  | [] => rfl
  | [_] => rfl
  | [_, _] => rfl
  | coll :: k :: v :: rest =>
    have hparity : (coll :: k :: v :: rest).length % 2 = 0 ↔ ¬rest.length % 2 = 0 := by
      simp only [List.length_cons]
      omega
    rw [applyPure, withArity, if_neg (by simp), assocAll]
    by_cases hrest : rest.length % 2 = 0
    · rw [if_neg (fun h ↦ hparity.mp h hrest), if_pos hrest, argumentsFrom_cons]
      exact assocPieces_eq coll (k :: v :: rest)
    · rw [if_pos (hparity.mpr hrest), if_neg hrest]

/-- There is a value to count once there is exactly one argument. -/
theorem applyPure_count (args : List Value) : count.applyPure args = .ok (countOf args) := by
  match args with
  | [] => rfl
  | [v] =>
    change (match sizeOf? v with
      | some n => .ok (.ok (.long (.ofNat n)))
      | none => .ok (.error (count.castError "countable" v))) = Except.ok (countOf [v])
    rw [countOf]
    cases sizeOf? v <;> rfl
  | _ :: _ :: _ => rw [applyPure, withArity, if_pos (by simp), countOf]; simp

/-- There is a first number once there is an argument. -/
theorem applyPure_sub (args : List Value) : sub.applyPure args = .ok (difference args) := by
  match args with
  | [] => rfl
  | [v] =>
    change (match sub.longArg v with
      | .error s => .ok (.error s)
      | .ok first => .ok (.ok (.long (-first)))) = Except.ok (difference [v])
    rw [difference]
    cases sub.longArg v <;> rfl
  | v :: w :: vs =>
    change (match sub.longArg v with
      | .error s => .ok (.error s)
      | .ok first => do
        let vs ← argumentsFrom (v :: w :: vs) 1
        return (subLongs first vs).map .long) = Except.ok (difference (v :: w :: vs))
    rw [argumentsFrom_cons, difference]
    · cases sub.longArg v with
      | error s => rfl
      | ok first =>
          simp only [Except.ok_bind]
          cases subLongs first (w :: vs) <;> rfl
    · simp

/-- There is something to compare once there is an argument. -/
theorem applyPure_eq (args : List Value) : eq.applyPure args = .ok (equal args) := by
  cases args with
  | nil => rfl
  | cons v vs =>
      rw [applyPure, withArity, if_neg (by simp), piecesEqual_eq]
      rfl

/-- The code of a failure is looked at before the error is built. -/
theorem applyPure_fail (args : List Value) : fail.applyPure args = .ok (.error (failure args)) := by
  match args with
  | [] => rfl
  | [_] => rfl
  | [code, message] => cases code <;> rfl
  | _ :: _ :: _ :: _ => rw [applyPure, withArity, if_pos (by simp), failure]; all_goals simp

/-- There is a payload or none once there is at most one argument. -/
theorem withArity_leave (f : Builtin) (kind : Control) (args : List Value) :
    f.withArity args 0 (some 1) (.ok (.error (.control kind (args.head?.getD .nil)))) =
      .ok (.error (f.leave kind args) : Except Signal Value) := by
  match args with
  | [] => rfl
  | [_] => rfl
  | _ :: _ :: _ => rw [withArity, if_pos (by simp), leave]; all_goals simp

/-- There are a target and an amount once there are exactly two arguments. -/
theorem transferArgsGuarded_eq (args : List Value) :
    transferArgsGuarded args = .ok (transferArgs args) := by
  match args with
  | [] => rfl
  | [_] => rfl
  | [target, amount] =>
    change (match transfer.addressArg target with
      | .error s => .ok (.error s)
      | .ok target =>
        match transfer.longArg amount with
        | .error s => .ok (.error s)
        | .ok amount => .ok (.ok (target, amount))) = Except.ok (transferArgs [target, amount])
    rw [transferArgs]
    cases transfer.addressArg target with
    | error s => rfl
    | ok target => cases transfer.longArg amount <;> rfl
  | _ :: _ :: _ :: _ => rw [transferArgsGuarded, withArity, if_pos (by simp), transferArgs]; simp

/-- There is an address or none once there is at most one argument. -/
theorem balanceArgGuarded_eq (c : Context) (args : List Value) :
    balanceArgGuarded c args = .ok (balanceArg c args) := by
  match args with
  | [] => rfl
  | [_] => rfl
  | _ :: _ :: _ => rw [balanceArgGuarded, withArity, if_pos (by simp), balanceArg]; all_goals simp

/-- There are an owner and a value once there are exactly two arguments. -/
theorem holdingArgsGuarded_eq (args : List Value) :
    holdingArgsGuarded args = .ok (holdingArgs args) := by
  match args with
  | [] => rfl
  | [_] => rfl
  | [owner, v] =>
    change (match setHolding.addressArg owner with
      | .error s => .ok (.error s)
      | .ok owner => .ok (.ok (owner, v))) = Except.ok (holdingArgs [owner, v])
    rw [holdingArgs]
    cases setHolding.addressArg owner <;> rfl
  | _ :: _ :: _ :: _ => rw [holdingArgsGuarded, withArity, if_pos (by simp), holdingArgs]; simp

/-- What a function that needs no context makes of its arguments is what it comes to. -/
theorem conclude_applyPure {x : Except Fault (Except Signal Value)} {r : Except Signal Value}
    (h : x = .ok r) (c : Context) : (do return c.conclude (← x)) = Except.ok (c.conclude r) := by
  rw [h]
  rfl

/-- The application of a function reaches none of its guards. -/
theorem applyGuarded_eq (f : Builtin) (args : List Value) (c : Context) :
    f.applyGuarded args c = .ok (f.apply args c) := by
  cases f with
  | vector => rfl
  | list => rfl
  | conj => exact conclude_applyPure (applyPure_conj args) c
  | assoc => exact conclude_applyPure (applyPure_assoc args) c
  | count => exact conclude_applyPure (applyPure_count args) c
  | add => rfl
  | sub => exact conclude_applyPure (applyPure_sub args) c
  | eq => exact conclude_applyPure (applyPure_eq args) c
  | assert => rfl
  | fail => exact conclude_applyPure (applyPure_fail args) c
  | ret => exact conclude_applyPure (ret.withArity_leave .ret args) c
  | rollback => exact conclude_applyPure (rollback.withArity_leave .rollback args) c
  | halt => exact conclude_applyPure (halt.withArity_leave .halt args) c
  | transfer =>
      rw [applyGuarded, transferArgsGuarded_eq, apply]
      cases transferArgs args <;> rfl
  | balance =>
      rw [applyGuarded, balanceArgGuarded_eq, apply]
      cases balanceArg c args <;> rfl
  | setHolding =>
      rw [applyGuarded, holdingArgsGuarded_eq, apply]
      cases holdingArgs args <;> rfl

/-- Every price is a word. -/
theorem applyCost_le (f : Builtin) (argc : Nat) : f.applyCost argc ≤ Cost.most := by
  unfold applyCost
  split
  case h_1 | h_2 | h_3 | h_4 => exact Nat.min_le_right _ _
  all_goals decide

end Builtin

/-! ## The guards of an evaluation -/

namespace Context

/-- A price that is a word is not negative as one. -/
theorem chargeGuarded_eq (c : Context) {price : Nat} (h : price ≤ Cost.most) :
    c.chargeGuarded price = .ok (c.charge price) := by
  have hword : (Int64.ofNat price).toInt = price := Int64.toInt_ofNat_of_lt (by
    simp only [Cost.most] at h
    omega)
  have hnonneg : ¬Int64.ofNat price < 0 := by
    rw [Int64.lt_iff_toInt_lt, hword]
    simp
  rw [chargeGuarded, chargeChecked, if_neg hnonneg, hword]
  rfl

end Context

/-- What an operation costs for itself is a word. -/
theorem Op.cost_le (op : Op) : op.cost ≤ Cost.most := by
  cases op <;> exact of_decide_eq_true rfl

/-- A guard that lets its step pass. -/
theorem comes_guarded {step : Context → Except Fault Context} {c d : Context}
    (h : step c = .ok d) : (Reading.total Fault).Comes (guarded step) c () d := by
  change (do let p ← (do return (← step c, c)); return ((), p.1)) = Except.ok ((), d)
  rw [h]
  rfl

/-- The result of a context is read only after it was seen not to be exceptional. -/
theorem sound_guarding : guarding.Sound (.total Fault) where
  call _ := rfl
  result {c v} hc := by
    change (c.resultGuarded >>= fun v ↦ .ok (v, c)) = _
    rw [Context.resultGuarded, Context.result, hc]
    rfl
  produce _ _ := rfl
  nested hstep _ := Reading.comes_nested rfl (fun _ ↦ rfl) hstep

/-- Every charge is a word, and no application of a function is stopped. -/
theorem soundIn_guarding (op : Op) : op.SoundIn guarding (.total Fault) where
  cost c := comes_guarded (c.chargeGuarded_eq op.cost_le)
  lookup _ _ _ := rfl
  define _ _ _ _ _ := rfl
  undefine _ _ _ := rfl
  applyCost f _ argc c _ := comes_guarded (c.chargeGuarded_eq (f.applyCost_le argc))
  apply f _ args c _ := comes_guarded (f.applyGuarded_eq args c)

/-- An evaluation reaches none of its guards. -/
theorem Op.evalGuarded_eq (op : Op) (c : Context) : op.evalGuarded c = .ok (op.eval c) := by
  have hrun : (op.evalWith guarding).run c = .ok ((), op.eval c) :=
    Reading.comes_evalWith sound_guarding op (fun n _ ↦ soundIn_guarding n) c
  rw [evalGuarded, hrun]
  rfl

end MeteredLedger
