import MeteredLedger.Machine.ErrorCode
import MeteredLedger.Machine.Juice
import MeteredLedger.Text.Record
import MeteredLedger.Value.Error
import MeteredLedger.Value.Order

/-!
# Outcomes

An execution ends with a value or with a signal: an error, or a control signal that carries a
payload out of the program.  A signal passes through every step that follows until something
inspects it.
-/

namespace MeteredLedger

/-- How a program leaves its execution early. -/
inductive Control where
  /-- Stop with a result and keep what was changed. -/
  | ret
  /-- Stop with a result and give up what was changed. -/
  | rollback
  /-- End the whole transaction with a result and keep what was changed. -/
  | halt
deriving DecidableEq, Repr

namespace Control

def code : Control → ErrorCode
  | ret => .ret
  | rollback => .rollback
  | halt => .halt

def name : Control → String
  | ret => "return"
  | rollback => "rollback"
  | halt => "halt"

end Control

/-- A non-local exit. -/
inductive Signal where
  | error (code message : Value)
  | control (kind : Control) (payload : Value)
deriving DecidableEq

/-- What an execution has come to. -/
inductive Outcome where
  | value (v : Value)
  | signal (s : Signal)
deriving DecidableEq

/-- A misuse of the machine by its host, which no program can bring about. -/
inductive Defect where
  /-- An error was built with nil as its code. -/
  | nilErrorCode
  | negativeCharge (amount : Int64)
  /-- The result of an exceptional context was read. -/
  | noResult (signal : Signal)
deriving DecidableEq

namespace Signal

/-- An error with a code of the machine and a text. -/
def coded (code : ErrorCode) (message : String) : Signal := error code.toValue (.string message)

/-- An error with any code but nil. -/
def ofCode (code message : Value) : Except Defect Signal :=
  if code.isNil then .error .nilErrorCode else .ok (error code message)

/-- The error that tells of a failed data operation. -/
def ofUpdateError (e : UpdateError) : Signal :=
  coded
    (match e with
    | .indexOutOfBounds .. => .bounds
    | .noSuchAccount _ => .nobody
    | .insufficientFunds .. => .funds
    | .invalidAmount _ => .argument)
    e.message

/-- The code of an error, or the keyword of a control signal. -/
def code : Signal → Value
  | error code _ => code
  | control kind _ => kind.code.toValue

/-- The code of the machine that the code of the signal names. -/
def errorCode? (s : Signal) : Option ErrorCode := ErrorCode.ofValue? s.code

/-- The message of an error, or the payload of a control signal. -/
def message : Signal → Value
  | error _ message => message
  | control _ payload => payload

def isError : Signal → Bool
  | error .. => true
  | control .. => false

def isControl (s : Signal) : Bool := !s.isError

/-- The kind of signal in one word. -/
def kindName : Signal → String
  | error .. => "error"
  | control kind _ => kind.name

def text : Signal → String
  | error code message => code.edn ++ " " ++ message.edn
  | control kind payload => kind.name ++ " " ++ payload.edn

def inspect : Signal → String
  | error code message => Text.record "Error" [("code", code.edn), ("message", message.edn)]
  | control kind payload => Text.tagged kind.code.inspect [payload.edn]

end Signal

namespace Outcome

instance : Inhabited Outcome := ⟨.value .nil⟩

def isExceptional : Outcome → Bool
  | value _ => false
  | signal _ => true

def value? : Outcome → Option Value
  | value v => some v
  | signal _ => none

/-- The outcome of a computation that may raise a signal. -/
def ofExcept : Except Signal Value → Outcome
  | .ok v => value v
  | .error s => signal s

def inspect : Outcome → String
  | value v => Text.tagged "Value" [v.edn]
  | signal s => Text.tagged "Exceptional" [s.inspect]

end Outcome

namespace Defect

def message : Defect → String
  | nilErrorCode => "exceptional error code must not be nil"
  | negativeCharge amount => "juice charge must not be negative: " ++ Text.ofInt amount.toInt
  | noResult s => "cannot read result of exceptional context: " ++ s.text

end Defect

namespace Juice

/-- Charges an amount that a host gives, which may not be negative, and says whether it sufficed. -/
def consume (j : Juice) (amount : Int64) : Except Defect (Bool × Juice) :=
  if amount < 0 then .error (.negativeCharge amount)
  else .ok (j.covers amount.toInt, j.charge amount.toInt.toNat)

end Juice

end MeteredLedger
