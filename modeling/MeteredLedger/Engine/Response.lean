import MeteredLedger.Machine.Context
import MeteredLedger.Text.JsonString

/-!
# Responses

What a host is told of a request: a value, or the code and message of an error.  A control signal
that reaches the host reports its payload as a value.
-/

namespace MeteredLedger

inductive ResponseBody where
  | value (v : Value)
  | error (code message : Value)
deriving DecidableEq

structure Response where
  id : UInt64
  body : ResponseBody
  juiceUsed : Int64
deriving DecidableEq

namespace ResponseBody

def ofOutcome : Outcome → ResponseBody
  | .value v => value v
  | .signal (.error code message) => error code message
  | .signal (.control _ payload) => value payload

def inspect : ResponseBody → String
  | value v => Text.tagged "Value" [v.edn]
  | error code message => Text.record "Error" [("code", code.edn), ("message", message.edn)]

/-- A message as text: a string as its content, any other value as it prints. -/
def messageText : Value → String
  | .string s => s
  | v => v.edn

/-- The body as a member of a JSON object. -/
def jsonMember : ResponseBody → String
  | value v => "\"value\":" ++ Text.jsonQuote v.edn
  | error code message =>
    "\"error\":\x7b\"code\":" ++ Text.jsonQuote code.edn ++
      ",\"message\":" ++ Text.jsonQuote (messageText message) ++ "\x7d"

end ResponseBody

namespace Response

/-- The response to a request that ended in a context. -/
def ofContext (id : UInt64) (c : Context) : Response :=
  ⟨id, .ofOutcome c.outcome, .ofNat c.juice.used⟩

def isError (r : Response) : Bool :=
  match r.body with
  | .value _ => false
  | .error .. => true

def value? (r : Response) : Option Value :=
  match r.body with
  | .value v => some v
  | .error .. => none

/-- The code of the machine that the error carries. -/
def errorCode? (r : Response) : Option ErrorCode :=
  match r.body with
  | .value _ => none
  | .error code _ => ErrorCode.ofValue? code

/-- The response on the wire: compact JSON with the fields in a fixed order. -/
def toJson (r : Response) : String :=
  "\x7b\"id\":" ++ Text.ofInt r.id.toNat ++ "," ++ r.body.jsonMember ++
    ",\"juice_used\":" ++ Text.ofInt r.juiceUsed.toInt ++ "\x7d"

def inspect (r : Response) : String :=
  Text.record "Response"
    [("id", Text.ofInt r.id.toNat), ("body", r.body.inspect),
      ("juice_used", Text.ofInt r.juiceUsed.toInt)]

end Response

end MeteredLedger
