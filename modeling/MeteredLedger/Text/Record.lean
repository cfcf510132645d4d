/-!
# Structured text

How a record, a tagged tuple and a sequence are laid out when they are inspected.
-/

namespace MeteredLedger.Text

/-- A record with the names of its fields, as `Name { a: 1, b: 2 }`. -/
def record (name : String) (fields : List (String × String)) : String :=
  name ++ " \x7b " ++ ", ".intercalate (fields.map fun f ↦ f.1 ++ ": " ++ f.2) ++ " \x7d"

/-- A tag with its arguments, as `Name(1, 2)`. -/
def tagged (name : String) (args : List String) : String :=
  name ++ "(" ++ ", ".intercalate args ++ ")"

/-- A bracketed sequence, as `[1, 2]`. -/
def bracketed (items : List String) : String :=
  "[" ++ ", ".intercalate items ++ "]"

end MeteredLedger.Text
