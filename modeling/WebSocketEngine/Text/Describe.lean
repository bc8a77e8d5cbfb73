/-!
One-line descriptions of values: `Name { field: value, .. }`, `Name(value)`, `[a, b]`.

A description is for people who read logs and reports.  A record names its fields in a fixed order;
one that keeps some of its state to itself ends in `..`.
-/

namespace WebSocketEngine.Describe

/-- The opening brace of a record and its closing one. -/
def opening : String := " \x7b "

def closing : String := " \x7d"

/-- `name: value` for each field, separated by commas. -/
def fields (fs : List (String × String)) : String :=
  ", ".intercalate (fs.map fun f => f.1 ++ ": " ++ f.2)

/-- A record that shows all of its fields. -/
def record (name : String) (fs : List (String × String)) : String :=
  name ++ opening ++ fields fs ++ closing

/-- A record that shows some of its fields and hides the rest. -/
def partly (name : String) (fs : List (String × String)) : String :=
  name ++ opening ++ fields fs ++ ", .." ++ closing

/-- A value wrapped in a name. -/
def wrapped (name value : String) : String :=
  name ++ "(" ++ value ++ ")"

/-- A value that may be missing. -/
def maybe (describe : α → String) : Option α → String
  | none => "None"
  | some a => wrapped "Some" (describe a)

/-- The items of a list between brackets. -/
def items (describe : α → String) (xs : List α) : String :=
  "[" ++ ", ".intercalate (xs.map describe) ++ "]"

/-- The two truth values, in lower case. -/
def truth (b : Bool) : String :=
  if b then "true" else "false"

end WebSocketEngine.Describe
