/-!
# Diagnostic descriptions

One layout for every value that diagnostics name: a record lists its fields in
braces, a wrapper shows its content in parentheses, an optional value says
whether it is there.

## Sections
- §1: Layouts
-/

namespace ClusterView.Describe

/-! ## §1 Layouts -/

/-- **Record**: the name, then every field with its value, in the order given. -/
def record (name : String) (fields : List (String × String)) : String :=
  name ++ " \x7b " ++ ", ".intercalate (fields.map fun field => field.1 ++ ": " ++ field.2) ++ " \x7d"

/-- **Wrapper**: the name around one value. -/
def wrapped (name content : String) : String :=
  name ++ "(" ++ content ++ ")"

/-- **Optional value**: `Some` around it, or `None`. -/
def optional : Option String → String
  | some content => wrapped "Some" content
  | none => "None"

/-- **Sequence**: the items between square brackets. -/
def sequence (items : List String) : String :=
  "[" ++ ", ".intercalate items ++ "]"

/-- **Quoted word**: a word without special characters between quotes. -/
def quoted (word : String) : String :=
  "\"" ++ word ++ "\""

def truth : Bool → String
  | true => "true"
  | false => "false"

end ClusterView.Describe
