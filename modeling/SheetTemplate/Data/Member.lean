import SheetTemplate.Expr.Access

namespace SheetTemplate.Value

open Number

def member? (v : Value) (name : String) : Option Value :=
  match v with
  | .dict entries => lookup? entries (.text name)
  | _ => none

def member (v : Value) (name : String) : Value := (v.member? name).getD .null

def elements : Value → List Value
  | .list items => items
  | _ => []

def element (v : Value) (i : Nat) : Value := v.elements.getD i .null

def members : Value → List (String × Value)
  | .dict entries => entries.filterMap fun (k, v) => k.text?.map fun name => (name, v)
  | _ => []

def toInt : Value → Int
  | .int n => n
  | .float x => (truncate? x).getD 0
  | _ => 0

def toFloat : Value → Float
  | .float x => x
  | .int n => floatOfInt n
  | v => (readFloat? v.shown.toList).getD 0

def toBool (absent : Bool) : Value → Bool
  | .bool b => b
  | _ => absent

def named (fields : List (String × Value)) : Value := .dict (fields.map fun (k, v) => (.text k, v))

end SheetTemplate.Value
