import SheetTemplate.Text.Scan
import SheetTemplate.Value.Stored

namespace SheetTemplate

open Text

inductive StoredType where
  | number | boolean | date | text | formula | error
  deriving DecidableEq, Repr, Inhabited

def StoredType.letter : StoredType → String
  | number => "n"
  | boolean => "b"
  | date => "d"
  | text => "s"
  | formula => "f"
  | error => "e"

structure Font where
  bold : Bool := false
  italic : Bool := false
  deriving DecidableEq, Repr, Inhabited

namespace Font

def isPlain (f : Font) : Bool := !f.bold && !f.italic

end Font

structure Cell where
  value : Value := .null
  type : StoredType := .number
  font? : Option Font := none
  link? : Option String := none
  comment? : Option String := none
  deriving Inhabited

namespace Cell

def font (c : Cell) : Font := c.font?.getD {}

def longestText : Nat := 32767

def isControl (c : Char) : Bool := c.toNat < 32 && !(c == '\t' || c == '\n' || c == '\r')

def heldText? (s : String) : Option String :=
  let cs := s.toList.take longestText
  if cs.any isControl then none else some (String.ofList cs)

def errorCodes : List String :=
  ["#NULL!", "#DIV/0!", "#VALUE!", "#REF!", "#NAME?", "#NUM!", "#N/A"]

def startsFormula (s : String) : Bool := startsWith ['='] s.toList

def textType (s : String) : StoredType :=
  if startsFormula s && 1 < s.length then .formula
  else if errorCodes.contains s then .error
  else .text

def typeOf : Value → StoredType
  | .bool _ => .boolean
  | .date _ | .moment _ | .clock _ | .duration _ | .timestamp _ => .date
  | .text s => textType s
  | .arrayFormula _ => .formula
  | _ => .number

def put? (c : Cell) : Value → Option Cell
  | .text s => (heldText? s).map fun s => { c with value := .text s, type := textType s }
  | v =>
    let type := typeOf v
    some { c with value := v, type := type, font? := if type = .date then some c.font else c.font? }

def refused (c : Cell) : Cell := { c with type := .text }

def clear (c : Cell) : Cell := { c with value := .null, type := .number, link? := none }

def setLink? (c : Cell) (url : String) : Option Cell :=
  let c := { c with link? := some url }
  match c.value with
  | .null => if url.isEmpty then some c else c.put? (.text url)
  | _ => some c

def write? (c : Cell) (v : Value) : Option Cell :=
  match v.stored with
  | .link url display => (c.put? (.text (Value.link url display).shown)).bind (·.setLink? url)
  | .text s =>
    -- Data with an equals sign in front must not become a formula.
    let s := String.ofList (s.toList.filter fun x => !isControl x)
    (c.put? (.text s)).map fun c => if startsFormula s then { c with type := .text } else c
  | w => c.put? w

def formula? (c : Cell) : Option String :=
  match c.value, c.type with
  | .text s, .formula => some (String.ofList (s.toList.dropWhile (· == '=')))
  | _, _ => none

end Cell

end SheetTemplate
