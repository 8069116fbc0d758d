import SheetTemplate.Value.Shown
import SheetTemplate.Value.Compare

namespace SheetTemplate

inductive CellKind where
  | blank | string | number | boolean | date | formula
  deriving DecidableEq, Repr, Inhabited

def CellKind.title : CellKind → String
  | blank => "blank"
  | string => "string"
  | number => "number"
  | boolean => "boolean"
  | date => "date"
  | formula => "formula"

namespace Value

open Number

def unwrap : Value → Value
  | scalar .noTime => .text "None"
  | scalar s => Scalar.plain s
  | v => v

def stored (v : Value) : Value :=
  match v.unwrap with
  | null => .null
  | noTime => .null
  | float x => if isNaN x then .null else .float x
  | timestamp m => .moment m
  | bool b => .bool b
  | int n => .int n
  | decimal d => .decimal d
  | text s => .text s
  | date d => .date d
  | moment m => .moment m
  | clock c => .clock c
  | duration n => .duration n
  | link u d => .link u d
  | w => .text w.shown

def hasDateParts : Value → Bool
  | date _ | moment _ | timestamp _ | noTime => true
  | record fields => fields.any (·.1 == "year") && fields.any (·.1 == "month")
  | _ => false

def cellKind (v : Value) : CellKind :=
  match v with
  | null => .blank
  | bool _ => .boolean
  | int _ | float _ | scalar (.float64 _) => .number
  | text s | scalar (.text s) => if s.isEmpty then .blank else .string
  | _ => if v.hasDateParts then .date else .string

end Value

end SheetTemplate
