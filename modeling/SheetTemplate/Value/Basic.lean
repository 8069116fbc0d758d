import SheetTemplate.Number.Decimal
import SheetTemplate.Value.Calendar

/-!
The values that data, expressions and cells hold.
-/

namespace SheetTemplate

open Number Value

inductive Scalar where
  | int64 (n : Int)
  | float64 (x : Float)
  | float32 (x : Float)
  | bool (b : Bool)
  | text (s : String)
  | noTime

structure Picture where
  format : String
  width : Nat
  height : Nat
  deriving DecidableEq, Repr

inductive Builtin where
  | len | str | int | float | bool | round | abs | min | max | sum | sorted | hyperlink
  | range | dict | cycler | joiner | lipsum | namespace
  deriving DecidableEq, Repr

inductive ViewKind where
  | keys | values | items
  deriving DecidableEq, Repr

/-- Why a value is missing, as told when it is used; reaching for a guarded one is refused. -/
structure Missing where
  reason : String
  guarded : Bool := false
  deriving DecidableEq, Repr

inductive Value where
  | null
  | missing (why : Missing)
  | bool (b : Bool)
  | int (n : Int)
  | float (x : Float)
  | decimal (d : Decimal)
  | text (s : String)
  | bytes (b : List UInt8)
  | picture (p : Picture)
  | date (d : Date)
  | moment (m : Moment)
  | clock (c : Clock)
  | duration (micros : Int)
  | list (items : List Value)
  | tuple (items : List Value)
  | set (items : List Value)
  | dict (entries : List (Value × Value))
  | record (fields : List (String × Value))
  | group (item : Value) (members : List Value)
  | link (url display : String)
  | scalar (s : Scalar)
  | array (items : List Value)
  | series (items : List Value)
  | frame (rows : List Value)
  | timestamp (m : Moment)
  | noTime
  | range (start stop step : Int)
  | builtin (f : Builtin)
  | hosted (name : String)
  | method (owner : Value) (name : String)
  | view (kind : ViewKind) (entries : List (Value × Value))
  | stream (generated : Bool) (id : Nat)
  | updater (id : Nat)
  | template
  | arrayFormula (text : String)

instance : Inhabited Value := ⟨.null⟩

namespace Value

def className : Value → String
  | null => "NoneType"
  | missing _ => "Undefined"
  | bool _ => "bool"
  | int _ => "int"
  | float _ => "float"
  | decimal _ => "Decimal"
  | text _ => "str"
  | bytes _ => "bytes"
  | picture _ => "bytes"
  | date _ => "date"
  | moment _ => "datetime"
  | clock _ => "time"
  | duration _ => "timedelta"
  | list _ => "list"
  | tuple _ => "tuple"
  | set _ => "set"
  | dict _ => "dict"
  | record _ => "Obj"
  | group _ _ => "GroupData"
  | link _ _ => "HyperlinkValue"
  | scalar (.int64 _) => "int64"
  | scalar (.float64 _) => "float64"
  | scalar (.float32 _) => "float32"
  | scalar (.bool _) => "bool"
  | scalar (.text _) => "str_"
  | scalar .noTime => "datetime64"
  | array _ => "ndarray"
  | series _ => "Series"
  | frame _ => "DataFrame"
  | timestamp _ => "Timestamp"
  | noTime => "NaTType"
  | range _ _ _ => "range"
  | builtin f =>
    match f with
    | .str | .int | .float | .bool | .dict | .cycler | .joiner | .namespace => "type"
    | .hyperlink | .range | .lipsum => "function"
    | _ => "builtin_function_or_method"
  | hosted _ => "function"
  | method _ _ => "builtin_function_or_method"
  | view .keys _ => "dict_keys"
  | view .values _ => "dict_values"
  | view .items _ => "dict_items"
  | stream true _ => "generator"
  | stream false _ => "list_iterator"
  | updater _ => "Updater"
  | template => "TemplateReference"
  | arrayFormula _ => "ArrayFormula"

def typeName (v : Value) : String :=
  match v with
  | decimal _ => "decimal.Decimal"
  | date _ => "datetime.date"
  | moment _ => "datetime.datetime"
  | clock _ => "datetime.time"
  | duration _ => "datetime.timedelta"
  | scalar (.text _) => "numpy.str_"
  | scalar _ => "numpy." ++ v.className
  | array _ => "numpy.ndarray"
  | _ => v.className

def Scalar.plain : Scalar → Value
  | .int64 n => .int n
  | .float64 x => .float x
  | .float32 x => .float x
  | .bool b => .bool b
  | .text s => .text s
  | .noTime => .null

def isMissing : Value → Bool
  | missing _ => true
  | _ => false

end Value

end SheetTemplate
