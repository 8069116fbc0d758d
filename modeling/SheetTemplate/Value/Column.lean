import SheetTemplate.Value.Compare
import SheetTemplate.Value.Shown

namespace SheetTemplate.Value

open Number

def gap : Value := .float notANumber

def isReal : Value → Bool
  | .int _ | .float _ => true
  | _ => false

def isWhole : Value → Bool
  | .int _ => true
  | _ => false

def toFloatValue : Value → Value
  | .int n => .float (floatOfInt n)
  | .null => gap
  | v => v

def isMomentOrNull : Value → Bool
  | .moment _ | .timestamp _ | .null => true
  | _ => false

def toStamp : Value → Value
  | .moment m => .timestamp m
  | .null => .noTime
  | v => v

def ofColumn (cells : List (Option Value)) : List Value :=
  let items := cells.map fun c => c.getD gap
  let given := items.filter fun v => match v with
    | .null => false
    | _ => true
  if !given.isEmpty && given.all isReal then
    if items.all isWhole then items else items.map toFloatValue
  else if !given.isEmpty && items.all isMomentOrNull then items.map toStamp
  else items

def ofArray (items : List Value) : List Value :=
  let flat := items.flatMap fun v => match v with
    | .list inner => inner
    | _ => [v]
  let isText (v : Value) : Bool := v.text?.isSome
  let isNumber (v : Value) : Bool := v.isReal || (match v with
    | .bool _ => true
    | _ => false)
  let toKind : Value → Value :=
    if flat.all isNumber then
      if flat.all isReal then
        if flat.all isWhole then id else toFloatValue
      else if flat.any isReal then
        let whole (v : Value) : Value := match v with
          | .bool b => .int (if b then 1 else 0)
          | _ => v
        if flat.any (fun v => v.isReal && !v.isWhole) then fun v => toFloatValue (whole v)
        else whole
      else id
    else if flat.any isText && flat.all (fun v => isText v || isNumber v) then fun v => .text v.shown
    else id
  items.map fun v => match v with
    | .list inner => .list (inner.map toKind)
    | _ => toKind v

def fieldNames (rows : List (List (String × Value))) : List String :=
  (rows.flatMap fun r => r.map (·.1)).eraseDups

def ofRows (rows : List (List (String × Value))) : List Value :=
  let columns := (fieldNames rows).map fun n => (n, (ofColumn (rows.map (List.lookup n))).toArray)
  rows.mapIdx fun i _ =>
    .dict (columns.map fun (n, column) => (.text n, column.getD i gap))

end SheetTemplate.Value
