import SheetTemplate.Collection.Items
import SheetTemplate.Sorting
import SheetTemplate.Text.Casing

namespace SheetTemplate

open Text

namespace Value

def isOrderNumber : Value → Bool
  | int _ | float _ | decimal _ => true
  | scalar (.int64 _) | scalar (.float64 _) | scalar (.float32 _) => true
  | _ => false

def isScalar : Value → Bool
  | scalar _ => true
  | _ => false

def sameDateKind : Value → Value → Bool
  | date _, date _ | moment _, moment _ | timestamp _, timestamp _ => true
  | _, _ => false

def truthDifference : Fault :=
  .badType ("numpy boolean subtract, the `-` operator, is not supported, use the bitwise_xor, " ++
    "the `^` operator, or the logical_xor function instead.")

def ofTexts (s t : String) : Int := if s < t then -1 else if t < s then 1 else 0

def byOrder (a b : Value) : Except Fault Int := do
  -- Asked in both directions, so that what is no number stands level with every number.
  let greater ← a.order .gt b
  let less ← a.order .lt b
  if a.isScalar || b.isScalar then .error truthDifference
  else .ok ((if greater then 1 else 0) - (if less then 1 else 0))

def compareKeys (a b : Value) : Except Fault Int :=
  match a, b with
  | null, null => .ok 0
  | null, _ => .ok (-1)
  | _, null => .ok 1
  | noTime, noTime => .ok 0
  | _, _ =>
    if (a.isOrderNumber && b.isOrderNumber) || sameDateKind a b then byOrder a b
    else .ok (ofTexts a.shown b.shown)

end Value

structure OrderSpec where
  field : String
  descending : Bool := false
  deriving DecidableEq, Repr

namespace OrderSpec

def withoutVar (path var : String) : String :=
  match dropPrefix? (var.toList ++ ['.']) path.toList with
  | some rest => String.ofList rest
  | none => path

def ofWords (var : String) : List (List Char) → Option OrderSpec
  | [] => none
  | [path] => some { field := withoutVar (String.ofList path) var }
  | path :: direction :: _ =>
    some
      { field := withoutVar (String.ofList path) var
        descending := upper direction == "DESC".toList }

def parse (spec var : String) : List OrderSpec :=
  (splitOnChar ',' spec.toList).filterMap fun part => ofWords var (words part)

def compareItems (specs : List OrderSpec) (a b : Value) : Except Fault Int :=
  match specs with
  | [] => .ok 0
  | spec :: rest => do
    let r ← (a.field spec.field).compareKeys (b.field spec.field)
    let r := if spec.descending then -r else r
    if r = 0 then compareItems rest a b else .ok r

def sortItems (specs : List OrderSpec) (items : List Value) : Except Fault (List Value) :=
  if specs.isEmpty || items.length ≤ 1 then .ok items
  else Sorting.sort (fun a b => do .ok (decide ((← compareItems specs a b) < 0))) items

end OrderSpec

structure Group where
  key : Value
  item : Value
  members : List Value

namespace Group

def toValue (g : Group) : Value := .group g.item g.members

def add (key item : Value) : List Group → List Group
  | [] => [{ key := key, item := item, members := [item] }]
  | g :: rest =>
    if g.key.shown == key.shown then { g with members := g.members ++ [item] } :: rest
    else g :: add key item rest

def collect (field : String) (items : List Value) : List Group :=
  items.foldl (fun groups item => add (item.field field) item groups) []

structure Ordering where
  descending : Bool
  ignoreCase : Bool
  deriving DecidableEq, Repr

def Ordering.parse (s : String) : Ordering :=
  let capitals := upper s.toList
  { descending := containsText "DESC".toList capitals
    ignoreCase := containsText "IGNORECASE".toList capitals ||
      containsText "IGNORE_CASE".toList capitals }

def compareGroups (o : Ordering) (a b : Group) : Except Fault Int := do
  let lowered (v : Value) : String := String.ofList (lower v.shown.toList)
  let r ← if o.ignoreCase then .ok (Value.ofTexts (lowered a.key) (lowered b.key))
    else a.key.compareKeys b.key
  .ok (if o.descending then -r else r)

def ofItems (items : List Value) (field order : String) : Except Fault (List Group) :=
  let groups := collect field items
  if order.isEmpty then .ok groups
  else
    let o := Ordering.parse order
    Sorting.sort (fun a b => do .ok (decide ((← compareGroups o a b) < 0))) groups

end Group

end SheetTemplate
