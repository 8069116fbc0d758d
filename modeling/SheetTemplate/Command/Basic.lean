import SheetTemplate.Directive.Attributes
import SheetTemplate.Failure
import SheetTemplate.Number.Read
import SheetTemplate.Text.Casing
import SheetTemplate.Text.Identifier

/-!
Commands: what they are called, the attributes that they need, and how they are described.
-/

namespace SheetTemplate

open Number Text

def Attributes.require (a : Attributes) (key command : String) : Except Failure String :=
  let text := stripText ((a.find? key).getD "")
  if text.isEmpty then
    .error (.template
      { cause := .missingAttribute command key
        command := some command
        property := some key })
  else .ok text

namespace Attributes

def given? (a : Attributes) (key : String) : Option String :=
  (a.find? key).filter fun s => !s.isEmpty

def read {α : Type} (a : Attributes) (key command : String) (read? : List Char → Option α)
    (cause : String → String → Cause) (absent : α) : Except Failure α :=
  let cs := strip ((a.find? key).getD "").toList
  if cs.isEmpty then .ok absent
  else
    match read? cs with
    | some x => .ok x
    | none =>
      .error (.template
        { cause := cause key (String.ofList cs)
          command := some command
          property := some key })

end Attributes

structure EachSpec where
  items : String
  var : String
  varIndex? : Option String := none
  direction : String := "DOWN"
  select? : Option String := none
  groupBy? : Option String := none
  groupOrder? : Option String := none
  orderBy? : Option String := none
  multisheet? : Option String := none
  deriving DecidableEq, Repr

namespace EachSpec

def down : String := "DOWN"

def right : String := "RIGHT"

def ofAttributes (a : Attributes) : Except Failure EachSpec := do
  let items ← a.require "items" "each"
  let var ← a.require "var" "each"
  if !isIdentifier var.toList then
    .error (.template
      { cause := .badLoopName var, command := some "each", property := some "var" })
  else
    .ok
      { items := items
        var := var
        varIndex? := a.given? "varIndex"
        direction := String.ofList (upper ((a.given? "direction").getD down).toList)
        select? := a.given? "select"
        groupBy? := a.given? "groupBy"
        groupOrder? := a.given? "groupOrder"
        orderBy? := a.given? "orderBy"
        multisheet? := a.given? "multisheet" }

end EachSpec

structure GridSpec where
  headers : String
  rows : String
  fields : List String := []
  deriving DecidableEq, Repr

namespace GridSpec

def ofAttributes (a : Attributes) : Except Failure GridSpec := do
  let headers ← a.require "headers" "grid"
  let rows ← a.require "data" "grid"
  let fields := (splitOnChar ',' ((a.find? "props").getD "").toList).map strip
  .ok
    { headers := headers
      rows := rows
      fields := (fields.filter fun f => !f.isEmpty).map String.ofList }

end GridSpec

structure ImageSpec where
  picture : String
  format : String := "PNG"
  scaleX : Float := 1
  scaleY : Float := 1

namespace ImageSpec

def ofAttributes (a : Attributes) : Except Failure ImageSpec := do
  let picture ← a.require "src" "image"
  let scaleX ← a.read "scaleX" "image" readFloat? .notNumber 1
  let scaleY ← a.read "scaleY" "image" readFloat? .notNumber 1
  .ok
    { picture := picture
      format := String.ofList (upper ((a.given? "imageType").getD "PNG").toList)
      scaleX := scaleX
      scaleY := scaleY }

end ImageSpec

structure MergeSpec where
  cols? : Option String := none
  rows? : Option String := none
  minCols : Int := 0
  minRows : Int := 0
  deriving DecidableEq, Repr

namespace MergeSpec

def ofAttributes (a : Attributes) : Except Failure MergeSpec := do
  let minCols ← a.read "minCols" "mergeCells" (readInt? 10) .notInteger 0
  let minRows ← a.read "minRows" "mergeCells" (readInt? 10) .notInteger 0
  .ok
    { cols? := a.given? "cols"
      rows? := a.given? "rows"
      minCols := minCols
      minRows := minRows }

end MergeSpec

structure HostedCommand where
  kind : String
  name : String
  className : String
  settings : List (String × String) := []
  deriving DecidableEq, Repr

inductive Command where
  | each (e : EachSpec)
  | «if» (condition : String)
  | grid (g : GridSpec)
  | image (i : ImageSpec)
  | mergeCells (m : MergeSpec)
  | updateCell (updater : String)
  | autoRowHeight
  | hosted (h : HostedCommand)

namespace Command

def name : Command → String
  | each _ => "each"
  | «if» _ => "if"
  | grid _ => "grid"
  | image _ => "image"
  | mergeCells _ => "mergeCells"
  | updateCell _ => "updateCell"
  | autoRowHeight => "autoRowHeight"
  | hosted h => h.name

def className : Command → String
  | each _ => "EachCommand"
  | «if» _ => "IfCommand"
  | grid _ => "GridCommand"
  | image _ => "ImageCommand"
  | mergeCells _ => "MergeCellsCommand"
  | updateCell _ => "UpdateCellCommand"
  | autoRowHeight => "AutoRowHeightCommand"
  | hosted h => h.className

def givenPairs (pairs : List (String × Option String)) : List (String × String) :=
  pairs.filterMap fun (k, v?) => v?.map fun v => (k, v)

def shownAttributes : Command → List (String × String)
  | each e =>
    givenPairs
      [("items", some e.items), ("var", some e.var), ("varIndex", e.varIndex?),
        ("direction", if e.direction == EachSpec.down then none else some e.direction),
        ("select", e.select?), ("groupBy", e.groupBy?), ("groupOrder", e.groupOrder?),
        ("orderBy", e.orderBy?), ("multisheet", e.multisheet?)]
  | «if» c => [("condition", c)]
  | grid g =>
    givenPairs
      [("headers", some g.headers), ("data", some g.rows),
        ("props", if g.fields.isEmpty then none else some (joinText "," g.fields))]
  | image i => [("src", i.picture), ("imageType", i.format)]
  | mergeCells m => givenPairs [("cols", m.cols?), ("rows", m.rows?)]
  | updateCell u => [("updater", u)]
  | autoRowHeight => []
  | hosted _ => []

def expressions : Command → List (String × String)
  | each e =>
    givenPairs [("items", some e.items), ("select", e.select?), ("multisheet", e.multisheet?)]
  | «if» c => [("condition", c)]
  | grid g => [("headers", g.headers), ("data", g.rows)]
  | image i => [("src", i.picture)]
  | mergeCells m => givenPairs [("cols", m.cols?), ("rows", m.rows?)]
  | updateCell _ => []
  | autoRowHeight => []
  | hosted _ => []

def shown (c : Command) : String :=
  let attributes := joinText " " (c.shownAttributes.map fun (k, v) => k ++ "=" ++ quoted v)
  let text := ("<" ++ c.className ++ " " ++ attributes ++ ">").toList
  String.ofList (replaceText [' ', '>'] ['>'] text.length text)

def areaLimit : Command → Nat
  | «if» _ => 2
  | _ => 1

def attach {α : Type} (c : Command) (areas : List α) (a : α) : List α :=
  areas.take (c.areaLimit - 1) ++ [a]

end Command

abbrev CommandFactory := Attributes → Except Failure Command

abbrev Registry := List (String × CommandFactory)

namespace Registry

def areaName : String := "area"

def builtin : Registry :=
  [("each", fun a => .each <$> EachSpec.ofAttributes a),
    ("if", fun a => .if <$> a.require "condition" "if"),
    ("grid", fun a => .grid <$> GridSpec.ofAttributes a),
    ("image", fun a => .image <$> ImageSpec.ofAttributes a),
    ("mergeCells", fun a => .mergeCells <$> MergeSpec.ofAttributes a),
    ("updateCell", fun a => .updateCell <$> a.require "updater" "updateCell"),
    ("autoRowHeight", fun _ => .ok .autoRowHeight)]

def register (r : Registry) (name : String) (f : CommandFactory) : Registry :=
  (r.filter fun e => e.1 != name) ++ [(name, f)]

def names (r : Registry) : List String := (r.map (·.1)).mergeSort fun a b => decide (a ≤ b)

def named (name : String) : Command → Command
  | .hosted h => .hosted (if h.name.isEmpty then { h with name := name } else h)
  | c => c

def create (r : Registry) (name : String) (a : Attributes) : Except Failure (Option Command) :=
  match r.find? fun e => e.1 == name with
  | some (_, f) => (f a).map fun c => some (named name c)
  | none => .ok none

end Registry

end SheetTemplate
