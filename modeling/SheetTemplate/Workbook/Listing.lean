import SheetTemplate.Data.Member
import SheetTemplate.Workbook.Basic

namespace SheetTemplate

open Text Value

namespace Cell

def ofListing (read : Value → Value) (v : Value) : Cell :=
  let isNamed := ["v", "font", "link", "array"].any fun k => (v.member? k).isSome
  let value := read (if isNamed then v.member "v" else v)
  let c : Cell :=
    if (v.member? "array").isSome then { value := .arrayFormula value.shown, type := .formula }
    else (({} : Cell).put? value).getD {}
  let c := match v.member "font" with
    | .text f => { c with font? := some ⟨f.toList.contains 'b', f.toList.contains 'i'⟩ }
    | _ => c
  match v.member "link" with
  | .text url => (c.setLink? url).getD c
  | _ => c

def listing (write : Value → Value) (c : Cell) : List (String × Value) :=
  let font := (if c.font.bold then "b" else "") ++ (if c.font.italic then "i" else "")
  let content (v : Value) : List (String × Value) := [("t", .text c.type.letter), ("v", v)]
  let text? (k : String) (s? : Option String) : List (String × Value) :=
    s?.toList.map fun s => (k, .text s)
  (match c.value with
    | .null => []
    | .arrayFormula s => content (.text ("ARRAY" ++ s))
    | v => content (write v)) ++
  text? "font" (if font.isEmpty then none else some font) ++ text? "link" c.link? ++
    text? "comment" c.comment?

end Cell

namespace Block

def label (b : Block) : String :=
  let name (p : Pos) : String := (CellRef.ofPos "" p).label
  if b.first = b.last then name b.first else name b.first ++ ":" ++ name b.last

end Block

namespace Sheet

def columnIndex (name : List Char) : Int :=
  (((Column.ofName (String.ofList name)).toOption.getD 0 : Nat) : Int)

def putWidth (s : Sheet) (columns : String) (width : Float) : Sheet :=
  let ends := (splitOnChar ':' columns.toList).map columnIndex
  s.setWidth ⟨ends.headD 0, ends.getLastD 0, width⟩

def putHeight (s : Sheet) (row : String) (v : Value) : Sheet :=
  match v with
  | .null => s
  | _ => s.setHeight ⟨(Number.readInt? 10 row.toList).getD 1 - 1, v.toFloat⟩

def putMerged (s : Sheet) (area : Value) : Sheet :=
  match AreaRef.parse area.text? s.title with
  | .ok a => (s.merge? ⟨a.first.pos, a.last.pos⟩).getD s
  | .error _ => s

def ofListing (read : Value → Value) (v : Value) : Sheet :=
  let title := (v.member "name").shown
  let place (name : String) : Pos :=
    (((CellRef.parse (some name) title).toOption.map CellRef.pos)).getD ⟨0, 0⟩
  let members (k : String) : List (String × Value) := (v.member k).members
  let s : Sheet := { title := title, hidden := (v.member "hidden").toBool false }
  let s := (members "cells").foldl (fun s (k, c) =>
    s.setCell (place k) (Cell.ofListing read c)) s
  let s := (members "comments").foldl (fun s (k, t) =>
    s.setCell (place k) { (s.cell? (place k)).getD {} with comment? := some t.shown }) s
  let s := (members "widths").foldl (fun s (k, w) => s.putWidth k w.toFloat) s
  let s := (members "heights").foldl (fun s (k, h) => s.putHeight k h) s
  (v.member "merged").elements.foldl putMerged s

def listing (write : Value → Value) (s : Sheet) : Value :=
  let some? (k : String) (items : List Value) : List (String × Value) :=
    if items.isEmpty then [] else [(k, .list items)]
  let cells := s.slots.toList.filterMap fun (p, slot) => do
    let fields := (← slot.cell?).listing write
    if fields.isEmpty then none
    else some (named (("c", .text (CellRef.ofPos "" p).label) :: fields))
  let merged := (s.merged.map Block.label).mergeSort fun a b => decide (a ≤ b)
  let column (w : ColumnWidth) : Value := .text ((Column.name w.first).toOption.getD "")
  named ([("name", .text s.title), ("cells", .list cells)] ++
    (if s.hidden then [("state", .text "hidden")] else []) ++
    some? "merged" (merged.map .text) ++
    some? "widths" (s.widths.map fun w => .list [column w, write (.float w.width)]) ++
    some? "heights" (s.heights.map fun h => .list [.int (h.row + 1), write (.float h.height)]) ++
    some? "images" (s.images.map fun i =>
      .list [.text i.anchor, write (.float i.width), write (.float i.height)]))

end Sheet

namespace Workbook

def ofListing (read : Value → Value) (v : Value) : Workbook :=
  { sheets := (v.member "sheets").elements.map (Sheet.ofListing read) }

def listing (write : Value → Value) (w : Workbook) : Value :=
  named ([("sheets", .list (w.sheets.map (Sheet.listing write))),
      ("active", (w.activeSheet?.map fun s => Value.text s.title).getD .null)] ++
    if w.recalculates then [("recalc", .bool true)] else [])

end Workbook

end SheetTemplate
