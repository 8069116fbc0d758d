import SheetTemplate.Formula.Strategy
import SheetTemplate.Workbook.Basic

namespace SheetTemplate

structure CellInfo where
  ref : CellRef
  value : Value := .null
  formula? : Option String := none
  kind : CellKind := .blank
  comment? : Option String := none
  font? : Option Font := none
  link? : Option String := none
  strategy : FormulaStrategy := .default
  default? : Option String := none
  deriving Inhabited

namespace CellInfo

def activeFormula? (i : CellInfo) : Option String := i.formula?.filter fun f => !f.isEmpty

def hasFormula (i : CellInfo) : Bool := i.activeFormula?.isSome

def source (i : CellInfo) : Value :=
  match i.activeFormula? with
  | some f => .text f
  | none => i.value

def copyAt (i : CellInfo) (ref : CellRef) : CellInfo :=
  { ref := ref
    value := i.value
    formula? := i.formula?
    kind := i.kind
    font? := i.font?
    link? := i.link? }

def ofTemplate (ref : CellRef) (c : Cell) : CellInfo :=
  let info : CellInfo :=
    { ref := ref, font? := c.font?, comment? := c.comment?, link? := c.link? }
  match c.value, c.type with
  | .text s, .formula =>
    { info with formula? := some (String.ofList (s.toList.drop 1)), kind := .formula }
  | .arrayFormula s, .formula =>
    { info with
      formula? := some (String.ofList (s.toList.dropWhile (· == '=')))
      kind := .formula }
  | v, _ => { info with value := v, kind := v.cellKind }

def ofOutput (ref : CellRef) (c : Cell) : CellInfo :=
  let info : CellInfo := { ref := ref, font? := c.font?, link? := c.link? }
  match c.formula? with
  | some f => { info with formula? := some f, kind := .formula }
  | none => { info with value := c.value, kind := c.value.cellKind }

end CellInfo

structure SheetSnapshot where
  title : String
  cells : Std.TreeMap Pos CellInfo Pos.order
  widths : List ColumnWidth
  heights : List RowHeight
  merged : List Block

namespace SheetSnapshot

def isKept (c : Cell) : Bool :=
  match c.value, c.comment? with
  | .null, none => !c.font.isPlain
  | _, _ => true

def ofSheet (s : Sheet) : SheetSnapshot where
  title := s.title
  cells := s.slots.filterMap fun p slot =>
    match slot with
    | .cell c => if isKept c then some (.ofTemplate (.ofPos s.title p) c) else none
    | .covered => none
  widths := s.widths
  heights := s.heights
  merged := s.merged

def width? (s : SheetSnapshot) (col : Int) : Option Float :=
  ((s.widths.filter fun w => w.width != 0).findRev? fun w =>
    w.first ≤ col && col ≤ w.last).map (·.width)

def height? (s : SheetSnapshot) (row : Int) : Option Float :=
  (s.heights.find? fun h => h.row = row && h.height != 0).map (·.height)

def block? (s : SheetSnapshot) (p : Pos) : Option Size :=
  (s.merged.findRev? fun b => b.first == p).map Block.size

end SheetSnapshot

structure Template where
  sheets : List SheetSnapshot

namespace Template

def ofWorkbook (w : Workbook) : Template := ⟨w.sheets.map .ofSheet⟩

def sheet? (t : Template) (title : String) : Option SheetSnapshot :=
  t.sheets.find? (·.title == title)

def cell? (t : Template) (r : CellRef) : Option CellInfo :=
  (t.sheet? r.sheet).bind fun s => s.cells[r.pos]?

def cells (t : Template) : List CellInfo := t.sheets.flatMap fun s => s.cells.toList.map (·.2)

def commented (t : Template) : List CellInfo :=
  t.cells.filter fun i => (i.comment?.getD "") != ""

def formulas (t : Template) : List CellInfo := t.cells.filter CellInfo.hasFormula

def modify (t : Template) (r : CellRef) (f : CellInfo → CellInfo) : Template :=
  ⟨t.sheets.map fun s =>
    if s.title == r.sheet then { s with cells := s.cells.modify r.pos f } else s⟩

end Template

end SheetTemplate
