import SheetTemplate.Ref.Area
import SheetTemplate.Ref.Order
import SheetTemplate.Workbook.Cell

namespace SheetTemplate

inductive Slot where
  | cell (c : Cell)
  | covered

def Slot.cell? : Slot → Option Cell
  | cell c => some c
  | covered => none

abbrev Slots := Std.TreeMap Pos Slot Pos.order

structure Block where
  first : Pos
  last : Pos
  deriving DecidableEq, Repr

namespace Block

def lastRow : Int := 1048575

def isValid (b : Block) : Bool :=
  0 ≤ b.first.row && 0 ≤ b.first.col && b.first.row ≤ b.last.row && b.first.col ≤ b.last.col &&
    b.last.row ≤ lastRow && b.last.col ≤ Column.last

def within (b outer : Block) : Bool :=
  outer.first.row ≤ b.first.row && outer.first.col ≤ b.first.col &&
    b.last.row ≤ outer.last.row && b.last.col ≤ outer.last.col

def size (b : Block) : Size :=
  ⟨b.last.col - b.first.col + 1, b.last.row - b.first.row + 1⟩

def rectangle (start : Pos) (s : Size) : List Pos :=
  (List.range s.height.toNat).flatMap fun (r : Nat) =>
    (List.range s.width.toNat).map fun (c : Nat) => start.offset r c

def hidden (b : Block) : List Pos := (rectangle b.first b.size).tail

end Block

structure ColumnWidth where
  first : Int
  last : Int
  width : Float

structure RowHeight where
  row : Int
  height : Float

structure Image where
  id : Nat
  anchor : String
  width : Float
  height : Float

structure Sheet where
  title : String
  slots : Slots := ∅
  merged : List Block := []
  widths : List ColumnWidth := []
  heights : List RowHeight := []
  images : List Image := []
  hidden : Bool := false

namespace Sheet

def cell? (s : Sheet) (p : Pos) : Option Cell := s.slots[p]?.bind Slot.cell?

def setCell (s : Sheet) (p : Pos) (c : Cell) : Sheet :=
  { s with slots := s.slots.insert p (.cell c) }

def admits (p : Pos) : Bool := 0 ≤ p.row && p.row ≤ Block.lastRow && 0 ≤ p.col

def touch (s : Sheet) (p : Pos) : Sheet := if s.slots.contains p then s else s.setCell p {}

def extent (s : Sheet) : Size :=
  s.slots.foldl (fun size p _ => ⟨max size.width (p.col + 1), max size.height (p.row + 1)⟩) .zero

def filled (s : Sheet) : Sheet := (Block.rectangle ⟨0, 0⟩ s.extent).foldl touch s

def setWidth (s : Sheet) (w : ColumnWidth) : Sheet :=
  { s with widths := insert w s.widths }
where
  insert (w : ColumnWidth) : List ColumnWidth → List ColumnWidth
    | [] => [w]
    | x :: rest =>
      if w.first < x.first then w :: x :: rest
      else if w.first = x.first then { x with width := w.width } :: rest
      else x :: insert w rest

def setHeight (s : Sheet) (h : RowHeight) : Sheet :=
  { s with heights := insert h s.heights }
where
  insert (h : RowHeight) : List RowHeight → List RowHeight
    | [] => [h]
    | x :: rest =>
      if h.row < x.row then h :: x :: rest
      else if h.row = x.row then h :: rest
      else x :: insert h rest

def clearHeight (s : Sheet) (row : Int) : Sheet :=
  { s with heights := s.heights.filter fun h => h.row != row }

def touchFont (s : Sheet) (p : Pos) : Sheet :=
  let s := s.touch p
  match s.cell? p with
  | some c => s.setCell p { c with font? := some c.font }
  | none => s

def merge? (s : Sheet) (b : Block) : Option Sheet :=
  if b.isValid then
    let s := s.touchFont b.first
    some
      { s with
        slots := b.hidden.foldl (fun slots p => slots.insert p .covered) s.slots
        -- What lies under the block is covered either way.
        merged := if s.merged.any b.within then s.merged else s.merged ++ [b] }
  else none

def removeAll (slots : Slots) : List Pos → Slots × Bool
  | [] => (slots, true)
  | p :: rest => if slots.contains p then removeAll (slots.erase p) rest else (slots, false)

def unmerge (s : Sheet) (b : Block) : Sheet × Bool :=
  let (slots, complete) := removeAll s.slots b.hidden
  ({ s with slots := slots, merged := s.merged.erase b }, complete)

def duplicate (s : Sheet) (title : String) : Sheet :=
  { s with
    title := title
    slots := s.slots.map fun _ slot => .cell (slot.cell?.getD {})
    images := []
    hidden := false }

end Sheet

end SheetTemplate
