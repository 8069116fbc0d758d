import SheetTemplate.Ref.Cell

namespace SheetTemplate

open Number Text

structure Size where
  width : Int
  height : Int
  deriving DecidableEq, Repr, Inhabited

namespace Size

def zero : Size := ⟨0, 0⟩

def add (a b : Size) : Size := ⟨a.width + b.width, a.height + b.height⟩

def sub (a b : Size) : Size := ⟨a.width - b.width, a.height - b.height⟩

def cellCount (s : Size) : Int := s.width * s.height

def text (s : Size) : String := "(" ++ showInt s.width ++ "x" ++ showInt s.height ++ ")"

def cellsFrom (s : Size) (start : CellRef) : List CellRef :=
  (List.range s.height.toNat).flatMap fun (r : Nat) =>
    (List.range s.width.toNat).map fun (c : Nat) => start.offset r c

def covers (s : Size) (start r : CellRef) : Bool :=
  start.row ≤ r.row && r.row < start.row + s.height && start.col ≤ r.col &&
    r.col < start.col + s.width

end Size

structure AreaRef where
  first : CellRef
  last : CellRef
  deriving DecidableEq, Repr, Inhabited

namespace AreaRef

def sheet (a : AreaRef) : String := a.first.sheet

def size (a : AreaRef) : Size :=
  ⟨a.last.col - a.first.col + 1, a.last.row - a.first.row + 1⟩

def ofSize (start : CellRef) (s : Size) : AreaRef :=
  ⟨start, start.offset (s.height - 1) (s.width - 1)⟩

def contains (a : AreaRef) (r : CellRef) : Bool :=
  (a.first.sheet.isEmpty || r.sheet == a.first.sheet) &&
    a.first.row ≤ r.row && r.row ≤ a.last.row && a.first.col ≤ r.col && r.col ≤ a.last.col

def text (a : AreaRef) : Except Failure String := do
  let first ← a.first.name
  let last ← a.last.name
  let front := if a.first.sheet.isEmpty then "" else a.first.sheet ++ "!"
  .ok (front ++ first ++ ":" ++ last)

def label (a : AreaRef) : String :=
  match a.text with
  | .ok s => s
  | .error _ => a.first.sheet

def parse (text : Option String) (defaultSheet : String) : Except Failure AreaRef :=
  let cs := (text.getD "").toList
  if !cs.contains ':' then .error (.ofCause (.badArea text))
  else
    match splitLast? ':' (strip cs) with
    | none => .error (.ofCause (.badArea text))
    | some (front, back) => do
      let first ← CellRef.parse (some (String.ofList front)) defaultSheet
      let last ← CellRef.parse (some (String.ofList back)) first.sheet
      .ok ⟨first, last⟩

end AreaRef

end SheetTemplate
