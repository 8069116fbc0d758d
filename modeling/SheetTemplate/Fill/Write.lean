import SheetTemplate.Fill.Host

namespace SheetTemplate

open Number

namespace FillM

def source : String := "transformer"

def sheet? (title : String) : FillM (Option Sheet) := do
  let s ← get
  if s.deleted.contains title then return none
  else
    match s.book.find? title with
    | some sheet => return some sheet
    | none =>
      log .warning source ("Skipping write to missing sheet '" ++ title ++ "'")
      return none

def onSheet (title : String) (f : Sheet → Sheet) : FillM Unit :=
  modify fun s => { s with book := s.book.modify title f }

def putCell (r : CellRef) (c : Cell) : FillM Unit := onSheet r.sheet fun s => s.setCell r.pos c

def putOr (r : CellRef) (old : Cell) : Option Cell → FillM Cell
  | some c => do
    putCell r c
    return c
  | none => do
    putCell r old.refused
    throw (.library .illegalCharacter)

def open? (r : CellRef) : FillM (Option Cell) := do
  match ← sheet? r.sheet with
  | none => return none
  | some s =>
    if Sheet.admits r.pos then
      let s := s.touch r.pos
      onSheet r.sheet fun _ => s
      return s.cell? r.pos
    else throw (.library .value)

def addTarget (origin target : CellRef) : FillM Unit :=
  modify fun s => { s with history := s.history.modify origin fun c => c.addTarget target }

def setValue (r : CellRef) (v : Value) (font? : Option Font) : FillM Unit := do
  record (.value r v)
  match ← open? r with
  | none => return
  | some c =>
    -- Values are remembered apart from copies, since no template cell has them as its targets.
    modify fun s => { s with written := r :: s.written }
    let c := { c with font? := font?.or c.font? }
    discard (putOr r c (c.write? v))

def setFormula (r : CellRef) (formula : String) : FillM Unit := do
  record (.formula r formula)
  match ← open? r with
  | none => return
  | some c =>
    let formula := String.ofList (formula.toList.dropWhile (· == '='))
    discard (putOr r c (c.put? (.text ("=" ++ formula))))

def clearCell (r : CellRef) : FillM Unit := do
  record (.clear r)
  match ← sheet? r.sheet with
  | none => return
  | some s =>
    match s.cell? r.pos with
    | some c => putCell r c.clear
    | none => return

def outputCell (r : CellRef) : FillM CellInfo := do
  match ← sheet? r.sheet with
  | none => return { ref := r }
  | some s =>
    match s.cell? r.pos with
    | some c => return .ofOutput r c
    | none => return { ref := r }

def merge (title : String) (b : Block) : FillM Unit := do
  match ← sheet? title with
  | none => return
  | some s =>
    match s.merge? b with
    | some s => onSheet title fun _ => s
    | none => throw (.library .value)

def unmergeAll (title : String) (s : Sheet) (p : Block → Bool) : FillM Unit :=
  (s.merged.filter p).forM fun b => do
    match (← get).book.find? title with
    | none => return
    | some s =>
      -- The block is gone from the list even if undoing it fails.
      let (s, complete) := s.unmerge b
      onSheet title fun _ => s
      if !complete then throw (.library .key)

def clearArea (a : AreaRef) : FillM Unit := do
  match ← sheet? a.sheet with
  | none => return
  | some s =>
    unmergeAll a.sheet s fun b => a.contains (.ofPos a.sheet b.first)
    (Block.rectangle a.first.pos a.size).forM fun p => clearCell (.ofPos a.sheet p)

def writtenCells (s : FillState) : List CellRef :=
  let all := s.history.foldl (fun refs _ c => c.targets ++ refs) s.written
  (all.foldl (fun (m : Std.TreeMap CellRef Unit CellRef.order) r => m.insert r ()) ∅).keys

/-- Empties every cell written so far, undoes the merged blocks that begin there, and takes away
the images added so far. -/
def clearTargets : FillM Unit := do
  (writtenCells (← get)).forM fun r => do
    match ← sheet? r.sheet with
    | none => return
    | some s =>
      unmergeAll r.sheet s fun b => b.first == r.pos
      clearCell r
  modify fun s =>
    let keep (sheet : Sheet) : Sheet :=
      { sheet with images := sheet.images.filter fun i => !s.ownImages.contains i.id }
    { s with
      book := { s.book with sheets := s.book.sheets.map keep }
      written := []
      ownImages := [] }

def resetHistory : FillM Unit := modify fun s => { s with history := ∅ }

def stripCell (mark : List Char) (c : Cell) : Cell :=
  match c.comment? with
  | some text => if Text.containsText mark text.toList then { c with comment? := none } else c
  | none => c

def stripSlot (mark : List Char) : Slot → Slot
  | .cell c => .cell (stripCell mark c)
  | .covered => .covered

def stripSheet (mark : List Char) (s : Sheet) : Sheet :=
  -- Looking for comments makes a cell wherever the sheet reaches.
  { s.filled with slots := s.filled.slots.map fun _ slot => stripSlot mark slot }

def removeComments (mark : List Char) : FillM Unit := modify fun s =>
  { s with book := { s.book with sheets := s.book.sheets.map (stripSheet mark) } }

def addImage (r : CellRef) (v : Value) (scaleX scaleY : Float) : FillM Unit := do
  match ← sheet? r.sheet with
  | none => return
  | some _ =>
    match v with
    | .picture p =>
      let anchor ← ofExcept r.name
      let id := (← get).nextImage
      let image : Image :=
        { id := id
          anchor := anchor
          width := floatOfInt p.width * scaleX
          height := floatOfInt p.height * scaleY }
      onSheet r.sheet fun s => { s with images := s.images ++ [image] }
      modify fun s => { s with nextImage := id + 1, ownImages := s.ownImages ++ [id] }
    | _ => throw (.library .image)

def clearRowHeight (title : String) (row : Int) : FillM Unit := do
  match ← sheet? title with
  | none => return
  | some _ => onSheet title fun s => s.clearHeight row

def recalculateOnOpen (recalculates : Bool) : FillM Unit :=
  modify fun s => { s with book := { s.book with recalculates := recalculates } }

end FillM

end SheetTemplate
