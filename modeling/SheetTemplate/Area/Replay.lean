import SheetTemplate.Area.Basic
import SheetTemplate.Command.Run
import SheetTemplate.Fill.Copy

/-!
Replaying an area at a target: its own cells are copied, its commands run, and what follows a
command moves by as much as the command grew or shrank.
-/

namespace SheetTemplate

structure CellCopy where
  origin : CellRef
  target : CellRef
  deriving DecidableEq, Repr

structure Frame where
  start : CellRef
  size : Size
  listeners : List Nat
  target : CellRef

namespace Frame

def rows (f : Frame) (first count down : Int) (skip : Int → Bool) : List CellCopy :=
  (List.range count.toNat).flatMap fun (r : Nat) =>
    ((List.range f.size.width.toNat).filter fun (c : Nat) => !skip c).map fun (c : Nat) =>
      ⟨⟨f.start.sheet, first + r, f.start.col + c⟩,
        ⟨f.target.sheet, f.target.row + down + r, f.target.col + c⟩⟩

end Frame

/-- How far a replay has come: the template row that is next, and the size filled so far. -/
structure Progress where
  next : Int
  height : Int
  width : Int
  deriving DecidableEq, Repr

namespace Progress

def begin (f : Frame) : Progress := ⟨f.start.row, 0, f.size.width⟩

variable (f : Frame) (p : Progress) (b : Binding)

def left : Int := b.start.col - f.start.col

def right : Int := left f b + b.size.width

def above : List CellCopy := f.rows p.next (b.start.row - p.next) p.height fun _ => false

def atBinding : Progress := { p with height := p.height + max 0 (b.start.row - p.next) }

def beside : List CellCopy :=
  f.rows b.start.row b.size.height p.height fun c => left f b ≤ c && c < right f b

def commandTarget : CellRef := f.target.offset p.height (left f b)

def afterCommand (size : Size) : Progress :=
  -- Unless the command is as wide as the frame, cells stand beside it.
  let partly := 0 < left f b || right f b < f.size.width
  let rows := if partly && size.height < b.size.height then b.size.height else size.height
  { next := b.start.row + b.size.height
    height := p.height + rows
    width := max p.width (left f b + size.width) }

def below : List CellCopy := f.rows p.next (f.start.row + f.size.height - p.next) p.height fun _ => false

def finish : Size := ⟨p.width, p.height + max 0 (f.start.row + f.size.height - p.next)⟩

end Progress

namespace Area

variable (h : FillHost)

def isAllowed (c : CellCopy) : List Nat → FillM Bool
  | [] => return true
  | l :: rest => do
    if ← h.before l c.origin c.target then isAllowed c rest else return false

def copyCell (listeners : List Nat) (c : CellCopy) : FillM Unit := do
  FillM.onContext fun x =>
    (x.setRun Context.rowName (.int (c.target.row + 1))).setRun Context.columnName
      (.int c.target.col)
  if ← isAllowed h c listeners then h.copy c.origin c.target true
  -- The listeners hear of a copy afterwards also when one of them objected.
  listeners.forM fun l => h.after l c.origin c.target

def copyAll (f : Frame) (copies : List CellCopy) : FillM Unit :=
  copies.forM (copyCell h f.listeners)

mutual

/-- Replays an area with its first cell at the target, and reports the size filled. -/
def replay : Area → CellRef → FillM Size
  | ⟨start, size, bindings, listeners, bound⟩, target => do
    if !bound then throw (.template { cause := .noTransformer, cell := some start.label })
    let f : Frame := ⟨start, size, listeners, target⟩
    match bindings with
    | [] =>
      copyAll h f (f.rows start.row size.height 0 fun _ => false)
      return size
    | b :: rest => replayBindings f (.begin f) (b :: rest)

def replayBindings (f : Frame) (p : Progress) : List Binding → FillM Size
  | [] => do
    copyAll h f (p.below f)
    return p.finish f
  | ⟨command, start, size, areas⟩ :: rest => do
    let b : Binding := ⟨command, start, size, []⟩
    copyAll h f (p.above f b)
    let p := p.atBinding b
    copyAll h f (p.beside f b)
    let target := p.commandTarget f b
    -- An error that knows no cell yet gets the first cell of the command.
    let filled ← FillM.mapFailure (fun e => e.locate (some start.label) (some command.name) none)
      (command.run h (inners areas) target)
    FillM.log .debug "area" (command.name ++ " at " ++ target.label ++ " -> " ++ filled.text)
    replayBindings f (p.afterCommand f b filled) rest

def inners : List Area → List Inner
  | [] => []
  | a :: rest => ⟨a.start, a.size, replay a⟩ :: inners rest

end

def clearCells (a : Area) : FillM Unit :=
  if a.bound then a.cells.forM FillM.clearCell else pure ()

end Area

end SheetTemplate
