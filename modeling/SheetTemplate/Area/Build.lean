import SheetTemplate.Area.Basic
import SheetTemplate.Fill.State

/-!
Building the forest of areas from the comments of a template. Each command is bound to the tightest
area around its first cell: the smallest larger area of another command, or else a root.
-/

namespace SheetTemplate

open Number

/-- A command as it was read, with the rectangle of its second area if it has one. -/
structure CommandEntry where
  command : Command
  start : CellRef
  size : Size
  second? : Option AreaRef := none

namespace CommandEntry

def areas (e : CommandEntry) : List (CellRef × Size) :=
  (e.start, e.size) :: (e.second?.map fun a => (a.first, a.size)).toList

def before (a b : CommandEntry) : Bool :=
  if a.size.cellCount = b.size.cellCount then !b.start.before a.start
  else decide (b.size.cellCount < a.size.cellCount)

end CommandEntry

/-- Where a command is bound: to a root, or to an area of another command. -/
inductive Parent where
  | root (place : Nat)
  | inner (entry place : Nat)
  deriving DecidableEq, Repr

/-- The roots and the entries of a template, and where each entry is bound, with its size there. -/
structure Plan where
  roots : List (CellRef × Size)
  entries : List CommandEntry
  bound : List (Parent × CommandEntry × Nat × Size) := []

namespace Plan

def contains (area : CellRef × Size) (r : CellRef) : Bool :=
  r.sheet == area.1.sheet && area.2.covers area.1 r

def tighter (best : Option (Parent × CellRef × Size)) (parent : Parent) (area : CellRef × Size) :
    Option (Parent × CellRef × Size) :=
  match best with
  | some (p, a) => if area.2.cellCount < a.2.cellCount then some (parent, area) else some (p, a)
  | none => some (parent, area)

def innerAreas (entries : List CommandEntry) : List (Nat × Nat × CellRef × Size) :=
  entries.zipIdx.flatMap fun (e, i) => e.areas.zipIdx.map fun (a, k) => (i, k, a)

def parent? (p : Plan) (place : Nat) (e : CommandEntry) : Option (Parent × CellRef × Size) :=
  let best := (innerAreas p.entries).foldl (fun best (i, k, area) =>
    -- An area is larger than what is bound in it, so that no entry is bound to itself or to an
    -- equal.
    if i != place && e.size.cellCount < area.2.cellCount && contains area e.start then
      tighter best (.inner i k) area
    else best) none
  match best with
  | some found => some found
  | none =>
    (p.roots.zipIdx.find? fun (area, _) => contains area e.start).map fun (area, i) =>
      (.root i, area)

def joined (start : CellRef) (size : Size) (other : AreaRef) : Size :=
  if other.sheet != start.sheet || other.first.row < start.row || other.first.col < start.col then
    size
  else
    ⟨max size.width (other.last.col - start.col + 1), max size.height (other.last.row - start.row + 1)⟩

def sizeIn (e : CommandEntry) (area : CellRef × Size) : Size :=
  match e.second? with
  | some other =>
    if contains area other.first && contains area other.last then joined e.start e.size other
    else e.size
  | none => e.size

def children (p : Plan) (parent : Parent) : List (CommandEntry × Nat × Size) :=
  (p.bound.filter fun b => b.1 == parent).map (·.2)

def childBefore (a b : CommandEntry × Nat × Size) : Bool :=
  a.1.start.row < b.1.start.row ||
    (a.1.start.row == b.1.start.row && a.1.start.col ≤ b.1.start.col)

def grow (p : Plan) (listeners : List Nat) : Nat → Parent → CellRef × Size → Area
  | 0, _, area => { start := area.1, size := area.2, listeners := listeners }
  | fuel + 1, parent, area =>
    { start := area.1
      size := area.2
      listeners := listeners
      bindings := ((p.children parent).mergeSort childBefore).map fun (e, i, size) =>
        { command := e.command
          start := e.start
          size := size
          areas := e.areas.zipIdx.map fun (a, k) => p.grow listeners fuel (.inner i k) a } }

/-- The forest; a branch holds each entry at most once, so that none is cut off. -/
def forest (p : Plan) (listeners : List Nat) : List Area :=
  p.roots.zipIdx.map fun (area, i) => p.grow listeners (p.entries.length + 1) (.root i) area

end Plan

namespace FillM

def rectangleSize (d : Directive) (last : CellRef) : Except Failure Size :=
  let fail (cause : Cause) : Except Failure Size :=
    .error (.template
      { cause := cause
        cell := some d.cell.label
        command := some d.name
        property := some "lastCell" })
  if last.sheet != d.cell.sheet then fail (.lastCellElsewhere last.label)
  else
    let size := (AreaRef.mk d.cell last).size
    if size.width ≤ 0 || size.height ≤ 0 then
      fail (.lastCellBefore ((last.name).toOption.getD ""))
    else .ok size

def unknownCommand (name : String) : LogEntry :=
  ⟨.warning, "registry", "Ignoring unknown command '" ++ name ++ "'"⟩

def readDirective (r : Registry) (p : Plan) (d : Directive) : FillM Plan := do
  let last ← match d.lastCell? with
    | some last => pure last
    | none => throw (.plain ⟨.property, "'NoneType' object has no attribute 'sheet'"⟩)
  let size ← ofExcept (rectangleSize d last)
  if d.name == Registry.areaName then return { p with roots := p.roots ++ [(d.cell, size)] }
  else
    match ← ofExcept (r.create d.name d.attributes) with
    | none =>
      modify fun s => { s with log := s.log ++ [unknownCommand d.name] }
      return p
    | some command =>
      -- The first listed area is the rectangle of the command itself.
      let second? := if command.areaLimit = 2 then d.areas[1]? else none
      let entry : CommandEntry :=
        { command := command, start := d.cell, size := size, second? := second? }
      return { p with entries := p.entries ++ [entry] }

def keepParams (r : CellRef) (params : CellParams) : FillM Unit :=
  let change (i : CellInfo) : CellInfo :=
    { i with
      default? := (params.default?.filter fun s => !s.isEmpty).or i.default?
      strategy := params.strategy?.getD i.strategy }
  modify fun s => { s with template := s.template.modify r change }

def readComment (r : Registry) (p : Plan) (i : CellInfo) : FillM Plan := do
  let (directives, params?) ← ofExcept (Directive.parseComment i.comment? i.ref)
  match params? with
  | some params => keepParams i.ref params
  | none => pure ()
  directives.foldlM (readDirective r) p

def bindEntry (p : Plan) (entry : CommandEntry × Nat) : FillM Plan := do
  let (e, i) := entry
  match p.parent? i e with
  | none =>
    log .warning "builder" ("Command '" ++ e.command.name ++ "' at " ++ e.start.label ++
      " is outside every jx:area, ignored")
    return p
  | some (parent, area) =>
    let size := Plan.sizeIn e area
    log .debug "builder" ("Bound " ++ e.command.name ++ " " ++ size.text ++ " at " ++
      e.start.label ++ " to " ++ (AreaRef.ofSize area.1 area.2).label)
    return { p with bound := p.bound ++ [(parent, e, i, size)] }

def buildAreas (r : Registry) (listeners : List Nat) : FillM (List Area) := do
  let commented := (← get).template.commented
  if commented.isEmpty then throw (.ofCause .noComments)
  else
    let p ← commented.foldlM (readComment r) { roots := [], entries := [] }
    if p.roots.isEmpty then throw (.ofCause .noRoots)
    else
      -- Larger commands are bound first; the entries are numbered from here on.
      let p := { p with entries := p.entries.mergeSort CommandEntry.before }
      let p ← p.entries.zipIdx.foldlM bindEntry p
      log .info "builder" ("Built " ++ showInt p.roots.length ++ " root areas with " ++
        showInt p.entries.length ++ " commands")
      return p.forest listeners

end FillM

end SheetTemplate
