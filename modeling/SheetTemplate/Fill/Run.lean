import SheetTemplate.Area.Build
import SheetTemplate.Area.Replay
import SheetTemplate.Formula.Relocate

/-!
Filling a template: its areas are replayed with the data, the formulas are moved, and what is left
of the template is cleared away. A template that was filled can be filled again with other data.
-/

namespace SheetTemplate

open Number

structure FillOptions where
  host : FillHost := {}
  registry : Registry := .builtin
  listeners : List Nat := []
  clearsTemplate : Bool := true
  policy : SheetPolicy := .delete
  recalculates : Bool := false
  beforeWrite : FillM Unit := pure ()

def SheetPolicy.ofFlags (keep hide : Bool) : SheetPolicy :=
  if keep then .keep else if hide then .hide else .delete

namespace FillOptions

variable (o : FillOptions)

def fillArea (area : Area) : FillM Unit := do
  FillM.clearArea area.ref
  let size ← FillM.ensuring (area.replay o.host area.start) fun s =>
    { s with
      context := (s.context.removeRun Context.rowName).removeRun Context.columnName }
  FillM.log .info "filler" ("Filled " ++ area.ref.label ++ " -> " ++ size.text)

def clearUnused (info : CellInfo) : FillM Unit := do
  match o.host.expressionText? info.source with
  | none => return
  | some text =>
    -- The notation is known by its text alone: a copy that reads the same goes with it.
    match (← FillM.outputCell info.ref).source with
    | .text current => if current == text then FillM.clearCell info.ref
    | _ => return

def clearTemplate : FillM Unit := do
  if o.clearsTemplate then (← get).template.cells.forM o.clearUnused else return

def markRecalculation : FillM Unit :=
  if o.recalculates then FillM.recalculateOnOpen true else pure ()

def fillAreas (areas : List Area) : FillM Unit := do
  areas.forM o.fillArea
  -- Formulas are moved when all areas are filled, since they may name cells of other areas.
  areas.forM Formula.relocateArea
  o.clearTemplate
  FillM.removeComments Directive.mark
  o.markRecalculation
  o.beforeWrite

def opened (name : String) (book : Workbook) : FillState :=
  { FillState.ofWorkbook book with
    policy := o.policy
    log := [⟨.info, FillM.source, "Opening template: " ++ name⟩] }

def areas : FillM (List Area) := FillM.buildAreas o.registry o.listeners

end FillOptions

def streamName : String := "<stream>"

structure Filled where
  state : FillState
  areas : List Area

namespace FillM

def start (c : Context) (streams : Streams) : FillM Unit :=
  modify fun s => { s with context := c, streams := streams }

def refuseRetired : FillM Unit := do
  let s ← get
  if s.retired.isEmpty then return else throw (.ofCause (.alreadyExpanded s.retired))

end FillM

namespace FillOptions

variable (o : FillOptions)

def build (c : Context) (streams : Streams) : FillM (List Area) := do
  FillM.start c streams
  o.areas

/-- Opens a workbook as a template and fills it. -/
def process (name : String) (c : Context) (streams : Streams) (book : Workbook) :
    Except Failure Unit × FillState × Option Filled :=
  match (o.build c streams).run (o.opened name book) with
  | (.error f, s) => (.error f, s, none)
  | (.ok areas, s) =>
    let (r, s) := (o.fillAreas areas).run s
    (r, s, some ⟨s, areas⟩)

/-- Fills a template again: what the last fill wrote is cleared first. -/
def refill (c : Context) (streams : Streams) (last : Filled) : Except Failure Unit × Filled :=
  let again : FillM Unit := do
    FillM.refuseRetired
    FillM.start c streams
    FillM.clearTargets
    FillM.resetHistory
    o.fillAreas last.areas
  let (r, s) := again.run last.state
  (r, { last with state := s })

end FillOptions

end SheetTemplate
