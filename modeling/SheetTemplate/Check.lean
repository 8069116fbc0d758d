import SheetTemplate.Fill.Run

namespace SheetTemplate

open Text

inductive Severity where
  | error | warning
  deriving DecidableEq, Repr

namespace Severity

def title : Severity → String
  | error => "ERROR"
  | warning => "WARNING"

def word : Severity → String
  | error => "ERROR"
  | warning => "WARN"

end Severity

structure Issue where
  severity : Severity
  cell : CellRef
  message : String
  deriving DecidableEq, Repr

def Issue.text (i : Issue) : String :=
  "[" ++ i.severity.word ++ "] " ++ i.cell.label ++ ": " ++ i.message

namespace Check

def defect? (text : String) : Except Failure (Option String) :=
  match Expr.compile text with
  | .ok _ => .ok none
  | .error (.template e) =>
    if e.cause.family = .expression then .ok (some e.cause.message) else .error (.template e)
  | .error f => .error f

structure Reading where
  cell : CellRef
  lead : String := ""
  text : String

def readings (l : List Reading) : Except Failure (List Issue) := do
  let found ← l.mapM fun x => do
    return (← defect? x.text).map fun message => (⟨.error, x.cell, x.lead ++ message⟩ : Issue)
  return found.filterMap id

def bounds (a : Area) : List Issue :=
  a.bindings.filterMap fun b =>
    let last := b.start.offset (b.size.height - 1) (b.size.width - 1)
    if a.lastCell.row < last.row || a.lastCell.col < last.col then
      some ⟨.error, b.start, "command '" ++ b.command.name ++ "' lastCell " ++
        (last.name).toOption.getD "" ++ " extends beyond parent area " ++ a.ref.label⟩
    else none

def textReadings (m : Marks) (r : CellRef) (text : String) : List Reading :=
  (Segment.split m text.toList).filterMap fun
    | .literal _ => none
    | .expression e => some { cell := r, text := String.ofList e }

def cellReadings (m : Marks) (info : CellInfo) : List Reading :=
  let value := match info.value with
    | .text s => textReadings m info.ref s
    | _ => []
  value ++ ((info.formula?.map (textReadings m info.ref)).getD [])

def cells (t : Template) (m : Marks) (a : Area) : Except Failure (List Issue) :=
  readings ((a.cells.filterMap t.cell?).flatMap (cellReadings m))

def attributeReadings (b : Binding) : List Reading :=
  b.command.expressions.map fun (key, text) =>
    { cell := b.start
      lead := b.command.name ++ " command has invalid " ++ key ++ " expression: "
      text := text }

def direction (b : Binding) : List Issue :=
  match b.command with
  | .each e =>
    if e.direction == EachSpec.down || e.direction == EachSpec.right then []
    else
      [⟨.warning, b.start, "each direction " ++ quoted e.direction ++
        " is not DOWN or RIGHT, DOWN is used"⟩]
  | _ => []

def commands (a : Area) : Except Failure (List Issue) := do
  let found ← a.bindings.mapM fun b => do return (← readings (attributeReadings b)) ++ direction b
  return found.flatten

def root (t : Template) (m : Marks) (a : Area) : Except Failure (List Issue) := do
  let inCells ← cells t m a
  let inAreas ← (a.walk 0).mapM fun (area, _) => do return bounds area ++ (← commands area)
  return inCells ++ inAreas.flatten

end Check

namespace FillOptions

def check (o : FillOptions) (name : String) (book : Workbook) :
    Except Failure (List Issue) × FillState :=
  let work : FillM (List Issue) := do
    let areas ← o.areas
    let t := (← get).template
    let issues ← FillM.ofExcept ((areas.mapM (Check.root t o.host.marks)).map List.flatten)
    FillM.log .info "validate" ("Validation found " ++ toString issues.length ++ " issues")
    return issues
  work.run (o.opened name book)

end FillOptions

end SheetTemplate
