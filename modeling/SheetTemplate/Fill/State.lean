import SheetTemplate.Context
import SheetTemplate.Template.Snapshot

/-!
The state of a fill: the workbook as written so far, the template, what was copied where, the names
in sight, and the log. A fill that fails keeps the state that it reached.
-/

namespace SheetTemplate

inductive LogLevel where
  | debug | info | warning | error
  deriving DecidableEq, Repr

def LogLevel.title : LogLevel → String
  | debug => "DEBUG"
  | info => "INFO"
  | warning => "WARNING"
  | error => "ERROR"

structure LogEntry where
  level : LogLevel
  source : String
  text : String
  deriving DecidableEq, Repr

def LogEntry.line (e : LogEntry) : String :=
  e.level.title ++ " " ++ e.source ++ ": " ++ e.text

/-- What was written from one template cell: the copies in order, the value last evaluated, and
the formula evaluated for each copy. -/
structure Copies where
  targets : List CellRef := []
  result : Value := .null
  formulas : List (CellRef × String) := []

namespace Copies

def addTarget (c : Copies) (target : CellRef) : Copies :=
  { c with targets := c.targets ++ [target] }

def setFormula (c : Copies) (target : CellRef) (formula : String) : Copies :=
  { c with formulas := set c.formulas }
where
  set : List (CellRef × String) → List (CellRef × String)
    | [] => [(target, formula)]
    | e :: rest => if e.1 == target then (target, formula) :: rest else e :: set rest

end Copies

abbrev History := Std.TreeMap CellRef Copies CellRef.order

namespace History

def of (h : History) (source : CellRef) : Copies := h[source]?.getD {}

def targets (h : History) (source : CellRef) : List CellRef := (h.of source).targets

def modify (h : History) (source : CellRef) (f : Copies → Copies) : History :=
  h.insert source (f (h.of source))

end History

inductive SheetPolicy where
  | keep | hide | delete
  deriving DecidableEq, Repr

def SheetPolicy.title : SheetPolicy → String
  | keep => "keep"
  | hide => "hide"
  | delete => "delete"

/-- A write of content that was asked for, whether or not the sheet took it. -/
inductive Write where
  | copy (origin target : CellRef)
  | value (target : CellRef) (v : Value)
  | formula (target : CellRef) (text : String)
  | clear (target : CellRef)

def Write.target : Write → CellRef
  | copy _ target => target
  | value target _ => target
  | formula target _ => target
  | clear target => target

structure Note where
  channel : String
  content : Value

structure FillState where
  book : Workbook
  template : Template
  history : History := ∅
  journal : List Write := []
  written : List CellRef := []
  deleted : List String := []
  ownImages : List Nat := []
  nextImage : Nat := 0
  policy : SheetPolicy := .delete
  retired : List String := []
  context : Context := { data := [] }
  streams : Streams := []
  log : List LogEntry := []
  notes : List Note := []

namespace FillState

/-- The state after a workbook has been read as a template. New pictures get numbers that none of the
workbook has. -/
def ofWorkbook (w : Workbook) : FillState :=
  let numbers := (w.sheets.flatMap Sheet.images).map fun i => i.id + 1
  let w := { w with sheets := w.sheets.map Sheet.filled }
  { book := w, template := .ofWorkbook w, nextImage := numbers.max?.getD 0 }

end FillState

abbrev FillM := ExceptT Failure (StateM FillState)

namespace FillM

def log (level : LogLevel) (source text : String) : FillM Unit :=
  modify fun s => { s with log := s.log ++ [⟨level, source, text⟩] }

def note (channel : String) (content : Value) : FillM Unit :=
  modify fun s => { s with notes := s.notes ++ [⟨channel, content⟩] }

def record (w : Write) : FillM Unit := modify fun s => { s with journal := w :: s.journal }

def ofExcept {α : Type} : Except Failure α → FillM α
  | .ok a => pure a
  | .error f => throw f

def ensuring {α : Type} (body : FillM α) (after : FillState → FillState) : FillM α :=
  fun s =>
    let (r, s) := body.run s
    (r, after s)

def mapFailure {α : Type} (f : Failure → Failure) (body : FillM α) : FillM α :=
  tryCatch body fun e => throw (f e)

def eval {α : Type} (body : EvalM α) : FillM α :=
  fun s =>
    let (r, streams) := body.run s.streams
    (r, { s with streams := streams })

def onContext (f : Context → Context) : FillM Unit :=
  modify fun s => { s with context := f s.context }

def names : FillM (String → Option Value) := do
  onContext Context.keepView
  return (← get).context.view.find?

def binding {α : Type} (name : String) (index? : Option String) (item : Value)
    (index : Option Value) (body : FillM α) : FillM α := do
  let guard := Guard.open (← get).context name index?
  onContext fun c => guard.set c item index
  ensuring body fun s => { s with context := (guard.close s.context).2 }

end FillM

end SheetTemplate
