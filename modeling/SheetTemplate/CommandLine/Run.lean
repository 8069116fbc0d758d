import SheetTemplate.Check
import SheetTemplate.CommandLine.Arguments
import SheetTemplate.Data.Source
import SheetTemplate.Outline
import SheetTemplate.Settings

namespace SheetTemplate.CommandLine

open Text

structure Files (m : Type → Type) where
  text? : String → m (Option String)
  book? : String → m (Option Workbook)

structure Outcome where
  exit : Except Failure Nat
  level? : Option String := none
  log : List LogEntry := []
  printed : String := ""
  saved? : Option (String × Workbook) := none

namespace Outcome

def unfit : Outcome := { exit := .ok 2 }

def fail (f : Failure) (level? : Option String) (log : List LogEntry) : Outcome :=
  { exit := .error f, level?, log }

def ofFailure (level : String) (log : List LogEntry) : Failure → Outcome
  | .template e =>
    { exit := .ok 1, level? := some level, log := log ++ [⟨.error, "main", e.text⟩] }
  | f => fail f (some level) log

def refuse (level text : String) : Outcome :=
  { exit := .ok 1, level? := some level, log := [⟨.error, "main", text⟩] }

end Outcome

def levels : List (String × String) :=
  [("DEBUG", "DEBUG"), ("INFO", "INFO"), ("WARNING", "WARNING"), ("WARN", "WARNING"),
    ("ERROR", "ERROR"), ("CRITICAL", "CRITICAL"), ("FATAL", "CRITICAL"), ("NOTSET", "NOTSET")]

def levelOf (name : String) : String :=
  (List.lookup (String.ofList (upper name.toList)) levels).getD "INFO"

def level (a : Arguments) (s : Settings) : Except Fault String :=
  match a.logLevel?.filter fun n => !n.isEmpty with
  | some n => .ok (levelOf n)
  | none =>
    match s.get "log_level" with
    | .text n => .ok (levelOf n)
    | v =>
      if v.truth then
        .error ⟨.property, "'" ++ v.className ++ "' object has no attribute 'upper'"⟩
      else .ok "INFO"

def given? (argument? : Option String) (s : Settings) (name : String) : Option String :=
  match argument?.filter fun t => !t.isEmpty with
  | some t => some t
  | none => if (s.get name).truth then some (s.get name).shown else none

def options (a : Arguments) (s : Settings) : FillOptions :=
  let o := s.options
  { o with
    clearsTemplate := o.clearsTemplate && !a.noClear
    recalculates := o.recalculates || a.recalculate }

def describe (level template : String) (o : FillOptions) (book : Workbook) : Outcome :=
  let (r, s) := o.outline template book
  match r with
  | .ok text => { exit := .ok 0, level? := some level, log := s.log, printed := text }
  | .error f => .ofFailure level s.log f

def validate (level template : String) (o : FillOptions) (book : Workbook) : Outcome :=
  let (r, s) := o.check template book
  match r with
  | .error f => .ofFailure level s.log f
  | .ok issues =>
    let printed := joinText "" (issues.map fun i => i.text ++ "\n")
    if issues.any fun i => i.severity == .error then
      { exit := .ok 1, level? := some level, log := s.log, printed }
    else
      let valid : LogEntry := ⟨.info, "main", "Template is valid"⟩
      { exit := .ok 0, level? := some level, log := s.log ++ [valid], printed }

def names (entries : List (Value × Value)) : Names := (Value.dict entries).members

def fill (level template output : String) (o : FillOptions) (book : Workbook)
    (data : Except Failure (List (Value × Value) × List LogEntry)) : Outcome :=
  match data with
  | .error f => .ofFailure level [] f
  | .ok (entries, log) =>
    let (r, s, _) := o.process template { data := names entries } [] book
    let log := log ++ s.log
    match r with
    | .error f => .ofFailure level log f
    | .ok _ =>
      let saved : LogEntry := ⟨.info, FillM.source, "Saved: " ++ output⟩
      { exit := .ok 0, level? := some level, log := log ++ [saved], saved? := some (output, s.book) }

section

variable {m : Type → Type} [Monad m] (files : Files m)

def textAt (path : String) : m (Option String) :=
  if path.isEmpty then pure none else files.text? path

def runWith (a : Arguments) (s : Settings) (level : String) : m Outcome := do
  match given? a.template? s "template" with
  | none =>
    return .refuse level
      "No template specified. Pass it as an argument or set 'template' in the config"
  | some template =>
    match ← files.book? template with
    | none => return .refuse level ("Template not found: " ++ template)
    | some book =>
      let o := options a s
      if a.describe then return describe level template o book
      else if a.validate then return validate level template o book
      else
        match given? a.output? s "output" with
        | none =>
          return .refuse level "No output specified. Use --output or set 'output' in the config"
        | some output =>
          let path := (given? a.data? s "data").getD ""
          return fill level template output o book (Data.ofFile path a.dataName (← textAt files path))

def run (args : List String) : m Outcome := do
  match Arguments.parse args with
  | .unfit => return .unfit
  | .help => return { exit := .ok 0 }
  | .run a =>
    match Settings.ofText (← textAt files a.config) with
    | .error f => return .fail f none []
    | .ok s =>
      match level a s with
      | .error f => return .fail (.plain f) none []
      | .ok level => runWith files a s level

end

end SheetTemplate.CommandLine
