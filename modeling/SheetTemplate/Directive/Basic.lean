import SheetTemplate.Directive.Attributes
import SheetTemplate.Formula.Strategy
import SheetTemplate.Ref.Area

/-!
Directives in the comments of cells. A line that begins with the mark is a command over the
rectangle from its cell to its last cell, or gives parameters of the cell; other lines are text.
-/

namespace SheetTemplate

open Text

structure Directive where
  name : String
  attributes : Attributes
  cell : CellRef
  lastCell? : Option CellRef := none
  areas : List AreaRef := []
  deriving DecidableEq, Repr

structure CellParams where
  default? : Option String := none
  strategy? : Option FormulaStrategy := none
  deriving DecidableEq, Repr

namespace Directive

def area? (a : Directive) : Option AreaRef := a.lastCell?.map fun last => ⟨a.cell, last⟩

def mark : List Char := "jx:".toList

def paramsName : List Char := "params".toList

def isParams (line : List Char) : Bool := startsWith (mark ++ paramsName) (strip line)

def isCommand (line : List Char) : Bool := startsWith mark (strip line) && !isParams line

def lines (comment : List Char) : List (List Char) := splitOnChar '\n' (unifyLines comment)

def brackets (line : List Char) : Except Failure (List Char × List Char) :=
  match splitFirst? ['('] line with
  | none => .error (.ofCause (.noOpenBracket (String.ofList line)))
  | some (before, after) =>
    match splitLast? ')' after with
    | none => .error (.ofCause (.noCloseBracket (String.ofList line)))
    | some (inner, _) => .ok (before, inner)

def isAreaChar (c : Char) : Bool := c.isAlphanum || ['_', '!', '\'', '.', '$'].contains c

def areaPairs : List (List Char) → List (List Char)
  | p :: q :: rest =>
    -- The second piece may still be the first of a pair.
    if p.isEmpty || q.isEmpty then areaPairs (q :: rest)
    else (p ++ ':' :: q) :: areaPairs rest
  | _ => []

def areaTexts (cs : List Char) : List (List Char) :=
  (pieces cs).flatMap fun piece => areaPairs (splitOnChar ':' piece)
where
  pieces : List Char → List (List Char)
    | [] => [[]]
    | c :: cs =>
      if isAreaChar c || c == ':' then
        match pieces cs with
        | [] => [[c]]
        | p :: rest => (c :: p) :: rest
      else [] :: pieces cs

def bracketList? (cs : List Char) : Option (List Char) :=
  match Attributes.afterEquals? cs with
  | some ('[' :: rest) =>
    let (inner, after) := rest.span (· != ']')
    if after.isEmpty then none else some inner
  | _ => none

def areaList? : List Char → Option (List Char)
  | [] => none
  | c :: cs =>
    match (dropPrefix? "areas".toList (c :: cs)).bind bracketList? with
    | some inner => some inner
    | none => areaList? cs

def within (cell : CellRef) (name key : String) (cause : String → Cause) (f : Failure) : Failure :=
  match f with
  | .template e =>
    .template
      { cause := cause e.cause.message
        cell := some cell.label
        command := some name
        property := some key }
  | _ => f

def readLastCell (line : List Char) (name : String) (attributes : Attributes) (cell : CellRef) :
    Except Failure (Option CellRef) :=
  match attributes.find? "lastCell" with
  | some text =>
    match CellRef.parse (some text) cell.sheet with
    | .ok last => .ok (some last)
    | .error f => .error (within cell name "lastCell" (.badLastCell text) f)
  | none =>
    if name.toList == paramsName then .ok none
    else
      .error (.template
        { cause := .noLastCell (String.ofList line)
          cell := some cell.label
          command := some name
          property := some "lastCell" })

def readArea (name : String) (cell : CellRef) (text : List Char) : Except Failure AreaRef :=
  let text := String.ofList text
  match AreaRef.parse (some text) cell.sheet with
  | .ok area => .ok area
  | .error f => .error (within cell name "areas" (.badListedArea text) f)

def parse (line : List Char) (cell : CellRef) : Except Failure Directive := do
  let line := strip line
  let (before, inner) ← brackets line
  let name := String.ofList (strip (before.drop mark.length))
  if name.isEmpty then
    .error (.template
      { cause := .noCommandName (String.ofList line), cell := some cell.label })
  else
    let attributes := Attributes.parse inner
    let last ← readLastCell line name attributes cell
    let areas ← ((areaList? inner).map areaTexts |>.getD []).mapM (readArea name cell)
    .ok
      { name := name
        attributes := attributes
        cell := cell
        lastCell? := last
        areas := areas }

def parseParams (line : List Char) : Except Failure CellParams := do
  let line := strip line
  if !line.contains '(' then .ok {}
  else
    let (_, inner) ← brackets line
    let attributes := Attributes.parse inner
    .ok
      { default? := attributes.find? "defaultValue"
        strategy? := (attributes.find? "formulaStrategy").map FormulaStrategy.ofText }

def parseLine (cell : CellRef) (read : List Directive × Option CellParams) (line : List Char) :
    Except Failure (List Directive × Option CellParams) :=
  let line := strip line
  let parsed : Except Failure (List Directive × Option CellParams) :=
    if isParams line then (parseParams line).map fun p => (read.1, some p)
    else if isCommand line then (parse line cell).map fun a => (read.1 ++ [a], read.2)
    else .ok read
  match parsed with
  | .ok r => .ok r
  | .error f => .error (f.locate (some cell.label) none none)

def parseComment (comment : Option String) (cell : CellRef) :
    Except Failure (List Directive × Option CellParams) :=
  (lines (comment.getD "").toList).foldlM (parseLine cell) ([], none)

end Directive

end SheetTemplate
