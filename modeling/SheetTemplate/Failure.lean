import SheetTemplate.Fault
import SheetTemplate.Text.Quoted
import SheetTemplate.Text.Scan

namespace SheetTemplate

open Text

inductive FailureClass where
  | template | layout | expression | state
  deriving DecidableEq, Repr

def FailureClass.title : FailureClass → String
  | template => "TemplateError"
  | layout => "TemplateStructureError"
  | expression => "ExpressionError"
  | state => "FillStateError"

inductive Cause where
  | badColumn (name : String)
  | badCell (text : Option String)
  | badRow (text : String)
  | badArea (text : Option String)
  | noOpenBracket (line : String)
  | noCloseBracket (line : String)
  | noCommandName (line : String)
  | badLastCell (text reason : String)
  | noLastCell (line : String)
  | badListedArea (text reason : String)
  | lastCellElsewhere (cell : String)
  | lastCellBefore (cell : String)
  | noComments
  | noRoots
  | missingAttribute (command key : String)
  | notNumber (key text : String)
  | notInteger (key text : String)
  | badLoopName (name : String)
  | emptyExpression
  | malformed (expression reason : String)
  | evaluation (expression : String) (fault : Fault)
  | notCondition (condition className : String)
  | itemsNotSequence (expression reason : String)
  | sheetsNotList (expression reason : String)
  | notList (key expression reason : String)
  | notBytes (className : String)
  | notWhole (key expression shown : String)
  | noUpdater (name : String)
  | unfitUpdater (name : String)
  | noTransformer
  | noInnerArea
  | neverFilled
  | alreadyExpanded (sheets : List String)
  | reported (family : FailureClass) (text : String)
  deriving DecidableEq, Repr

namespace Cause

def family : Cause → FailureClass
  | emptyExpression | malformed _ _ | evaluation _ _ | notCondition _ _ | itemsNotSequence _ _
  | sheetsNotList _ _ | notList _ _ _ | notBytes _ | notWhole _ _ _ | noUpdater _
  | unfitUpdater _ => .expression
  | noTransformer | noInnerArea | neverFilled | alreadyExpanded _ => .state
  | reported f _ => f
  | _ => .layout

def quotedOption : Option String → String
  | none => "None"
  | some s => quoted s

def message : Cause → String
  | badColumn name => "invalid column name: " ++ quoted name
  | badCell text => "invalid cell reference: " ++ quotedOption text
  | badRow text => "invalid row number in cell reference: " ++ quoted text
  | badArea text => "invalid area reference (missing ':'): " ++ quotedOption text
  | noOpenBracket line => "missing '(' in command: " ++ quoted line
  | noCloseBracket line => "missing ')' in command: " ++ quoted line
  | noCommandName line => "missing command name: " ++ quoted line
  | badLastCell text reason => "invalid lastCell " ++ quoted text ++ ": " ++ reason
  | noLastCell line => "missing lastCell attribute: " ++ quoted line
  | badListedArea text reason => "invalid area " ++ quoted text ++ ": " ++ reason
  | lastCellElsewhere cell => "lastCell " ++ cell ++ " is on a different sheet"
  | lastCellBefore cell => "lastCell " ++ cell ++ " is above or left of the command cell"
  | noComments => "no commented cells found in template"
  | noRoots => "no jx:area command found in template"
  | missingAttribute command key => command ++ " command requires '" ++ key ++ "' attribute"
  | notNumber key text => key ++ " must be a number, got " ++ quoted text
  | notInteger key text => key ++ " must be an integer, got " ++ quoted text
  | badLoopName name => "loop variable must be a name, got " ++ quoted name
  | emptyExpression => "empty expression"
  | malformed e reason => "invalid expression syntax " ++ quoted e ++ ": " ++ reason
  | evaluation e fault =>
    "cannot evaluate " ++ quoted e ++ ": " ++ fault.kind.title ++ ": " ++ fault.text
  | notCondition condition className =>
    "condition " ++ quoted condition ++ " evaluated to " ++ className ++ ", expected bool"
  | itemsNotSequence e reason => "items " ++ quoted e ++ " is not an ordered sequence: " ++ reason
  | sheetsNotList e reason =>
    "multisheet " ++ quoted e ++ " must be a list of sheet names: " ++ reason
  | notList key e reason => key ++ " " ++ quoted e ++ " is not a list: " ++ reason
  | notBytes className => "image src must be bytes, got " ++ className
  | notWhole key e shown =>
    key ++ " " ++ quoted e ++ " evaluated to " ++ shown ++ ", expected an integer"
  | noUpdater name => "updater " ++ quoted name ++ " not found in context"
  | unfitUpdater name => quoted name ++ " has no update_cell_data method"
  | noTransformer => "area has no transformer"
  | noInnerArea => "each command has no area"
  | neverFilled => "no template has been processed yet"
  | alreadyExpanded sheets =>
    "multisheet template sheets [" ++ joinText ", " (sheets.map quoted) ++
      "] were already expanded, open the template again"
  | reported _ text => text

end Cause

structure TemplateFault where
  cause : Cause
  cell : Option String := none
  command : Option String := none
  property : Option String := none
  expression : Option String := none
  deriving DecidableEq, Repr

namespace TemplateFault

def isBlankName : Option String → Bool
  | none => true
  | some s => s.isEmpty

def locate (e : TemplateFault) (cell command property : Option String) : TemplateFault :=
  let e := if e.cell.isNone then { e with cell := cell } else e
  if isBlankName e.command && !isBlankName command then
    { e with
      command := command
      property := if isBlankName e.property then property else e.property }
  else e

def location (e : TemplateFault) : List String :=
  let command := match e.command with
    | some c =>
      if c.isEmpty then []
      else
        match e.property with
        | some p => if p.isEmpty then [c] else [c ++ "." ++ p]
        | none => [c]
    | none => []
  e.cell.toList ++ command

def text (e : TemplateFault) : String :=
  match e.location with
  | [] => e.cause.message
  | parts => "[" ++ joinText " " parts ++ "] " ++ e.cause.message

end TemplateFault

inductive Failure where
  | template (e : TemplateFault)
  | plain (f : Fault)
  | library (kind : FaultKind)
  deriving DecidableEq, Repr

namespace Failure

def ofCause (cause : Cause) : Failure := .template { cause := cause }

def locateExpression (f : Failure) (cell command property : Option String) : Failure :=
  match f with
  | template e =>
    if e.cause.family = .expression then .template (e.locate cell command property) else f
  | _ => f

def locate (f : Failure) (cell command property : Option String) : Failure :=
  match f with
  | template e => .template (e.locate cell command property)
  | _ => f

end Failure

end SheetTemplate
