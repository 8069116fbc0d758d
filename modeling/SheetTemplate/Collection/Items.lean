import SheetTemplate.Expr.Access
import SheetTemplate.Expr.Monad

namespace SheetTemplate

open Text

namespace Value

def notItems (v : Value) : Fault := .badType ("cannot iterate over " ++ v.className)

def itemList (v : Value) : EvalM (List Value) :=
  match v with
  | null => return []
  | frame rows => return rows
  | array items | series items | list items | tuple items => return items
  | range a b c => return rangeItems a b c
  | stream _ id => EvalM.drain id
  | _ => EvalM.fault v.notItems

def fieldStep (v : Value) (part : String) : Value :=
  match v with
  | null => .null
  | dict entries => (lookup? entries (.text part)).getD .null
  | _ => (v.attribute? part).getD .null

def field (v : Value) (path : String) : Value :=
  ((splitOnChar '.' path.toList).map String.ofList).foldl fieldStep v

def rowCells (v : Value) (fields : List String) : List Value :=
  match v with
  | null => []
  | list items | tuple items => items
  | range a b c => rangeItems a b c
  | _ =>
    if fields.isEmpty then
      match v with
      | dict entries => entries.map (·.2)
      | _ => [v]
    else fields.map v.field

end Value

end SheetTemplate
