import SheetTemplate.Command.Basic
import SheetTemplate.Fill.State

namespace SheetTemplate

structure FillHost where
  evaluator : Evaluator := {}
  marks : Marks := .standard
  before : Nat → CellRef → CellRef → FillM Bool := fun _ _ _ => pure true
  after : Nat → CellRef → CellRef → FillM Unit := fun _ _ _ => pure ()
  update : Nat → CellInfo → CellRef → FillM CellInfo := fun _ info _ => pure info
  run : HostedCommand → CellRef → FillM Size := fun _ _ => pure .zero

namespace FillHost

variable (h : FillHost)

def evaluate (text : String) : FillM Value := do
  let names ← FillM.names
  FillM.eval (h.evaluator.evaluate names text)

def isTrue (condition : String) : FillM Bool := do
  let names ← FillM.names
  FillM.eval (h.evaluator.isTrue names condition)

def evaluateText (text : String) : FillM Value := do
  let names ← FillM.names
  FillM.eval (h.evaluator.evaluateText h.marks names text)

def expressionText? (v : Value) : Option String :=
  match v with
  | .text s => if Segment.isMarked h.marks s.toList then some s else none
  | _ => none

end FillHost

end SheetTemplate
