import SheetTemplate.Expr.Evaluator
import SheetTemplate.Expr.Segment

/-!
The names that a fill sees: the data, hidden by loop variables. A guard binds a loop variable and
gives back what the name meant before.
-/

namespace SheetTemplate

open Text Value

/-- The turn of one item in a loop, or in the test for one: what the loop variable is bound to, and
perhaps its index. -/
structure Turn where
  name : String
  value : Value
  index? : Option (String × Value) := none

/-- What was in sight when the names were asked for: the view that was handed out, and the data, the
loop variables and the open turns of that moment. -/
structure Sight where
  view : Names
  data : Names
  runVars : Names
  turns : List Turn

structure Context where
  data : Names
  runVars : Names := []
  merged? : Option Names := none
  turns : List Turn := []
  sights : List Sight := []

namespace Context

def rowName : String := "_row"

def columnName : String := "_col"

def view (c : Context) : Names := c.merged?.getD (c.data.override c.runVars)

def sight (c : Context) : Sight := ⟨c.view, c.data, c.runVars, c.turns⟩

def keepView (c : Context) : Context :=
  { c with merged? := some c.view, sights := c.sight :: c.sights }

def get? (c : Context) (n : String) : Option Value := (c.runVars.find? n).or (c.data.find? n)

def contains (c : Context) (n : String) : Bool := c.runVars.contains n || c.data.contains n

def put (c : Context) (n : String) (v : Value) : Context :=
  { c with data := c.data.set n v, merged? := none }

def remove (c : Context) (n : String) : Context :=
  { c with data := c.data.erase n, merged? := none }

def setRun (c : Context) (n : String) (v : Value) : Context :=
  { c with runVars := c.runVars.set n v, merged? := none }

def removeRun (c : Context) (n : String) : Context :=
  { c with runVars := c.runVars.erase n, merged? := none }

def restore (c : Context) (n : String) : Option Value → Context
  | some v => c.setRun n v
  | none => c.removeRun n

end Context

structure Guard where
  name : String
  index? : Option String
  oldValue : Option Value
  oldIndex : Option Value
  outer : List Turn
  closed : Bool := false

namespace Guard

def «open» (c : Context) (name : String) (index? : Option String) : Guard :=
  let index? := index?.filter fun n => !n.isEmpty
  { name := name
    index? := index?
    oldValue := c.runVars.find? name
    oldIndex := index?.bind c.runVars.find?
    outer := c.turns }

def set (g : Guard) (c : Context) (v : Value) (index : Option Value) : Context :=
  let c := c.setRun g.name v
  match g.index?, index with
  -- The index is set after the item, and wins where both have one name.
  | some n, some i => { c.setRun n i with turns := ⟨g.name, v, some (n, i)⟩ :: g.outer }
  | _, _ => { c with turns := ⟨g.name, v, none⟩ :: g.outer }

def close (g : Guard) (c : Context) : Guard × Context :=
  if g.closed then (g, c)
  else
    let c := c.restore g.name g.oldValue
    let c := match g.index? with
      | some n => c.restore n g.oldIndex
      | none => c
    ({ g with closed := true }, { c with turns := g.outer })

end Guard

namespace Evaluator

def segmentText (ev : Evaluator) (names : String → Option Value) : Segment → EvalM String
  | .literal cs => return String.ofList cs
  | .expression cs => do
    match ← ev.evaluate names (String.ofList cs) with
    | .null => return ""
    | v => return v.shown

def evaluateText (ev : Evaluator) (marks : Marks) (names : String → Option Value) (text : String) :
    EvalM Value := do
  match Segment.single? marks text.toList with
  | some e => ev.evaluate names (String.ofList e)
  | none =>
    let segments := Segment.split marks text.toList
    if segments.any Segment.isExpression then
      return .text (joinText "" (← segments.mapM (ev.segmentText names)))
    else return .text text

end Evaluator

end SheetTemplate
