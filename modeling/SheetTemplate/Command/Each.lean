import SheetTemplate.Collection.Order
import SheetTemplate.Fill.Host
import SheetTemplate.Fill.Sheets

/-!
Repeating an area for each item of a collection. The items are first selected, then grouped, then
sorted; they are laid out downward or to the right, or each on a sheet of its own.
-/

namespace SheetTemplate

open Number

structure Inner where
  start : CellRef
  size : Size
  replay : CellRef → FillM Size

namespace FillM

def within {α : Type} (command property : String) (body : FillM α) : FillM α :=
  mapFailure (fun f => f.locateExpression none (some command) (some property)) body

def ofFault {α : Type} (r : Except Fault α) : FillM α := eval (EvalM.ofFault r)

def itemsOr (v : Value) (cause : String → Cause) (expression command property : String) :
    FillM (List Value) :=
  tryCatch (eval v.itemList) fun
    | .plain ⟨.type, reason⟩ =>
      throw (.template
        { cause := cause reason
          expression := some expression
          command := some command
          property := some property })
    | f => throw f

end FillM

namespace EachSpec

variable (h : FillHost)

def evaluate (key text : String) : FillM Value := FillM.within "each" key (h.evaluate text)

def selected (e : EachSpec) (condition : String) : List Value → FillM (List Value)
  | [] => return []
  | item :: rest => do
    -- The condition is asked with the item as the loop variable, and without an index.
    let keep ← FillM.binding e.var none item none
      (FillM.within "each" "select" (h.isTrue condition))
    let rest ← selected e condition rest
    return if keep then item :: rest else rest

def grouped (e : EachSpec) (items : List Value) : Except Fault (List Value) :=
  match e.groupBy? with
  | none => .ok items
  | some path => do
    let groups ← Group.ofItems items (OrderSpec.withoutVar path e.var) (e.groupOrder?.getD "")
    .ok (groups.map Group.toValue)

def ordered (e : EachSpec) (items : List Value) : Except Fault (List Value) :=
  match e.orderBy? with
  | none => .ok items
  | some spec => OrderSpec.sortItems (OrderSpec.parse spec e.var) items

def resolve (e : EachSpec) : FillM (List Value) := do
  let v ← evaluate h "items" e.items
  let items ← FillM.itemsOr v (.itemsNotSequence e.items) e.items "each" "items"
  if items.isEmpty then return []
  else
    let items ← match e.select? with
      | none => pure items
      | some condition => e.selected h condition items
    if items.isEmpty then return []
    else FillM.ofFault (do e.ordered (← e.grouped items))

def nextTarget (e : EachSpec) (target : CellRef) (done : Size) : CellRef :=
  if e.direction == right then target.offset 0 done.width else target.offset done.height 0

def extend (e : EachSpec) (done size : Size) : Size :=
  if e.direction == right then ⟨done.width + size.width, max done.height size.height⟩
  else ⟨max done.width size.width, done.height + size.height⟩

def runItems (e : EachSpec) (inner : Inner) (target : CellRef) (index : Nat) (done : Size) :
    List Value → FillM Size
  | [] => return done
  | item :: rest => do
    let size ← FillM.binding e.var e.varIndex? item (some (.int index))
      (inner.replay (e.nextTarget target done))
    runItems e inner target (index + 1) (e.extend done size) rest

def runSheets (e : EachSpec) (inner : Inner) (target : CellRef) (names existing : List String)
    (index : Nat) (previous : String) (last : Size) : List Value → FillM Size
  | [] => return last
  | item :: rest => do
    let raw := names[index]?.getD (target.sheet ++ "_" ++ showInt (index + 1))
    let title := SheetTitle.safe raw existing
    FillM.copySheet target.sheet title (some previous)
    let size ← FillM.binding e.var e.varIndex? item (some (.int index))
      (inner.replay (target.onSheet title))
    runSheets e inner target names (title :: existing) (index + 1) title size rest

def runMultisheet (e : EachSpec) (inner : Inner) (names : String) (items : List Value)
    (target : CellRef) : FillM Size := do
  let v ← evaluate h "multisheet" names
  let titles ← FillM.itemsOr v (.sheetsNotList names) names "each" "multisheet"
  -- Titles are chosen to be free now, and among each other.
  let existing := (← get).book.titles
  let size ← e.runSheets inner target (titles.map Value.shown) existing 0 target.sheet .zero items
  FillM.log .info "each" ("Multisheet: " ++ showInt items.length ++ " sheets generated from '" ++
    target.sheet ++ "'")
  FillM.retireSheet target.sheet
  return size

def run (e : EachSpec) (inner? : Option Inner) (target : CellRef) : FillM Size := do
  let items ← e.resolve h
  if items.isEmpty then return .zero
  else
    match inner? with
    | none => throw (.template { cause := .noInnerArea, command := some "each" })
    | some inner =>
      match e.multisheet? with
      | some names => e.runMultisheet h inner names items target
      | none => e.runItems inner target 0 .zero items

end EachSpec

end SheetTemplate
