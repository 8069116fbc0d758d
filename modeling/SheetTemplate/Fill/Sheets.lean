import SheetTemplate.Fill.Write

namespace SheetTemplate

namespace FillM

def onBook (f : Workbook → Workbook) : FillM Unit := modify fun s => { s with book := f s.book }

def isTitle (title : String) : Bool :=
  !title.isEmpty && title.toList.all fun c => !SheetTitle.isForbidden c

def copySheet (origin title : String) (after? : Option String) : FillM Unit := do
  match (← get).book.find? origin with
  | none => throw (.library .key)
  | some sheet =>
    onBook fun w => w.addCopy sheet
    -- The copy stays in the workbook when its title is refused.
    if !isTitle title then throw (.library .value)
    onBook fun w => w.retitleLast title
    let anchor := (after?.filter fun a => !a.isEmpty).getD origin
    match (← get).book.place? anchor with
    | none => throw (.library .key)
    | some _ =>
      onBook fun w => w.moveLastAfter anchor
      -- A title that was deleted can be written to again.
      modify fun s => { s with deleted := s.deleted.filter (· != title) }

def deleteSheet (title : String) : FillM Unit := do
  match (← get).book.find? title with
  | none => return
  | some _ =>
    modify fun s =>
      { s with
        book := (s.book.remove title).showActive
        deleted := title :: s.deleted }

def setHidden (title : String) (hidden : Bool) : FillM Unit := do
  match (← get).book.find? title with
  | none => throw (.library .key)
  | some _ => onBook fun w => (w.setHidden title hidden).showActive

def retireSheet (title : String) : FillM Unit := do
  let s ← get
  if s.retired.contains title then return
  else
    set { s with retired := s.retired ++ [title] }
    match s.policy with
    | .keep => return
    | .hide => setHidden title true
    | .delete => deleteSheet title

end FillM

end SheetTemplate
