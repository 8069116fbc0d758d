import SheetTemplate.Text.Casing
import SheetTemplate.Text.Digit
import SheetTemplate.Workbook.Sheet

/-!
Workbooks: sheets in order, one of which is active by its place.
-/

namespace SheetTemplate

open Text

structure Workbook where
  sheets : List Sheet
  active : Nat := 0
  recalculates : Bool := false

namespace Workbook

def titles (w : Workbook) : List String := w.sheets.map (·.title)

def find? (w : Workbook) (title : String) : Option Sheet := w.sheets.find? (·.title == title)

def place? (w : Workbook) (title : String) : Option Nat := w.sheets.findIdx? (·.title == title)

def modify (w : Workbook) (title : String) (f : Sheet → Sheet) : Workbook :=
  { w with sheets := change w.sheets }
where
  change : List Sheet → List Sheet
    | [] => []
    | s :: rest => if s.title == title then f s :: rest else s :: change rest

def activeSheet? (w : Workbook) : Option Sheet := w.sheets[w.active]?

def showActive (w : Workbook) : Workbook :=
  match w.activeSheet? with
  | some s => if s.hidden then firstVisible w else w
  | none => firstVisible w
where
  firstVisible (w : Workbook) : Workbook :=
    match w.sheets.findIdx? fun s => !s.hidden with
    | some i => { w with active := i }
    | none => w

def remove (w : Workbook) (title : String) : Workbook :=
  { w with sheets := w.sheets.eraseP (·.title == title) }

def setHidden (w : Workbook) (title : String) (hidden : Bool) : Workbook :=
  w.modify title fun s => { s with hidden := hidden }

def countsAfter (title : List Char) : Nat → List Char → List Nat
  | 0, _ => []
  | fuel + 1, cs =>
    match cs with
    | [] => []
    | _ :: next =>
      match dropPrefix? (lower title) (lower (cs.take title.length)) with
      | some _ =>
        let (digits, rest) := (cs.drop title.length).span isDecimal
        let following := countsAfter title fuel rest
        if digits.isEmpty then following
        else digits.foldl (fun n d => 10 * n + (digitValue? d).getD 0) 0 :: following
      | none => countsAfter title fuel next

def freeTitle (titles : List String) (title : String) : String :=
  let small (s : String) : List Char := lower s.toList
  if titles.any fun t => small t == small title then
    -- The number follows the highest that stands behind the title anywhere in the list of titles.
    let all := (joinText "," titles).toList
    let highest := (countsAfter title.toList all.length all).foldl max 0
    title ++ toString (highest + 1)
  else title

def addCopy (w : Workbook) (s : Sheet) : Workbook :=
  { w with sheets := w.sheets ++ [s.duplicate (freeTitle w.titles (s.title ++ " Copy"))] }

def retitleLast (w : Workbook) (title : String) : Workbook :=
  match w.sheets.getLast? with
  | some s =>
    let given := if s.title == title then title else freeTitle w.titles title
    { w with sheets := w.sheets.dropLast ++ [{ s with title := given }] }
  | none => w

def moveLastAfter (w : Workbook) (anchor : String) : Workbook :=
  match w.sheets.getLast?, w.place? anchor with
  | some s, some j =>
    let others := w.sheets.dropLast
    -- The active place stays as it is, so that another sheet may come to be active.
    { w with sheets := others.insertIdx (min (j + 1) others.length) s }
  | _, _ => w

end Workbook

end SheetTemplate
