import SheetTemplate.Ref.Column
import SheetTemplate.Ref.Sheet
import SheetTemplate.Number.Read

/-!
Cell references: a sheet, a row and a column, both counted from 0.
-/

namespace SheetTemplate

open Number Text

structure CellRef where
  sheet : String
  row : Int
  col : Int
  deriving DecidableEq, Repr, Inhabited

namespace CellRef

def offset (r : CellRef) (rows cols : Int) : CellRef :=
  { r with row := r.row + rows, col := r.col + cols }

def onSheet (r : CellRef) (sheet : String) : CellRef := { r with sheet := sheet }

def before (a b : CellRef) : Bool :=
  if a.sheet == b.sheet then
    if a.row = b.row then decide (a.col < b.col) else decide (a.row < b.row)
  else decide (a.sheet < b.sheet)

def sortRefs (refs : List CellRef) : List CellRef := refs.mergeSort fun a b => !before b a

def name (r : CellRef) : Except Failure String := do
  .ok ((← Column.name r.col) ++ showInt (r.row + 1))

def qualifiedName (r : CellRef) : Except Failure String := do
  let name ← r.name
  .ok (if r.sheet.isEmpty then name else SheetTitle.quoteIfNeeded r.sheet ++ "!" ++ name)

def text (r : CellRef) : Except Failure String := do
  let name ← r.name
  .ok (if r.sheet.isEmpty then name else r.sheet ++ "!" ++ name)

def label (r : CellRef) : String :=
  match r.text with
  | .ok s => s
  | .error _ => r.sheet

def splitName? (cs : List Char) : Option (List Char × List Char) :=
  let dropDollar (cs : List Char) : List Char := match cs with
    | '$' :: rest => rest
    | _ => cs
  let (front, rest) := (dropDollar cs).span SheetTitle.isAsciiLetter
  let digits := dropDollar rest
  if 1 ≤ front.length && front.length ≤ 4 && !digits.isEmpty && digits.all isDecimal then
    some (front, digits)
  else none

def unquote? : List Char → Option (List Char)
  | [] => some []
  | '\'' :: '\'' :: rest => (unquote? rest).map ('\'' :: ·)
  | '\'' :: _ => none
  | c :: rest => (unquote? rest).map (c :: ·)

def quotedTitle? (front : List Char) : Option (List Char) :=
  match front with
  | '\'' :: rest =>
    match rest.reverse with
    | '\'' :: body => if body.isEmpty then none else unquote? body.reverse
    | _ => none
  | _ => none

def title? (front : List Char) : Option (List Char) :=
  match quotedTitle? front with
  | some title => some title
  | none =>
    if front.isEmpty || front.contains '!' then none
    else some (trim (· == '\'') (strip front))

def split? (cs : List Char) : Option (Option (List Char) × List Char × List Char) :=
  match splitLast? '!' cs with
  | none => (splitName? cs).map fun (front, digits) => (none, front, digits)
  | some (front, back) => do
    let (letters, digits) ← splitName? back
    let title ← title? front
    some (some title, letters, digits)

def parse (text : Option String) (defaultSheet : String) : Except Failure CellRef :=
  match split? (strip (text.getD "").toList) with
  | none => .error (.ofCause (.badCell text))
  | some (title, letters, digits) =>
    let row := (readDigits? 10 digits).getD 0
    if row < 1 then .error (.ofCause (.badRow (text.getD "")))
    else do
      let col ← Column.ofName (String.ofList letters)
      .ok
        { sheet := (title.map String.ofList).getD defaultSheet
          row := (row : Int) - 1
          col := col }

end CellRef

end SheetTemplate
