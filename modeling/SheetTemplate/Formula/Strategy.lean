import SheetTemplate.Text.Casing
import SheetTemplate.Text.Scan

namespace SheetTemplate

open Text

inductive FormulaStrategy where
  | default | byColumn | byRow
  deriving DecidableEq, Repr, Inhabited

namespace FormulaStrategy

def title : FormulaStrategy → String
  | default => "DEFAULT"
  | byColumn => "BY_COLUMN"
  | byRow => "BY_ROW"

def ofText (s : String) : FormulaStrategy :=
  let word := String.ofList (upper (strip s.toList))
  if word == byColumn.title then byColumn else if word == byRow.title then byRow else default

end FormulaStrategy

end SheetTemplate
