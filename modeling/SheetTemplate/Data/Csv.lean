import SheetTemplate.Fault

namespace SheetTemplate.Data.Csv

inductive Spot where
  | line (blanks : List Char)
  | start
  | bare
  | quoted
  | closed

abbrev Field := List Char

def isBlank (c : Char) : Bool := c == ' ' || c == '\t'

def read (spot : Spot) (field : Field) (fields : List Field) :
    List Char → Except FaultKind (List (List Field))
  | [] =>
    match spot with
    | .line _ => .ok []
    | .quoted => .error .tableText
    | _ => .ok [(field.reverse :: fields).reverse]
  | c :: cs =>
    let endsRecord := c == '\n' || c == '\r'
    let record := (field.reverse :: fields).reverse
    match spot with
    | .line blanks =>
      if endsRecord then read (.line []) [] [] cs
      else if isBlank c then read (.line (c :: blanks)) [] [] cs
      else if c == ',' then read .start [] [blanks.reverse] cs
      else if c == '"' && blanks.isEmpty then read .quoted [] [] cs
      else read .bare (c :: blanks) [] cs
    | .quoted =>
      if c == '"' then read .closed field fields cs else read .quoted (c :: field) fields cs
    | .closed =>
      if c == '"' then read .quoted (c :: field) fields cs
      else if c == ',' then read .start [] (field.reverse :: fields) cs
      else if endsRecord then (read (.line []) [] [] cs).map (record :: ·)
      else read .bare (c :: field) fields cs
    | .start =>
      if c == '"' then read .quoted [] fields cs
      else if c == ',' then read .start [] ([] :: fields) cs
      else if endsRecord then (read (.line []) [] [] cs).map (record :: ·)
      else read .bare [c] fields cs
    | .bare =>
      if c == ',' then read .start [] (field.reverse :: fields) cs
      else if endsRecord then (read (.line []) [] [] cs).map (record :: ·)
      else read .bare (c :: field) fields cs

def records (s : String) : Except FaultKind (List (List Field)) :=
  read (.line []) [] [] s.toList

end SheetTemplate.Data.Csv
