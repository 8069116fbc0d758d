import SheetTemplate.Data.Table
import SheetTemplate.Data.Yaml.Block
import SheetTemplate.Fill.State

namespace SheetTemplate.Data

open Text

def ending (path : String) : String :=
  let file := (splitOnChar '/' path.toList).getLastD []
  match splitLast? '.' file with
  | some (front, back) =>
    if front.all (· == '.') then "" else String.ofList (lower ('.' :: back))
  | none => ""

def fileMissing (path : String) : Fault :=
  ⟨.fileMissing, "[Errno 2] No such file or directory: " ++ quoted path⟩

def mapping (path : String) : Value → Except Failure (List (Value × Value))
  | .null => .ok []
  | .dict entries => .ok entries
  | v =>
    .error (.plain (.badValue
      ("data file " ++ path ++ " must contain a mapping, got " ++ v.className)))

def loaded (path name : String) (count : Nat) : LogEntry :=
  ⟨.info, "main", "Loaded " ++ toString count ++ " rows from " ++ path ++ " as '" ++ name ++ "'"⟩

def ofFile (path name : String) (text? : Option String) :
    Except Failure (List (Value × Value) × List LogEntry) :=
  if path.isEmpty then .ok ([], [])
  else if ending path == ".csv" then
    match text? with
    | none => .error (.library .fileMissing)
    | some s =>
      (readTable s).map fun rows =>
        ([(.text name, .list rows)], [loaded path name rows.length])
  else
    match text? with
    | none => .error (.plain (fileMissing path))
    | some s => do
      let v ← if ending path == ".json" then
          match readJson? s with
          | some v => .ok v
          | none => .error (.library .jsonText)
        else readYaml s
      let entries ← mapping path v
      .ok (entries, [])

end SheetTemplate.Data
