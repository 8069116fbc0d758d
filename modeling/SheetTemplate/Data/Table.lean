import SheetTemplate.Data.Csv
import SheetTemplate.Failure
import SheetTemplate.Text.Ranges
import SheetTemplate.Value.Column

namespace SheetTemplate.Data

namespace Table

open Number Text

def gaps : List String :=
  ["", "#N/A", "#N/A N/A", "#NA", "-1.#IND", "-1.#QNAN", "-NaN", "-nan", "1.#IND", "1.#QNAN",
    "<NA>", "N/A", "NA", "NULL", "NaN", "None", "n/a", "nan", "null"]

def isGap (f : Csv.Field) : Bool := gaps.contains (String.ofList f)

def trimmed (f : Csv.Field) : List Char := trim (fun c => c == ' ' || c == '\t') f

def whole? (f : Csv.Field) : Option Int :=
  let (negative, ds) := splitSign (trimmed f)
  if !ds.isEmpty && ds.all Char.isDigit then
    let n : Int := ds.foldl (fun n c => 10 * n + (c.toNat - 48)) 0
    some (if negative then -n else n)
  else none

def float? (f : Csv.Field) : Option Float :=
  let cs := trimmed f
  if cs.any fun c => c == '_' || 128 ≤ c.toNat then none else readFloat? cs

def truth? (f : Csv.Field) : Option Bool :=
  let s := String.ofList f
  if ["True", "TRUE", "true"].contains s then some true
  else if ["False", "FALSE", "false"].contains s then some false
  else none

def fit (ns : List Int) : Bool :=
  ns.all (fun n => -(Int.pow 2 63) ≤ n && n < Int.pow 2 63) || ns.all fun n => 0 ≤ n && n < Int.pow 2 64

def column (fields : List Csv.Field) : List Value :=
  let given := fields.filter fun f => !isGap f
  let fill (read : Csv.Field → Value) : List Value :=
    fields.map fun f => if isGap f then .null else read f
  let text (f : Csv.Field) : Value := .text (String.ofList f)
  let float (f : Csv.Field) : Value := ((float? f).map Value.float).getD .null
  match given.mapM whole? with
  | some ns =>
    if !fit ns then fill text
    else if given.length < fields.length then fill float
    else ns.map .int
  | none =>
    if given.all fun f => (float? f).isSome then fill float
    else if given.all fun f => (truth? f).isSome then
      fill fun f => ((truth? f).map Value.bool).getD .null
    else fill text

def nameless (i : Nat) : String := "Unnamed: " ++ toString i

def freeName (all : List String) (name : String) : Nat → Nat → String
  | 0, _ => name
  | fuel + 1, count =>
    let numbered := name ++ "." ++ toString count
    if all.contains numbered then freeName all name fuel (count + 1) else numbered

def distinct (all : List String) : List String → List String → List String
  | _, [] => []
  | done, n :: rest =>
    let name := if done.contains n then
        freeName (all ++ done) n (all.length + done.length + 1) (done.count n)
      else n
    name :: distinct all (if name == n then n :: done else name :: n :: done) rest

def header (fields : List Csv.Field) : List String :=
  let names := fields.mapIdx fun i f => if f.isEmpty then nameless i else String.ofList f
  distinct names [] names

def even (width : Nat) : List (List Csv.Field) → Except FaultKind (List (List Csv.Field))
  | [] => .ok []
  | row :: rest =>
    if width < row.length then .error .tableText
    else (even width rest).map ((row ++ List.replicate (width - row.length) []) :: ·)

def ofRecords (names : List Csv.Field) (rows : List (List Csv.Field)) :
    Except FaultKind (List Value) := do
  let columns := header names
  let width := max columns.length ((rows.head?.map List.length).getD 0)
  let rows ← even width rows
  let rows := rows.map (List.drop (width - columns.length))
  let values := columns.mapIdx fun i name =>
    (name, (column (rows.map fun r => r.getD i [])).toArray)
  .ok (rows.mapIdx fun i _ =>
    .dict (values.map fun (name, column) => (.text name, column.getD i .null)))

end Table

def readTable (s : String) : Except Failure (List Value) :=
  let rows : Except FaultKind (List Value) := do
    match ← Csv.records s with
    | [] => .error .noColumns
    | names :: rows => Table.ofRecords names rows
  match rows with
  | .ok l => .ok l
  | .error kind => .error (.library kind)

end SheetTemplate.Data
