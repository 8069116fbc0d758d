import SheetTemplate.Data.Member
import SheetTemplate.Data.Yaml.Block
import SheetTemplate.Fill.Run

/-!
Settings by name. A settings file changes the defaults and may add names of its own.
-/

namespace SheetTemplate

abbrev Settings := List (Value × Value)

namespace Settings

open Value

def defaults : Settings :=
  [("template", .null), ("data", .null), ("output", .null), ("log_level", .text "INFO"),
    ("notation_begin", .text "$\x7b"), ("notation_end", .text "\x7d"),
    ("clear_template_cells", .bool true), ("recalculate_on_open", .bool false),
    ("keep_template_sheet", .bool false), ("hide_template_sheet", .bool false)].map
    fun (k, v) => (.text k, v)

def get (s : Settings) (name : String) : Value := (Value.dict s).member name

def put (s : Settings) (key v : Value) : Except Fault Settings := Expr.putAll s [(key, v)]

def pair? : Value → Option (Except Nat (Value × Value))
  | .list [k, v] => some (.ok (k, v))
  | .list items => some (.error items.length)
  | .dict [(k, _), (v, _)] => some (.ok (k, v))
  | .dict entries => some (.error entries.length)
  | .text s =>
    match s.toList with
    | [k, v] => some (.ok (.text (String.singleton k), .text (String.singleton v)))
    | cs => some (.error cs.length)
  | _ => none

def putPairs (s : Settings) : Nat → List Value → Except Fault Settings
  | _, [] => .ok s
  | i, v :: rest =>
    match pair? v with
    | some (.ok (k, x)) => do
      let s ← put s k x
      putPairs s (i + 1) rest
    | some (.error n) =>
      .error (.badValue ("dictionary update sequence element #" ++ toString i ++ " has length " ++
        toString n ++ "; 2 is required"))
    | none =>
      .error (.badType ("cannot convert dictionary update sequence element #" ++ toString i ++
        " to a sequence"))

def update (s : Settings) (v : Value) : Except Fault Settings :=
  if !v.truth then .ok s
  else
    match v with
    | .dict entries => Expr.putAll s entries
    | .list items => putPairs s 0 items
    | .text t => putPairs s 0 (t.toList.map fun c => .text (String.singleton c))
    | _ => .error (.notIterable v.className)

def ofText : Option String → Except Failure Settings
  | none => .ok defaults
  | some s => do
    let v ← Data.readYaml s
    match update defaults v with
    | .ok s => .ok s
    | .error f => .error (.plain f)

def fillNames : List String :=
  ["notation_begin", "notation_end", "clear_template_cells", "recalculate_on_open",
    "keep_template_sheet", "hide_template_sheet"]

def marks (s : Settings) : Marks :=
  .ofTexts (s.get "notation_begin").shown (s.get "notation_end").shown

def policy (s : Settings) : SheetPolicy :=
  .ofFlags (s.get "keep_template_sheet").truth (s.get "hide_template_sheet").truth

def options (s : Settings) : FillOptions :=
  { host := { marks := s.marks }
    clearsTemplate := (s.get "clear_template_cells").truth
    policy := s.policy
    recalculates := (s.get "recalculate_on_open").truth }

end Settings

end SheetTemplate
