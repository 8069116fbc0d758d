import SheetTemplate.Data.Json

namespace SheetTemplate.Data.Yaml

open Number Text Value

abbrev Read (α : Type) := Except FaultKind α

namespace Scalar

def nulls : List String := ["", "~", "null", "Null", "NULL"]

def truths : List String :=
  ["yes", "Yes", "YES", "true", "True", "TRUE", "on", "On", "ON"]

def falsehoods : List String :=
  ["no", "No", "NO", "false", "False", "FALSE", "off", "Off", "OFF"]

def isRunChar (c : Char) : Bool := c.isDigit || c == '_'

def digits? (base : Nat) (cs : List Char) : Option Nat :=
  let cs := cs.filter (· != '_')
  if cs.isEmpty then none
  else cs.foldlM (fun n c => (Json.hexValue? c).bind fun d =>
    if d < base then some (n * base + d) else none) 0

def isSixtieth (cs : List Char) : Bool :=
  match cs with
  | [a] => a.isDigit
  | [a, b] => '0' ≤ a && a ≤ '5' && b.isDigit
  | _ => false

def startsRun (cs : List Char) : Bool :=
  match cs with
  | c :: rest => '1' ≤ c && c ≤ '9' && rest.all isRunChar
  | [] => false

def sixties? (cs : List Char) : Option Nat :=
  match splitOnChar ':' cs with
  | first :: part :: rest =>
    if startsRun first && (part :: rest).all isSixtieth then
      (part :: rest).foldlM (fun n p => (digits? 10 p).map fun d => 60 * n + d)
        ((digits? 10 first).getD 0)
    else none
  | _ => none

def natural? (cs : List Char) : Option Nat :=
  match cs with
  | ['0'] => some 0
  | '0' :: 'b' :: rest => digits? 2 rest
  | '0' :: 'x' :: rest => digits? 16 rest
  | '0' :: rest => digits? 8 rest
  | _ => if startsRun cs then digits? 10 cs else sixties? cs

def integer? (cs : List Char) : Option Int :=
  let (negative, body) := splitSign cs
  (natural? body).map fun n => if negative then -(n : Int) else n

def exponent? : List Char → Option Int
  | [] => some 0
  | e :: sign :: ds =>
    if (e == 'e' || e == 'E') && (sign == '-' || sign == '+') && !ds.isEmpty &&
        ds.all Char.isDigit then
      let n : Int := Json.natOf ds
      some (if sign == '-' then -n else n)
    else none
  | _ => none

def withPoint? (negative : Bool) (whole fraction : List Char) : Option Float :=
  let (places, rest) := fraction.span isRunChar
  let places := places.filter (· != '_')
  (exponent? rest).map fun e =>
    floatOfScientific negative (Json.natOf (whole.filter (· != '_') ++ places))
      (e - (places.length : Int))

def float? (cs : List Char) : Option Float :=
  let (negative, body) := splitSign cs
  let (whole, rest) := body.span isRunChar
  match whole, rest with
  | [], '.' :: rest =>
    let word := String.ofList rest
    if ["inf", "Inf", "INF"].contains word then some (if negative then -infinity else infinity)
    else if body.length < cs.length then none
    else if ["nan", "NaN", "NAN"].contains word then some notANumber
    else if (rest.head?.map Char.isDigit).getD false then withPoint? false [] rest
    else none
  | first :: _, '.' :: rest => if first.isDigit then withPoint? negative whole rest else none
  | _, _ =>
    match splitFirst? ['.'] body with
    | some (front, places) =>
      if places.all isRunChar then
        (sixties? front).bind fun n => withPoint? negative (natDigits n) places
      else none
    | none => none

def number? (least most : Nat) (cs : List Char) : Option (Nat × List Char) :=
  let (ds, rest) := cs.span Char.isDigit
  if least ≤ ds.length && ds.length ≤ most then some (Json.natOf ds, rest) else none

def isZone (cs : List Char) : Bool :=
  match cs.dropWhile fun c => c == ' ' || c == '\t' with
  | [] => true
  | ['Z'] => true
  | sign :: rest =>
    (sign == '-' || sign == '+') &&
      match number? 1 2 rest with
      | some (_, []) => true
      | some (_, ':' :: rest) => ((number? 2 2 rest).map (·.2.isEmpty)).getD false
      | _ => false

def clock? (cs : List Char) : Option Clock := do
  let cs ← match cs with
    | [] => none
    | c :: rest =>
      if c == 'T' || c == 't' then some rest
      else if c == ' ' || c == '\t' then some (rest.dropWhile fun c => c == ' ' || c == '\t')
      else none
  let (hour, cs) ← number? 1 2 cs
  let cs ← dropPrefix? [':'] cs
  let (minute, cs) ← number? 2 2 cs
  let cs ← dropPrefix? [':'] cs
  let (second, cs) ← number? 2 2 cs
  let (micro, cs) := match cs with
    | '.' :: rest => (readMicros rest, rest.dropWhile Char.isDigit)
    | _ => (0, cs)
  if isZone cs then some ⟨hour, minute, second, micro⟩ else none

def isTime (c : Clock) : Bool := c.hour < 24 && c.minute < 60 && c.second < 60

def stamp? (cs : List Char) : Option (Read Value) := do
  let (year, rest) ← number? 4 4 cs
  let rest ← dropPrefix? ['-'] rest
  let (month, rest) ← number? 1 2 rest
  let rest ← dropPrefix? ['-'] rest
  let (day, rest) ← number? 1 2 rest
  let date : Date := ⟨year, month, day⟩
  if rest.isEmpty then
    if cs.length ≠ 10 then none
    else some (if date.valid then .ok (.date date) else .error .value)
  else
    let clock ← clock? rest
    some (if date.valid && isTime clock then .ok (.moment ⟨date, clock⟩) else .error .value)

def value (cs : List Char) : Read Value :=
  let s := String.ofList cs
  if nulls.contains s then .ok .null
  else if truths.contains s then .ok (.bool true)
  else if falsehoods.contains s then .ok (.bool false)
  else if s == "=" || s == "<<" then .error .yamlValue
  else
    match float? cs, integer? cs, stamp? cs with
    | some x, _, _ => .ok (.float x)
    | _, some n, _ => .ok (.int n)
    | _, _, some v => v
    | _, _, _ => .ok (.text s)

end Scalar

end SheetTemplate.Data.Yaml
