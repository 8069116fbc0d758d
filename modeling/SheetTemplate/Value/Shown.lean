import SheetTemplate.Text.Quoted
import SheetTemplate.Value.Basic

/-!
The text of a value: plain at the top, and in a form that can be told apart within containers.
-/

namespace SheetTemplate

open Number Text

def Number.showSingle (x : Float) : String :=
  match binaryParts x with
  | .nan => "nan"
  | .infinite negative => if negative then "-inf" else "inf"
  | .finite negative m e =>
    let drop : Nat := 29
    let single := m / Nat.pow 2 drop
    let body :=
      if m = 0 then ['0', '.', '0']
      else
        let i := roundingInterval single (e + drop) 23 (-149)
        let (d, k) := i.digits (decimalPosition i.value i.den) 1 17
        let digits := natDigits d
        showDigits digits (k + digits.length)
    String.ofList (if negative then '-' :: body else body)

namespace Value

def showBool (b : Bool) : String := if b then "True" else "False"

def showRange (start stop step : Int) : String :=
  let front := "range(" ++ showInt start ++ ", " ++ showInt stop
  if step = 1 then front ++ ")" else front ++ ", " ++ showInt step ++ ")"

def Scalar.shown : Scalar → String
  | .int64 n => showInt n
  | .float64 x => showFloat x
  | .float32 x => showSingle x
  | .bool b => showBool b
  | .text s => s
  | .noTime => "NaT"

def Scalar.inner : Scalar → String
  | .int64 n => "np.int64(" ++ showInt n ++ ")"
  | .float64 x => "np.float64(" ++ showFloat x ++ ")"
  | .float32 x => "np.float32(" ++ showSingle x ++ ")"
  | .bool b => "np." ++ showBool b ++ "_"
  | .text s => "np.str_(" ++ quoted s ++ ")"
  | .noTime => "np.datetime64('NaT')"

def numbersText (name : String) (parts : List Nat) : String :=
  name ++ "(" ++ joinText ", " (parts.map toString) ++ ")"

def durationParts (micros : Int) : String :=
  let days := Int.fdiv micros microsPerDay
  let rest := (Int.fmod micros microsPerDay).toNat
  let fields := [("days", days), ("seconds", (rest / 1000000 : Nat)), ("microseconds", (rest % 1000000 : Nat))]
  let shown := (fields.filter fun f => f.2 ≠ 0).map fun f => f.1 ++ "=" ++ showInt f.2
  "datetime.timedelta(" ++ (if shown.isEmpty then "0" else joinText ", " shown) ++ ")"

mutual

def inner : Value → String
  | null => "None"
  | missing _ => "Undefined"
  | bool b => showBool b
  | int n => showInt n
  | float x => showFloat x
  | decimal d => "Decimal('" ++ d.text ++ "')"
  | text s => quoted s
  | bytes b => quotedBytes b
  | picture _ => "b''"
  | date d => numbersText "datetime.date" [d.year, d.month, d.day]
  | moment m =>
    numbersText "datetime.datetime" ([m.date.year, m.date.month, m.date.day] ++ m.clock.parts)
  | clock c => numbersText "datetime.time" c.parts
  | duration n => durationParts n
  | list items => "[" ++ joinText ", " (innerAll items) ++ "]"
  | tuple items =>
    match innerAll items with
    | [one] => "(" ++ one ++ ",)"
    | shown => "(" ++ joinText ", " shown ++ ")"
  | set items =>
    match innerAll items with
    | [] => "set()"
    | shown => "\x7b" ++ joinText ", " shown ++ "\x7d"
  | dict entries => "\x7b" ++ joinText ", " (innerEntries entries) ++ "\x7d"
  | record fields => "<Obj " ++ joinText "," (fields.map (·.1)) ++ ">"
  | group item members =>
    "GroupData(item=" ++ inner item ++ ", items=[" ++ joinText ", " (innerAll members) ++ "])"
  | link url display =>
    "HyperlinkValue(url=" ++ quoted url ++ ", display=" ++ quoted display ++ ")"
  | scalar s => Scalar.inner s
  | array items => "array([" ++ joinText ", " (innerAll items) ++ "])"
  | series items => "[" ++ joinText ", " (innerAll items) ++ "]"
  | frame rows => "[" ++ joinText ", " (innerAll rows) ++ "]"
  | timestamp m => "Timestamp('" ++ m.text ++ "')"
  | noTime => "NaT"
  | range start stop step => showRange start stop step
  | builtin f => "<function " ++ reprStr f ++ ">"
  | hosted name => "<function " ++ name ++ ">"
  | method owner name => "<method " ++ name ++ " of " ++ owner.className ++ ">"
  | view .keys entries => "dict_keys([" ++ joinText ", " (innerKeys entries) ++ "])"
  | view .values entries => "dict_values([" ++ joinText ", " (innerValues entries) ++ "])"
  | view .items entries => "dict_items([" ++ joinText ", " (innerPairs entries) ++ "])"
  | stream _ _ => "<iterator>"
  | updater _ => "<Updater>"
  | template => "<TemplateReference None>"
  | arrayFormula _ => "<ArrayFormula>"

def innerAll : List Value → List String
  | [] => []
  | v :: rest => inner v :: innerAll rest

def innerEntries : List (Value × Value) → List String
  | [] => []
  | (k, v) :: rest => (inner k ++ ": " ++ inner v) :: innerEntries rest

def innerKeys : List (Value × Value) → List String
  | [] => []
  | (k, _) :: rest => inner k :: innerKeys rest

def innerValues : List (Value × Value) → List String
  | [] => []
  | (_, v) :: rest => inner v :: innerValues rest

def innerPairs : List (Value × Value) → List String
  | [] => []
  | (k, v) :: rest => ("(" ++ inner k ++ ", " ++ inner v ++ ")") :: innerPairs rest

end

def shown : Value → String
  | text s => s
  | missing _ => ""
  | decimal d => d.text
  | date d => d.iso
  | moment m => m.text
  | clock c => c.iso
  | duration n => durationText n
  | link url display => if display.isEmpty then url else display
  | scalar s => Scalar.shown s
  | timestamp m => m.text
  | v => inner v

end Value

end SheetTemplate
