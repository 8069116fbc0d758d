import SheetTemplate.Expr.Monad
import SheetTemplate.Number.Arith

namespace SheetTemplate.Expr

open Number Text Value

structure Field where
  left : Bool := false
  zero : Bool := false
  plus : Bool := false
  blank : Bool := false
  alternate : Bool := false
  width : Nat := 0
  places : Option Nat := none

def readFlags (f : Field) : List Char → Field × List Char
  | '-' :: cs => readFlags { f with left := true } cs
  | '0' :: cs => readFlags { f with zero := true } cs
  | '+' :: cs => readFlags { f with plus := true } cs
  | ' ' :: cs => readFlags { f with blank := true } cs
  | '#' :: cs => readFlags { f with alternate := true } cs
  | cs => (f, cs)

def readNat (cs : List Char) : Nat × List Char :=
  let (digits, rest) := cs.span Char.isDigit
  (digits.foldl (fun n c => 10 * n + (c.toNat - 48)) 0, rest)

def Field.fill (f : Field) (sign body : List Char) : List Char :=
  let missing := f.width - (sign.length + body.length)
  if f.left then sign ++ body ++ List.replicate missing ' '
  else if f.zero then sign ++ List.replicate missing '0' ++ body
  else List.replicate missing ' ' ++ sign ++ body

def Field.sign (f : Field) (negative : Bool) : List Char :=
  if negative then ['-'] else if f.plus then ['+'] else if f.blank then [' '] else []

def pointed (n places : Nat) : List Char :=
  let digits := natDigits n
  let digits := zeros (places + 1 - digits.length) ++ digits
  let whole := digits.take (digits.length - places)
  if places = 0 then whole else whole ++ '.' :: digits.drop (digits.length - places)

def fixedBody (m : Nat) (e : Int) (places : Nat) : List Char :=
  let (num, den) := scaleTwo m e
  pointed (roundDiv (num * Nat.pow 10 places) den) places

def roundedDigits (m : Nat) (e : Int) (count : Nat) : List Char × Int :=
  let (num, den) := scaleTwo m e
  let rec position (p : Int) : Nat → Int
    | 0 => p
    | fuel + 1 =>
      let (tn, td) := scaleTen 1 p
      if num * td < den * tn then
        let (un, ud) := scaleTen 1 (p - 1)
        if num * ud < den * un then position (p - 1) fuel else p
      else position (p + 1) fuel
  let p := position (((num.log2 : Int) - den.log2) * 30103 / 100000 + 1) 8
  let (gn, gd) := scaleTen 1 (p - count)
  let digits := natDigits (roundDiv (num * gd) (den * gn))
  if digits.length > count then (digits.take count, p + 1) else (digits, p)

def exponentBody (m : Nat) (e : Int) (places : Nat) : List Char :=
  if m = 0 then
    (if places = 0 then ['0'] else '0' :: '.' :: zeros places) ++ ['e', '+', '0', '0']
  else
    let (digits, p) := roundedDigits m e (places + 1)
    let mantissa := match digits with
      | d :: rest => if rest.isEmpty then [d] else d :: '.' :: rest
      | [] => []
    mantissa ++ showExponent 'e' (p - 1)

def dropTrailingZeros (cs : List Char) : List Char :=
  if cs.contains '.' then trimRight (· == '.') (trimRight (· == '0') cs) else cs

def generalBody (m : Nat) (e : Int) (places : Nat) : List Char :=
  let count := if places = 0 then 1 else places
  if m = 0 then ['0']
  else
    let (digits, p) := roundedDigits m e count
    if -4 < p && p ≤ count then dropTrailingZeros (placePoint digits p)
    else
      let mantissa := match digits with
        | d :: rest => if rest.isEmpty then [d] else dropTrailingZeros (d :: '.' :: rest)
        | [] => []
      mantissa ++ showExponent 'e' (p - 1)

def floatField (f : Field) (kind : Char) (x : Float) : List Char :=
  match binaryParts x with
  | .nan => { f with zero := false }.fill (f.sign false) "nan".toList
  | .infinite n => { f with zero := false }.fill (f.sign n) "inf".toList
  | .finite n m e =>
    let places := f.places.getD 6
    let body :=
      if kind == 'f' || kind == 'F' then fixedBody m e places
      else if kind == 'e' || kind == 'E' then exponentBody m e places
      else generalBody m e places
    let body := if kind.isUpper then body.map Char.toUpper else body
    f.fill (f.sign n) body

def baseDigits (base : Nat) : Nat → Nat → List Char
  | 0, _ => []
  | fuel + 1, n =>
    if n < base then [hexDigit n] else baseDigits base fuel (n / base) ++ [hexDigit (n % base)]

def toFloat? (v : Value) : Option Float :=
  match v with
  | .bool b => some (if b then 1 else 0)
  | .int n => (floatOfInt? n).toOption
  | .float x => some x
  | .decimal d => some d.toFloat
  | .scalar (.int64 n) => some (floatOfInt n)
  | .scalar (.float64 x) => some x
  | .scalar (.float32 x) => some x
  | .scalar (.bool b) => some (if b then 1 else 0)
  | _ => none

def toWhole? (v : Value) : Option Int :=
  match v with
  | .bool b => some (if b then 1 else 0)
  | .int n => some n
  | .float x => truncate? x
  | .decimal d => d.truncate?
  | .scalar (.int64 n) => some n
  | .scalar (.float64 x) => truncate? x
  | .scalar (.float32 x) => truncate? x
  | .scalar (.bool b) => some (if b then 1 else 0)
  | _ => none

def wholeNumber? (v : Value) : Option Int :=
  match v with
  | .bool b => some (if b then 1 else 0)
  | .int n => some n
  | .scalar (.int64 n) => some n
  | _ => none

def Field.lengthen (f : Field) (digits : List Char) : List Char :=
  zeros (f.places.getD 0 - digits.length) ++ digits

def fieldText (f : Field) (kind : Char) (v : Value) : Except Fault (List Char) :=
  let cut (s : String) : List Char := match f.places with
    | some k => s.toList.take k
    | none => s.toList
  let textual (s : String) : List Char := { f with zero := false }.fill [] (cut s)
  if kind == 's' then .ok (textual v.shown)
  else if kind == 'r' || kind == 'a' then .ok (textual v.inner)
  else if kind == 'd' || kind == 'i' || kind == 'u' then
    match toWhole? v with
    | some n => .ok (f.fill (f.sign (n < 0)) (f.lengthen (natDigits n.natAbs)))
    | none =>
      .error (.badType ("%" ++ String.ofList [kind] ++ " format: a real number is required, not "
        ++ v.typeName))
  else if kind == 'x' || kind == 'X' || kind == 'o' then
    match wholeNumber? v with
    | some n =>
      let base := if kind == 'o' then 8 else 16
      let digits := baseDigits base (n.natAbs.log2 + 1) n.natAbs
      let digits := if kind == 'X' then digits.map Char.toUpper else digits
      let mark := if f.alternate then ['0', kind] else []
      .ok (f.fill (f.sign (n < 0) ++ mark) (f.lengthen digits))
    | none =>
      .error (.badType ("%" ++ String.ofList [kind] ++ " format: an integer is required, not "
        ++ v.typeName))
  else if kind == 'c' then
    match v.text?.map String.toList, wholeNumber? v with
    | some [c], _ => .ok (textual (String.singleton c))
    | none, some n =>
      if n < 0 || 0x110000 ≤ n then
        .error ⟨.overflow, "%c arg not in range(0x110000)"⟩
      else .ok (textual (String.singleton (Char.ofNat n.toNat)))
    | _, _ => .error (.badType "%c requires int or char")
  else
    match toFloat? v with
    | some x => .ok (floatField f kind x)
    | none => .error (.badType ("must be real number, not " ++ v.typeName))

def fieldKinds : List Char :=
  ['s', 'r', 'a', 'c', 'd', 'i', 'u', 'x', 'X', 'o', 'f', 'F', 'e', 'E', 'g', 'G']

structure Filling where
  values : List Value
  used : Bool
  lenient : Bool

def lookupEntry (entries : List (Value × Value)) (key : String) : Option Value :=
  (entries.find? fun (k, _) => k.eq (.text key)).map (·.2)

def fillFrom (mapping : Option (List (Value × Value))) (total : Nat) :
    Nat → List Value → List Char → Except Fault (List Char × List Value)
  | 0, values, _ => .ok ([], values)
  | _, values, [] => .ok ([], values)
  | fuel + 1, values, '%' :: cs =>
    let (key, cs) := match cs with
      | '(' :: more =>
        let (word, rest) := more.span (· != ')')
        (some (String.ofList word), rest.drop 1)
      | _ => (none, cs)
    let (f, cs) := readFlags {} cs
    let (width, cs) := readNat cs
    let (places, cs) := match cs with
      | '.' :: more =>
        let (n, rest) := readNat more
        (some n, rest)
      | _ => (none, cs)
    let f := { f with width := width, places := places }
    match cs with
    | [] => .error (.badValue "incomplete format")
    | '%' :: cs =>
      (fillFrom mapping total fuel values cs).map fun (out, r) => ('%' :: out, r)
    | kind :: rest =>
      if !fieldKinds.contains kind then
        .error (.badValue ("unsupported format character '" ++ String.ofList [kind] ++ "' (0x" ++
          String.ofList (baseDigits 16 8 kind.toNat) ++ ") at index " ++ toString (total - rest.length - 1)))
      else
        let next : Except Fault (Value × List Value) :=
          match key, mapping with
          | some k, some entries =>
            match lookupEntry entries k with
            | some v => .ok (v, values)
            | none => .error ⟨.key, quoted k⟩
          | some _, none => .error (.badType "format requires a mapping")
          | none, _ =>
            match values with
            | v :: more => .ok (v, more)
            | [] => .error (.badType "not enough arguments for format string")
        match next with
        | .error e => .error e
        | .ok (v, values) =>
          match fieldText f kind v with
          | .error e => .error e
          | .ok out =>
            (fillFrom mapping total fuel values rest).map fun (more, r) => (out ++ more, r)
  | fuel + 1, values, c :: cs =>
    (fillFrom mapping total fuel values cs).map fun (out, r) => (c :: out, r)

def fillPattern (pattern : String) (v : Value) : Except Fault Value :=
  let cs := pattern.toList
  let (mapping, values, lenient) := match v with
    | .tuple items => (none, items, false)
    | .dict entries => (some entries, [v], true)
    | .list _ | .bytes _ | .range _ _ _ | .array _ | .series _ => (none, [v], true)
    | .missing _ => (none, [v], true)
    | _ => (none, [v], false)
  match fillFrom mapping cs.length cs.length values cs with
  | .error e => .error e
  | .ok (out, rest) =>
    if rest.isEmpty || lenient then .ok (.text (String.ofList out))
    else .error (.badType "not all arguments converted during string formatting")

end SheetTemplate.Expr
