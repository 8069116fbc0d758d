import SheetTemplate.Number.Binary
import SheetTemplate.Text.Digit
import SheetTemplate.Text.Scan

namespace SheetTemplate.Number

open Text

def baseDigit? (c : Char) : Option Nat :=
  match digitValue? c with
  | some d => some d
  | none =>
    if 'a' ≤ c && c ≤ 'z' then some (c.toNat - 87)
    else if 'A' ≤ c && c ≤ 'Z' then some (c.toNat - 55)
    else none

def readDigits? (base : Nat) : List Char → Option Nat :=
  start 0
where
  start (n : Nat) : List Char → Option Nat
    | [] => none
    | c :: cs =>
      match baseDigit? c with
      | some d => if d < base then after (n * base + d) cs else none
      | none => none
  after (n : Nat) : List Char → Option Nat
    | [] => some n
    | '_' :: cs => start n cs
    | c :: cs =>
      match baseDigit? c with
      | some d => if d < base then after (n * base + d) cs else none
      | none => none

def splitSign : List Char → Bool × List Char
  | '-' :: cs => (true, cs)
  | '+' :: cs => (false, cs)
  | cs => (false, cs)

def basePrefix? : List Char → Option (Nat × List Char)
  | '0' :: c :: cs =>
    let rest := match cs with
      | '_' :: more => more
      | _ => cs
    if c == 'x' || c == 'X' then some (16, rest)
    else if c == 'o' || c == 'O' then some (8, rest)
    else if c == 'b' || c == 'B' then some (2, rest)
    else none
  | _ => none

def readInt? (base : Nat) (cs : List Char) : Option Int :=
  let (negative, body) := splitSign (strip cs)
  let value : Option Nat :=
    match basePrefix? body with
    | some (b, rest) =>
      if b = base || base = 0 then readDigits? b rest else readDigits? base body
    | none =>
      if base = 0 then
        match body with
        | '0' :: _ => (readDigits? 10 body).bind fun n => if n = 0 then some 0 else none
        | _ => readDigits? 10 body
      else readDigits? base body
  value.map fun n => if negative then -(n : Int) else n

def digitRun? (cs : List Char) : Option (Nat × Nat) :=
  (readDigits? 10 cs).map fun n => (n, (cs.filter (· != '_')).length)

def isRunChar (c : Char) : Bool := isDecimal c || c == '_'

def readScientific? (cs : List Char) : Option (Nat × Int) :=
  let (whole, rest) := cs.span isRunChar
  let (fraction, rest) := match rest with
    | '.' :: more =>
      let (f, r) := more.span isRunChar
      (some f, r)
    | _ => (none, rest)
  let exponent : Option Int := match rest with
    | [] => some 0
    | c :: more =>
      if c == 'e' || c == 'E' then
        let (negative, digits) := splitSign more
        (readDigits? 10 digits).map fun n => if negative then -(n : Int) else n
      else none
  exponent.bind fun e =>
    match whole, fraction with
    | [], none => none
    | [], some f => (digitRun? f).map fun (n, k) => (n, e - k)
    | w, none => (digitRun? w).map fun (n, _) => (n, e)
    | w, some [] => (digitRun? w).map fun (n, _) => (n, e)
    | w, some f =>
      (digitRun? w).bind fun (n, _) => (digitRun? f).map fun (m, k) => (n * Nat.pow 10 k + m, e - k)

def lowerAscii (cs : List Char) : List Char := cs.map Char.toLower

def readFloat? (cs : List Char) : Option Float :=
  let (negative, body) := splitSign (strip cs)
  let name := String.ofList (lowerAscii body)
  if name == "inf" || name == "infinity" then
    some (if negative then Float.ofBits 0xfff0000000000000 else infinity)
  else if name == "nan" then some notANumber
  else (readScientific? body).map fun (m, e) => floatOfScientific negative m e

end SheetTemplate.Number
