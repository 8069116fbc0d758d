import SheetTemplate.Expr.Function

namespace SheetTemplate.Data

open Number

namespace Json

def isSpace (c : Char) : Bool := c == ' ' || c == '\t' || c == '\n' || c == '\r'

def skip (cs : List Char) : List Char := cs.dropWhile isSpace

def hexValue? (c : Char) : Option Nat :=
  if '0' ≤ c && c ≤ '9' then some (c.toNat - 48)
  else if 'a' ≤ c && c ≤ 'f' then some (c.toNat - 87)
  else if 'A' ≤ c && c ≤ 'F' then some (c.toNat - 55)
  else none

def hexFour? : List Char → Option (Nat × List Char)
  | a :: b :: c :: d :: rest => do
    let a ← hexValue? a
    let b ← hexValue? b
    let c ← hexValue? c
    let d ← hexValue? d
    some (((a * 16 + b) * 16 + c) * 16 + d, rest)
  | _ => none

def isHigh (n : Nat) : Bool := 0xd800 ≤ n && n < 0xdc00

def isLow (n : Nat) : Bool := 0xdc00 ≤ n && n < 0xe000

def escapes : List (Char × Char) :=
  [('"', '"'), ('\\', '\\'), ('/', '/'), ('b', '\x08'), ('f', '\x0c'), ('n', '\n'), ('r', '\r'),
    ('t', '\t')]

def readUnicode? (cs : List Char) : Option (Char × List Char) := do
  let (n, rest) ← hexFour? cs
  if isHigh n then
    match rest with
    | '\\' :: 'u' :: more =>
      match hexFour? more with
      | some (m, rest') =>
        if isLow m then some (Char.ofNat (0x10000 + (n - 0xd800) * 1024 + (m - 0xdc00)), rest')
        else some ('\ufffd', rest)
      | none => none
    | _ => some ('\ufffd', rest)
  else if isLow n then some ('\ufffd', rest)
  else some (Char.ofNat n, rest)

def readText? : Nat → List Char → List Char → Option (String × List Char)
  | 0, _, _ => none
  | _, _, [] => none
  | _, read, '"' :: cs => some (String.ofList read.reverse, cs)
  | fuel + 1, read, '\\' :: 'u' :: cs => do
    let (c, rest) ← readUnicode? cs
    readText? fuel (c :: read) rest
  | fuel + 1, read, '\\' :: k :: cs => do
    let c ← List.lookup k escapes
    readText? fuel (c :: read) cs
  | fuel + 1, read, c :: cs => if c.toNat < 32 then none else readText? fuel (c :: read) cs

def digits (cs : List Char) : List Char × List Char := cs.span Char.isDigit

def natOf (cs : List Char) : Nat := cs.foldl (fun n c => 10 * n + (c.toNat - 48)) 0

def readFraction (cs : List Char) : Option (List Char) × List Char :=
  match cs with
  | '.' :: rest =>
    match digits rest with
    | ([], _) => (none, cs)
    | (ds, rest) => (some ds, rest)
  | _ => (none, cs)

def readExponent (cs : List Char) : Option Int × List Char :=
  match cs with
  | e :: rest =>
    if e == 'e' || e == 'E' then
      let (negative, ds) := splitSign rest
      match digits ds with
      | ([], _) => (none, cs)
      | (ds, rest) => (some (if negative then -(natOf ds : Int) else natOf ds), rest)
    else (none, cs)
  | [] => (none, cs)

def readNumber? (cs : List Char) : Option (Value × List Char) :=
  let (negative, body) := match cs with
    | '-' :: rest => (true, rest)
    | _ => (false, cs)
  let whole? : Option (List Char × List Char) := match body with
    | '0' :: rest => some (['0'], rest)
    | _ =>
      match digits body with
      | ([], _) => none
      | found => some found
  whole?.map fun (ds, rest) =>
    let (fraction, rest) := readFraction rest
    let (exponent, rest) := readExponent rest
    match fraction, exponent with
    | none, none => (.int (if negative then -(natOf ds : Int) else natOf ds), rest)
    | _, _ =>
      let places := fraction.getD []
      (.float (floatOfScientific negative (natOf (ds ++ places))
        (exponent.getD 0 - (places.length : Int))), rest)

def words : List (List Char × Value) :=
  [("null".toList, .null), ("true".toList, .bool true), ("false".toList, .bool false),
    ("NaN".toList, .float notANumber), ("Infinity".toList, .float infinity),
    ("-Infinity".toList, .float (-infinity))]

def readWord? (cs : List Char) : List (List Char × Value) → Option (Value × List Char)
  | [] => none
  | (word, v) :: more =>
    match Text.dropPrefix? word cs with
    | some rest => some (v, rest)
    | none => readWord? cs more

mutual

def readValue? : Nat → List Char → Option (Value × List Char)
  | 0, _ => none
  | fuel + 1, cs =>
    match cs with
    | '"' :: rest => (readText? (rest.length + 1) [] rest).map fun (s, rest) => (.text s, rest)
    | '[' :: rest =>
      match skip rest with
      | ']' :: rest => some (.list [], rest)
      | rest => (readItems? fuel rest).map fun (items, rest) => (.list items, rest)
    | '\x7b' :: rest =>
      match skip rest with
      | '\x7d' :: rest => some (.dict [], rest)
      | rest => (readMembers? fuel [] rest).map fun (members, rest) => (.dict members, rest)
    | _ =>
      match readWord? cs words with
      | some found => some found
      | none => readNumber? cs

def readItems? : Nat → List Char → Option (List Value × List Char)
  | 0, _ => none
  | fuel + 1, cs => do
    let (v, rest) ← readValue? fuel (skip cs)
    match skip rest with
    | ',' :: rest =>
      let (items, rest) ← readItems? fuel rest
      some (v :: items, rest)
    | ']' :: rest => some ([v], rest)
    | _ => none

def readMembers? : Nat → List (Value × Value) → List Char →
    Option (List (Value × Value) × List Char)
  | 0, _, _ => none
  | fuel + 1, members, cs =>
    match skip cs with
    | '"' :: rest => do
      let (key, rest) ← readText? (rest.length + 1) [] rest
      match skip rest with
      | ':' :: rest =>
        let (v, rest) ← readValue? fuel (skip rest)
        let members := Expr.putEntry members (.text key) v
        match skip rest with
        | ',' :: rest => readMembers? fuel members rest
        | '\x7d' :: rest => some (members, rest)
        | _ => none
      | _ => none
    | _ => none

end

end Json

def readJson? (s : String) : Option Value := do
  let cs := s.toList
  let (v, rest) ← Json.readValue? (2 * cs.length + 2) (Json.skip cs)
  if (Json.skip rest).isEmpty then some v else none

end SheetTemplate.Data
