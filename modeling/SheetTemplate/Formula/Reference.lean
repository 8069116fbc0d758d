import SheetTemplate.Number.Read
import SheetTemplate.Ref.Order

/-!
The references in the text of a formula. A reference is a cell or a range, perhaps with a sheet in
front; it stands by itself, not as a part of a longer word. Between double quotes there are none.
-/

namespace SheetTemplate

open Number Text

structure FormulaRef where
  sheet? : Option (List Char)
  first : Pos
  last? : Option Pos
  deriving DecidableEq, Repr

inductive FormulaPiece where
  | char (c : Char)
  | reference (r : FormulaRef) (written : List Char)
  deriving DecidableEq, Repr

namespace FormulaPiece

def text : FormulaPiece → List Char
  | char c => [c]
  | reference _ written => written

end FormulaPiece

namespace FormulaRef

def mayFollow : Option Char → Bool
  | none => true
  | some c => !(isWord c || ['$', '.', '\'', '!', ':'].contains c)

def mayEnd : List Char → Bool
  | [] => true
  | c :: _ => !(isWord c || c == '(' || c == '!')

def dropDollar : List Char → List Char
  | '$' :: cs => cs
  | cs => cs

def cellAt? (cs : List Char) : Option (Pos × List Char) :=
  let (letters, rest) := (dropDollar cs).span SheetTitle.isAsciiLetter
  let (digits, rest) := (dropDollar rest).span isDecimal
  match Column.ofLetters? letters, readDigits? 10 digits with
  | some col, some row => if letters.length ≤ 3 then some (⟨row - 1, col⟩, rest) else none
  | _, _ => none

def quotedTitle? : List Char → Option (List Char × List Char)
  | [] => none
  | '\'' :: '\'' :: cs => (quotedTitle? cs).map fun (title, rest) => ('\'' :: title, rest)
  | '\'' :: rest => some ([], rest)
  | c :: cs => (quotedTitle? cs).map fun (title, rest) => (c :: title, rest)

def sheetAt? (cs : List Char) : Option (List Char × List Char) :=
  let found : Option (List Char × List Char) := match cs with
    | '\'' :: cs => (quotedTitle? cs).filter fun (title, _) => !title.isEmpty
    | c :: _ =>
      if SheetTitle.isPlainStart c then some (cs.span fun c => isWord c || c == '.') else none
    | [] => none
  match found with
  | some (title, '!' :: rest) => some (title, rest)
  | _ => none

def rangeAt? (sheet? : Option (List Char)) (cs : List Char) : Option (FormulaRef × List Char) := do
  let (first, rest) ← cellAt? cs
  let range? : Option (FormulaRef × List Char) := match rest with
    | ':' :: after =>
      match cellAt? after with
      | some (last, after) => if mayEnd after then some (⟨sheet?, first, some last⟩, after) else none
      | none => none
    | _ => none
  match range? with
  | some found => some found
  | none => if mayEnd rest then some (⟨sheet?, first, none⟩, rest) else none

def at? (cs : List Char) : Option (FormulaRef × List Char) :=
  let qualified := do
    let (title, rest) ← sheetAt? cs
    rangeAt? (some title) rest
  match qualified with
  | some found => some found
  | none => rangeAt? none cs

end FormulaRef

namespace Formula

def literalLength? : List Char → Option Nat
  | [] => none
  | '"' :: '"' :: cs =>
    match literalLength? cs with
    | some n => some (n + 2)
    | none => some 1
  | '"' :: _ => some 1
  | _ :: cs => (literalLength? cs).map (· + 1)

def inLiteral (skip : Nat) : List Char → List Bool
  | [] => []
  | c :: cs =>
    match skip with
    | skip + 1 => true :: inLiteral skip cs
    | 0 =>
      if c == '"' then
        match literalLength? cs with
        | some n => true :: inLiteral n cs
        | none => false :: inLiteral 0 cs
      else false :: inLiteral 0 cs

/-- The pieces of a formula after the character `prev`; `skip` characters belong to the reference
before, and `literal` tells for each character whether it belongs to a text literal. -/
def pieces (prev : Option Char) (skip : Nat) (literal : List Bool) :
    List Char → List FormulaPiece
  | [] => []
  | c :: cs =>
    match skip with
    | skip + 1 => pieces (some c) skip literal.tail cs
    | 0 =>
      let found := if FormulaRef.mayFollow prev then FormulaRef.at? (c :: cs) else none
      match found with
      | some (r, rest) =>
        let written := (c :: cs).take (cs.length + 1 - rest.length)
        -- A reference that begins in a text literal is text, up to where it ends.
        let piece : List FormulaPiece :=
          if literal.headD false then written.map .char else [.reference r written]
        piece ++ pieces (some c) (written.length - 1) literal.tail cs
      | none => .char c :: pieces (some c) 0 literal.tail cs

def split (formula : List Char) : List FormulaPiece :=
  pieces none 0 (inLiteral 0 formula) formula

end Formula

end SheetTemplate
