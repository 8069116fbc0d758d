import SheetTemplate.Failure
import SheetTemplate.Number.Shown
import SheetTemplate.Text.Casing
import SheetTemplate.Text.Letter

namespace SheetTemplate

open Number Text

namespace Column

def letter (n : Nat) : Char := Char.ofNat (65 + n)

def letters (n : Nat) : List Char :=
  if n < 26 then [letter n] else letters (n / 26 - 1) ++ [letter (n % 26)]
termination_by n

def letterValue? (c : Char) : Option Nat :=
  if 'A' ≤ c && c ≤ 'Z' then some (c.toNat - 64) else none

def number? (cs : List Char) : Option Nat :=
  cs.foldl (fun n c => n.bind fun n => (letterValue? c).map fun d => 26 * n + d) (some 0)

def last : Nat := 18277

def ofLetters? (cs : List Char) : Option Nat :=
  let capitals := upper cs
  if cs.isEmpty || !cs.all isLetter || 3 < capitals.length then none
  else
    match number? capitals with
    | some (n + 1) => some n
    | _ => none

def ofName (s : String) : Except Failure Nat :=
  match ofLetters? s.toList with
  | some n => .ok n
  | none => .error (.ofCause (.badColumn s))

def name (n : Int) : Except Failure String :=
  if n < 0 then
    .error (.plain (.badValue ("column index must be >= 0, got " ++ showInt n)))
  else if (last : Int) < n then .error (.library .value)
  else .ok (String.ofList (letters n.toNat))

end Column

end SheetTemplate
