namespace SheetTemplate.Text

def splitOnChar (sep : Char) : List Char → List (List Char)
  | [] => [[]]
  | c :: rest =>
    if c == sep then [] :: splitOnChar sep rest
    else
      match splitOnChar sep rest with
      | [] => [[c]]
      | part :: parts => (c :: part) :: parts

def hexValue (c : Char) : Nat :=
  if c.isDigit then c.toNat - 48
  else if 'a' ≤ c && c ≤ 'f' then c.toNat - 87
  else if 'A' ≤ c && c ≤ 'F' then c.toNat - 55
  else 0

def readHex (cs : List Char) : Nat := cs.foldl (fun n c => 16 * n + hexValue c) 0

def entries (table : String) : List (List Char) :=
  (splitOnChar ' ' (table.toList.map fun c => if c == '\n' then ' ' else c)).filter fun entry =>
    !entry.isEmpty

abbrev Ranges := List (Nat × Nat)

namespace Ranges

def ofText (s : String) : Ranges :=
  (entries s).map fun part =>
    let (lo, hi) := part.span (· != '-')
    (readHex lo, if hi.isEmpty then readHex lo else readHex (hi.drop 1))

def contains (ranges : Ranges) (c : Char) : Bool :=
  ranges.any fun (lo, hi) => lo ≤ c.toNat && c.toNat ≤ hi

end Ranges

end SheetTemplate.Text
