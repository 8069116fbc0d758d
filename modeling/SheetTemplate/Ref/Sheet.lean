import SheetTemplate.Text.Casing
import SheetTemplate.Text.Scan
import SheetTemplate.Number.Shown

/-!
Sheet titles: how a reference quotes them, and how a name becomes a title that is fit and free.
-/

namespace SheetTemplate

open Number Text

namespace SheetTitle

def isAsciiLetter (c : Char) : Bool := ('a' ≤ c && c ≤ 'z') || ('A' ≤ c && c ≤ 'Z')

def isPlainStart (c : Char) : Bool := isAsciiLetter c || c == '_'

def isPlainRest (c : Char) : Bool := isPlainStart c || c.isDigit || c == '.'

def looksLikeCell (cs : List Char) : Bool :=
  let (front, rest) := cs.span isAsciiLetter
  1 ≤ front.length && front.length ≤ 3 && !rest.isEmpty && rest.all Char.isDigit

def isPlain (cs : List Char) : Bool :=
  match cs with
  | [] => false
  | c :: rest => isPlainStart c && rest.all isPlainRest && !looksLikeCell cs

def doubleQuotes (cs : List Char) : List Char :=
  cs.flatMap fun c => if c == '\'' then ['\'', '\''] else [c]

def inReference (cs : List Char) : List Char :=
  if isPlain cs then cs else '\'' :: doubleQuotes cs ++ ['\'']

def quoteIfNeeded (title : String) : String := String.ofList (inReference title.toList)

def longest : Nat := 31

def isForbidden (c : Char) : Bool := ['/', '\\', ':', '*', '?', '[', ']'].contains c

def cleaned (cs : List Char) : List Char :=
  let fit := trim (· == '\'') (cs.map fun c => if isForbidden c then '_' else c)
  (if fit.isEmpty then "Sheet".toList else fit).take longest

def numbered (base : List Char) (n : Nat) : List Char :=
  if n = 1 then base
  else
    let ending := '_' :: natDigits n
    base.take (longest - ending.length) ++ ending

def firstFree (base : List Char) (taken : List (List Char)) (n : Nat) : Nat → List Char
  | 0 => numbered base n
  | fuel + 1 =>
    if taken.contains (lower (numbered base n)) then firstFree base taken (n + 1) fuel
    else numbered base n

/-- A title for a name that none of the existing titles has. -/
def safe (name : String) (existing : List String) : String :=
  let taken := existing.map fun s => lower s.toList
  String.ofList (firstFree (cleaned name.toList) taken 1 (taken.length + 1))

end SheetTitle

end SheetTemplate
