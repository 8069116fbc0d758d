import SheetTemplate.Number.Shortest

namespace SheetTemplate.Number

def natDigits (n : Nat) : List Char := (toString n).toList

def showInt (n : Int) : String := if n < 0 then "-" ++ toString n.natAbs else toString n.natAbs

def zeros (n : Nat) : List Char := List.replicate n '0'

def placePoint (digits : List Char) (position : Int) : List Char :=
  if position ≤ 0 then '0' :: '.' :: zeros (-position).toNat ++ digits
  else
    let p := position.toNat
    let whole := digits.take p ++ zeros (p - digits.length)
    let rest := digits.drop p
    whole ++ '.' :: (if rest.isEmpty then ['0'] else rest)

def showExponent (mark : Char) (n : Int) : List Char :=
  let digits := natDigits n.natAbs
  mark :: (if n < 0 then '-' else '+') ::
    (if digits.length < 2 then '0' :: digits else digits)

def showDigits (digits : List Char) (position : Int) : List Char :=
  if -4 < position && position ≤ 16 then placePoint digits position
  else
    match digits with
    | [] => ['0']
    | [d] => d :: showExponent 'e' (position - 1)
    | d :: rest => d :: '.' :: rest ++ showExponent 'e' (position - 1)

def showFloat (x : Float) : String :=
  match binaryParts x with
  | .nan => "nan"
  | .infinite negative => if negative then "-inf" else "inf"
  | .finite negative m e =>
    let body :=
      if m = 0 then ['0', '.', '0']
      else
        let (d, k) := shortestDigits m e
        let digits := natDigits d
        showDigits digits (k + digits.length)
    String.ofList (if negative then '-' :: body else body)

end SheetTemplate.Number
