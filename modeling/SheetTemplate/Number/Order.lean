import SheetTemplate.Number.Binary

namespace SheetTemplate.Number

inductive Extended where
  | nan
  | infinite (negative : Bool)
  | exact (q : Rat)
  deriving DecidableEq

namespace Extended

def ofInt (n : Int) : Extended := .exact n

def ofFloat (x : Float) : Extended :=
  match binaryParts x with
  | .nan => .nan
  | .infinite negative => .infinite negative
  | .finite negative m e =>
    let (num, den) := scaleTwo m e
    .exact (mkRat (if negative then -(num : Int) else num) den)

def isNaN : Extended → Bool
  | nan => true
  | _ => false

def eq : Extended → Extended → Bool
  | nan, _ => false
  | _, nan => false
  | infinite a, infinite b => a == b
  | exact a, exact b => a == b
  | _, _ => false

def lt : Extended → Extended → Bool
  | nan, _ => false
  | _, nan => false
  | infinite a, infinite b => a && !b
  | infinite a, exact _ => a
  | exact _, infinite b => !b
  | exact a, exact b => decide (a < b)

end Extended

end SheetTemplate.Number
