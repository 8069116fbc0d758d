import SheetTemplate.Number.Order
import SheetTemplate.Number.Read
import SheetTemplate.Number.Shown

namespace SheetTemplate.Number

inductive Decimal where
  | nan
  | infinite (negative : Bool)
  | finite (negative : Bool) (coefficient : Nat) (exponent : Int)
  deriving DecidableEq, Repr

inductive DecimalFault where
  | divisionByZero
  | divisionUndefined
  | invalid
  deriving DecidableEq

namespace Decimal

def precision : Nat := 28

def zero : Decimal := .finite false 0 0

def ofInt (n : Int) : Decimal := .finite (n < 0) n.natAbs 0

def ofText? (s : String) : Option Decimal :=
  let (negative, body) := splitSign ((Text.strip s.toList).filter (· != '_'))
  let name := String.ofList (lowerAscii body)
  if name == "inf" || name == "infinity" then some (.infinite negative)
  else if name == "nan" || name == "snan" then some .nan
  else (readScientific? body).map fun (m, e) => .finite negative m e

def text : Decimal → String
  | nan => "NaN"
  | infinite negative => if negative then "-Infinity" else "Infinity"
  | finite negative c e =>
    let digits := natDigits c
    let left := e + digits.length
    let body :=
      if e ≤ 0 ∧ -6 < left then
        if e = 0 then digits else placePoint digits left
      else
        let mantissa := match digits with
          | [] => ['0']
          | [d] => [d]
          | d :: rest => d :: '.' :: rest
        let power := left - 1
        mantissa ++ 'E' :: (if power < 0 then '-' else '+') :: natDigits power.natAbs
    String.ofList (if negative then '-' :: body else body)

def fix (negative : Bool) (c : Nat) (e : Int) : Decimal :=
  let extra := (natDigits c).length - precision
  if extra = 0 then .finite negative c e
  else
    let r := roundDiv c (Nat.pow 10 extra)
    if (natDigits r).length ≤ precision then .finite negative r (e + extra)
    else .finite negative (r / 10) (e + extra + 1)

def toExtended : Decimal → Extended
  | nan => .nan
  | infinite negative => .infinite negative
  | finite negative c e =>
    let (num, den) := scaleTen c e
    .exact (mkRat (if negative then -(num : Int) else num) den)

def isZero : Decimal → Bool
  | finite _ c _ => c == 0
  | _ => false

def neg : Decimal → Decimal
  | nan => nan
  | infinite n => infinite (!n)
  | finite n c e => if c = 0 then fix false c e else fix (!n) c e

def abs : Decimal → Decimal
  | nan => nan
  | infinite _ => infinite false
  | finite _ c e => fix false c e

def signed (negative : Bool) (c : Nat) : Int := if negative then -(c : Int) else c

def add : Decimal → Decimal → Except DecimalFault Decimal
  | nan, _ => .ok nan
  | _, nan => .ok nan
  | infinite a, infinite b => if a = b then .ok (infinite a) else .error .invalid
  | infinite a, _ => .ok (infinite a)
  | _, infinite b => .ok (infinite b)
  | finite n c e, finite m d f =>
    let low := min e f
    let total := signed n (c * Nat.pow 10 (e - low).toNat) + signed m (d * Nat.pow 10 (f - low).toNat)
    .ok (fix (if total = 0 then n && m else total < 0) total.natAbs low)

def sub (a b : Decimal) : Except DecimalFault Decimal :=
  match b with
  | finite m d f => add a (finite (!m) d f)
  | _ => add a (neg b)

def mul : Decimal → Decimal → Except DecimalFault Decimal
  | nan, _ => .ok nan
  | _, nan => .ok nan
  | infinite a, b => if b.isZero then .error .invalid else .ok (infinite (a != isNeg b))
  | a, infinite b => if a.isZero then .error .invalid else .ok (infinite (b != isNeg a))
  | finite n c e, finite m d f => .ok (fix (n != m) (c * d) (e + f))
where
  isNeg : Decimal → Bool
    | nan => false
    | infinite n => n
    | finite n _ _ => n

def dropZeros (ideal : Int) : Nat → Nat → Int → Nat × Int
  | 0, c, e => (c, e)
  | fuel + 1, c, e =>
    if e < ideal ∧ c % 10 = 0 then dropZeros ideal fuel (c / 10) (e + 1) else (c, e)

def div : Decimal → Decimal → Except DecimalFault Decimal
  | nan, _ => .ok nan
  | _, nan => .ok nan
  | infinite _, infinite _ => .error .invalid
  | infinite a, finite m _ _ => .ok (infinite (a != m))
  | finite n _ _, infinite b => .ok (finite (n != b) 0 0)
  | finite n c e, finite m d f =>
    if d = 0 then (if c = 0 then .error .divisionUndefined else .error .divisionByZero)
    else if c = 0 then .ok (fix (n != m) 0 (e - f))
    else
      let shift : Int := (natDigits d).length - ((natDigits c).length : Int) + precision + 1
      let (num, den) := if 0 ≤ shift then (c * Nat.pow 10 shift.toNat, d)
        else (c, d * Nat.pow 10 (-shift).toNat)
      let q := num / den
      let exponent := e - f - shift
      if num % den = 0 then
        let (q, exponent) := dropZeros (e - f) (natDigits q).length q exponent
        .ok (fix (n != m) q exponent)
      else .ok (fix (n != m) (if q % 5 = 0 then q + 1 else q) exponent)

def divMod : Decimal → Decimal → Except DecimalFault (Decimal × Decimal)
  | finite n c e, finite m d f =>
    if d = 0 then .error (if c = 0 then .divisionUndefined else .divisionByZero)
    else
      let low := min e f
      let num := c * Nat.pow 10 (e - low).toNat
      let den := d * Nat.pow 10 (f - low).toNat
      if precision < (natDigits (num / den)).length then .error .invalid
      else .ok (finite (n != m) (num / den) 0, fix n (num % den) low)
  | a@(finite _ _ _), infinite _ => .ok (zero, a)
  | nan, _ => .ok (nan, nan)
  | _, nan => .ok (nan, nan)
  | infinite _, _ => .error .invalid

def floorDiv (a b : Decimal) : Except DecimalFault Decimal := (divMod a b).map (·.1)

def mod (a b : Decimal) : Except DecimalFault Decimal :=
  match divMod a b with
  | .error .divisionByZero => .error .invalid
  | r => r.map (·.2)

def pow (a : Decimal) (n : Int) : Except DecimalFault Decimal :=
  match a with
  | finite negative c e =>
    let k := n.natAbs
    let sign := negative && k % 2 == 1
    if c = 0 && n = 0 then .error .invalid
    else if c = 0 && n < 0 then .ok (infinite sign)
    else if 0 ≤ n then .ok (fix sign (Nat.pow c k) (e * k))
    else div (finite false 1 0) (finite sign (Nat.pow c k) (e * k))
  | other => .ok other

def truncate? : Decimal → Option Int
  | finite n c e =>
    let (num, den) := scaleTen c e
    some (signed n (num / den))
  | _ => none

def quantize? (d : Decimal) (exponent : Int) : Option Decimal :=
  match d with
  | finite n c e =>
    let (num, den) := scaleTen c (e - exponent)
    some (.finite n (roundDiv num den) exponent)
  | _ => none

def toFloat : Decimal → Float
  | nan => notANumber
  | infinite n => if n then Float.ofBits 0xfff0000000000000 else infinity
  | finite n c e => floatOfScientific n c e

end Decimal

end SheetTemplate.Number
