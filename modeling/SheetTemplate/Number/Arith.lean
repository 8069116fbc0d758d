import SheetTemplate.Fault
import SheetTemplate.Number.Order

namespace SheetTemplate.Number

def zeroFault (text : String) : Fault := ⟨.zeroDivision, text⟩

def largest : Nat := Nat.pow 2 1024 - Nat.pow 2 970

def floatOfInt? (n : Int) : Except Fault Float :=
  if largest ≤ n.natAbs then .error ⟨.overflow, "int too large to convert to float"⟩
  else .ok (floatOfInt n)

def divInt (a b : Int) : Except Fault Float :=
  if b = 0 then .error (zeroFault "division by zero")
  else
    let x := floatOfRatio ((a < 0) != (b < 0)) a.natAbs b.natAbs
    if isInfinite x then .error ⟨.overflow, "integer division result too large for a float"⟩
    else .ok x

def floorDivInt (a b : Int) : Except Fault Int :=
  if b = 0 then .error (zeroFault "integer division or modulo by zero") else .ok (Int.fdiv a b)

def modInt (a b : Int) : Except Fault Int :=
  if b = 0 then .error (zeroFault "integer modulo by zero") else .ok (Int.fmod a b)

def divFloat (x y : Float) : Except Fault Float :=
  if y == 0 then .error (zeroFault "float division by zero") else .ok (x / y)

def remainder (x y : Float) : Float :=
  match binaryParts x, binaryParts y with
  | .finite n m e, .finite _ k f =>
    let low := min e f
    let r := (m * Nat.pow 2 (e - low).toNat) % (k * Nat.pow 2 (f - low).toNat)
    let (num, den) := scaleTwo r low
    floatOfRatio n num den
  | .finite _ _ _, .infinite _ => x
  | _, _ => notANumber

def withSign (negative : Bool) (x : Float) : Float := if isNegative x == negative then x else -x

def divModFloat (x y : Float) : Float × Float :=
  let r := remainder x y
  let (r, q) :=
    if r == 0 then (withSign (isNegative y) 0, (x - r) / y)
    else if (y < 0) != (r < 0) then (r + y, (x - r) / y - 1)
    else (r, (x - r) / y)
  let q :=
    if q == 0 then withSign (isNegative (x / y)) 0
    else
      let f := q.floor
      if 0.5 < q - f then f + 1 else f
  (q, r)

def floorDivFloat (x y : Float) : Except Fault Float :=
  if y == 0 then .error (zeroFault "float floor division by zero") else .ok (divModFloat x y).1

def modFloat (x y : Float) : Except Fault Float :=
  if y == 0 then .error (zeroFault "float modulo") else .ok (divModFloat x y).2

def powFloat (x y : Float) : Except Fault Float :=
  if x == 0 && y < 0 then .error (zeroFault "0.0 cannot be raised to a negative power")
  else
    let r := x.pow y
    if isInfinite r && !isInfinite x && !isInfinite y then
      .error ⟨.overflow, "(34, 'Numerical result out of range')"⟩
    else .ok r

def roundPlaces (x : Float) (places : Int) : Float :=
  match binaryParts x with
  | .finite negative m e =>
    if 323 < places then x
    else if places < -308 then withSign negative 0
    else
      let (num, den) := scaleTwo m e
      let (p, q) := scaleTen 1 places
      floatOfScientific negative (roundDiv (num * p) (den * q)) (-places)
  | _ => x

def roundTens (n : Int) (places : Nat) : Int :=
  let unit := Nat.pow 10 places
  let r : Int := (roundDiv n.natAbs unit * unit : Nat)
  if n < 0 then -r else r

end SheetTemplate.Number
