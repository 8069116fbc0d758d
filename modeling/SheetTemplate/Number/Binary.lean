namespace SheetTemplate.Number

inductive BinaryParts where
  | nan
  | infinite (negative : Bool)
  | finite (negative : Bool) (mantissa : Nat) (exponent : Int)
  deriving Repr

def binaryParts (x : Float) : BinaryParts :=
  let bits := x.toBits.toNat
  let negative := Nat.pow 2 63 ≤ bits
  let field : Nat := bits / Nat.pow 2 52 % Nat.pow 2 11
  let fraction : Nat := bits % Nat.pow 2 52
  if field = 2047 then (if fraction = 0 then .infinite negative else .nan)
  else if field = 0 then .finite negative fraction (-1074)
  else .finite negative (Nat.pow 2 52 + fraction) ((field : Int) - 1075)

def roundDiv (num den : Nat) : Nat :=
  let q := num / den
  let r := num % den
  if 2 * r < den then q
  else if den < 2 * r then q + 1
  else if q % 2 = 0 then q else q + 1

def scaleTwo (m : Nat) (e : Int) : Nat × Nat :=
  if 0 ≤ e then (m * Nat.pow 2 e.toNat, 1) else (m, Nat.pow 2 (-e).toNat)

def scaleTen (m : Nat) (e : Int) : Nat × Nat :=
  if 0 ≤ e then (m * Nat.pow 10 e.toNat, 1) else (m, Nat.pow 10 (-e).toNat)

def floatOfRatio (negative : Bool) (num den : Nat) : Float :=
  let signBit := if negative then Nat.pow 2 63 else 0
  if num = 0 then Float.ofBits (UInt64.ofNat signBit)
  else
    let estimate : Int := (num.log2 : Int) - den.log2
    let (p, q) := scaleTwo 1 estimate
    let top := if num * q < den * p then estimate - 1 else estimate
    let unit := max (top - 52) (-1074)
    let (un, ud) := scaleTwo 1 unit
    let m := roundDiv (num * ud) (den * un)
    let bits := if m < Nat.pow 2 52 then m
      else (unit + 1075).toNat * Nat.pow 2 52 + (m - Nat.pow 2 52)
    Float.ofBits (UInt64.ofNat (signBit + min bits (2047 * Nat.pow 2 52)))

def floatOfInt (n : Int) : Float := floatOfRatio (n < 0) n.natAbs 1

def floatOfScientific (negative : Bool) (m : Nat) (e : Int) : Float :=
  let size : Int := (m.log2 : Int) * 3 / 10 + e
  if 400 < size then floatOfRatio negative (Nat.pow 2 1100) 1
  else if size < -400 then floatOfRatio negative 0 1
  else
    let (num, den) := scaleTen m e
    floatOfRatio negative num den

def isNaN (x : Float) : Bool :=
  match binaryParts x with
  | .nan => true
  | _ => false

def isInfinite (x : Float) : Bool :=
  match binaryParts x with
  | .infinite _ => true
  | _ => false

def isNegative (x : Float) : Bool := Nat.pow 2 63 ≤ x.toBits.toNat

def infinity : Float := Float.ofBits 0x7ff0000000000000

def notANumber : Float := Float.ofBits 0x7ff8000000000000

def truncate? (x : Float) : Option Int :=
  match binaryParts x with
  | .finite negative m e =>
    let (num, den) := scaleTwo m e
    some (if negative then -((num / den : Nat) : Int) else (num / den : Nat))
  | _ => none

def roundHalfEven? (x : Float) : Option Int :=
  match binaryParts x with
  | .finite negative m e =>
    let (num, den) := scaleTwo m e
    let n : Int := roundDiv num den
    some (if negative then -n else n)
  | _ => none

end SheetTemplate.Number
