import SheetTemplate.Number.Binary

/-!
The fewest decimal digits that read back as the same float, and of those the nearest.
-/

namespace SheetTemplate.Number

structure Interval where
  value : Nat
  low : Nat
  high : Nat
  den : Nat
  closed : Bool

def roundingInterval (m : Nat) (e : Int) (width : Nat) (least : Int) : Interval :=
  let (unit, den) := scaleTwo 1 (e - 2)
  let below := if m = Nat.pow 2 width ∧ least < e then 1 else 2
  ⟨4 * m * unit, (4 * m - below) * unit, (4 * m + 2) * unit, den, m % 2 = 0⟩

def Interval.contains (i : Interval) (num den : Nat) : Bool :=
  let lo := i.low * den
  let x := num * i.den
  let hi := i.high * den
  if i.closed then lo ≤ x && x ≤ hi else lo < x && x < hi

def decimalPosition (num den : Nat) : Int :=
  let estimate : Int := ((num.log2 : Int) - den.log2) * 30103 / 100000 - 1
  let fits (p : Int) : Bool :=
    let (tn, td) := scaleTen 1 p
    num * td < den * tn
  if fits estimate then estimate
  else if fits (estimate + 1) then estimate + 1
  else if fits (estimate + 2) then estimate + 2
  else estimate + 3

def Interval.onGrid? (i : Interval) (k : Int) : Option Nat :=
  let (gn, gd) := scaleTen 1 k
  let below := i.value * gd / (i.den * gn)
  let rest := i.value * gd % (i.den * gn)
  let okBelow := 0 < below && i.contains (below * gn) gd
  let okAbove := i.contains ((below + 1) * gn) gd
  match okBelow, okAbove with
  | true, true =>
    if 2 * rest < i.den * gn then some below
    else if i.den * gn < 2 * rest then some (below + 1)
    else some (if below % 2 = 0 then below else below + 1)
  | true, false => some below
  | false, true => some (below + 1)
  | false, false => none

def Interval.digits (i : Interval) (position : Int) : Nat → Nat → Nat × Int
  | _, 0 => (i.value / i.den, 0)
  | n, fuel + 1 =>
    match i.onGrid? (position - n) with
    | some d => if d = Nat.pow 10 n then (1, position) else (d, position - n)
    | none => i.digits position (n + 1) fuel

def shortestDigits (m : Nat) (e : Int) : Nat × Int :=
  let i := roundingInterval m e 52 (-1074)
  i.digits (decimalPosition i.value i.den) 1 17

end SheetTemplate.Number
