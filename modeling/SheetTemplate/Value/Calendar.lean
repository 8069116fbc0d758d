import SheetTemplate.Number.Shown

namespace SheetTemplate.Value

open Number

structure Date where
  year : Nat
  month : Nat
  day : Nat
  deriving DecidableEq, Repr

structure Clock where
  hour : Nat
  minute : Nat
  second : Nat
  micro : Nat
  deriving DecidableEq, Repr

structure Moment where
  date : Date
  clock : Clock
  deriving DecidableEq, Repr

def padded (width n : Nat) : List Char :=
  let digits := natDigits n
  zeros (width - digits.length) ++ digits

def isLeap (year : Nat) : Bool := year % 4 == 0 && (year % 100 != 0 || year % 400 == 0)

def daysInMonth (year month : Nat) : Nat :=
  if month == 2 then (if isLeap year then 29 else 28)
  else if month == 4 || month == 6 || month == 9 || month == 11 then 30 else 31

def daysBeforeYear (year : Nat) : Nat :=
  let y := year - 1
  y * 365 + y / 4 - y / 100 + y / 400

def daysBeforeMonth (year : Nat) : Nat → Nat
  | 0 => 0
  | 1 => 0
  | month + 1 => daysBeforeMonth year month + daysInMonth year month

namespace Date

def hasMonth (d : Date) : Bool := 1 ≤ d.month && d.month ≤ 12

def valid (d : Date) : Bool :=
  1 ≤ d.year && d.year ≤ 9999 && 1 ≤ d.month && d.month ≤ 12 && 1 ≤ d.day &&
    d.day ≤ daysInMonth d.year d.month

def ordinal (d : Date) : Nat := daysBeforeYear d.year + daysBeforeMonth d.year d.month + d.day

def monthOf (year : Nat) (dayOfYear : Nat) : Nat → Nat
  | 0 => 1
  | m + 1 => if daysBeforeMonth year (m + 1) < dayOfYear then m + 1 else monthOf year dayOfYear m

def ofOrdinal? (n : Int) : Option Date :=
  if n < 1 then none
  else
    let n := n.toNat
    let guess := (n * 400 + 146096) / 146097 + 1
    let year := if daysBeforeYear guess < n then guess
      else if daysBeforeYear (guess - 1) < n then guess - 1 else guess - 2
    let rest := n - daysBeforeYear year
    let month := monthOf year rest 12
    let d : Date := ⟨year, month, rest - daysBeforeMonth year month⟩
    if d.valid then some d else none

def weekday (d : Date) : Nat := (d.ordinal + 6) % 7

def iso (d : Date) : String :=
  String.ofList (padded 4 d.year ++ '-' :: padded 2 d.month ++ '-' :: padded 2 d.day)

end Date

namespace Clock

def midnight : Clock := ⟨0, 0, 0, 0⟩

def micros (c : Clock) : Nat := ((c.hour * 60 + c.minute) * 60 + c.second) * 1000000 + c.micro

def ofMicros (n : Nat) : Clock :=
  ⟨n / 3600000000, n / 60000000 % 60, n / 1000000 % 60, n % 1000000⟩

def iso (c : Clock) : String :=
  String.ofList (padded 2 c.hour ++ ':' :: padded 2 c.minute ++ ':' :: padded 2 c.second ++
    (if c.micro = 0 then [] else '.' :: padded 6 c.micro))

def parts (c : Clock) : List Nat :=
  [c.hour, c.minute] ++
    (if c.micro ≠ 0 then [c.second, c.micro] else if c.second ≠ 0 then [c.second] else [])

end Clock

def microsPerDay : Nat := 86400000000

namespace Moment

def micros (m : Moment) : Nat := m.date.ordinal * microsPerDay + m.clock.micros

def ofMicros? (n : Int) : Option Moment :=
  if n < 0 then none
  else (Date.ofOrdinal? (n.toNat / microsPerDay : Nat)).map fun d =>
    ⟨d, Clock.ofMicros (n.toNat % microsPerDay)⟩

def iso (m : Moment) : String := m.date.iso ++ "T" ++ m.clock.iso

def text (m : Moment) : String := m.date.iso ++ " " ++ m.clock.iso

end Moment

def durationText (micros : Int) : String :=
  let days := Int.fdiv micros microsPerDay
  let rest := (Int.fmod micros microsPerDay).toNat
  let c := Clock.ofMicros rest
  let time := natDigits c.hour ++ ':' :: padded 2 c.minute ++ ':' :: padded 2 c.second ++
    (if c.micro = 0 then [] else '.' :: padded 6 c.micro)
  let front := if days = 0 then ""
    else showInt days ++ (if days.natAbs = 1 then " day, " else " days, ")
  front ++ String.ofList time

def fixedDigits? (count : Nat) (cs : List Char) : Option (Nat × List Char) :=
  let front := cs.take count
  if front.length = count ∧ front.all Char.isDigit then
    some (front.foldl (fun n c => n * 10 + (c.toNat - 48)) 0, cs.drop count)
  else none

def readDate? (cs : List Char) : Option (Date × List Char) := do
  let (y, cs) ← fixedDigits? 4 cs
  let '-' :: cs := cs | none
  let (m, cs) ← fixedDigits? 2 cs
  let '-' :: cs := cs | none
  let (d, cs) ← fixedDigits? 2 cs
  let date : Date := ⟨y, m, d⟩
  if date.valid then some (date, cs) else none

def readMicros (cs : List Char) : Nat :=
  let digits := (cs.takeWhile Char.isDigit).take 6
  (digits ++ zeros (6 - digits.length)).foldl (fun n c => n * 10 + (c.toNat - 48)) 0

def readClock? (cs : List Char) : Option Clock := do
  let (h, cs) ← fixedDigits? 2 cs
  match cs with
  | [] => some ⟨h, 0, 0, 0⟩
  | ':' :: cs =>
    let (m, cs) ← fixedDigits? 2 cs
    match cs with
    | [] => some ⟨h, m, 0, 0⟩
    | ':' :: cs =>
      let (s, cs) ← fixedDigits? 2 cs
      match cs with
      | [] => some ⟨h, m, s, 0⟩
      | '.' :: cs => some ⟨h, m, s, readMicros cs⟩
      | _ => none
    | _ => none
  | _ => none

def readMoment? (cs : List Char) : Option Moment := do
  let (d, cs) ← readDate? cs
  match cs with
  | [] => some ⟨d, .midnight⟩
  | _ :: cs => (readClock? cs).map fun c => ⟨d, c⟩

end SheetTemplate.Value
