import SheetTemplate.Fault
import SheetTemplate.Value.Basic

namespace SheetTemplate

open Number

namespace Value

def number? : Value → Option Extended
  | bool b => some (.ofInt (if b then 1 else 0))
  | int n => some (.ofInt n)
  | float x => some (.ofFloat x)
  | decimal d => some d.toExtended
  | scalar (.int64 n) => some (.ofInt n)
  | scalar (.float64 x) => some (.ofFloat x)
  | scalar (.float32 x) => some (.ofFloat x)
  | scalar (.bool b) => some (.ofInt (if b then 1 else 0))
  | _ => none

def text? : Value → Option String
  | text s => some s
  | scalar (.text s) => some s
  | _ => none

def moment? : Value → Option Moment
  | moment m => some m
  | timestamp m => some m
  | _ => none

def isDecimal : Value → Bool
  | decimal _ => true
  | _ => false

def eqPlain (a b : Value) : Bool :=
  match a.number?, b.number? with
  | some x, some y => x.eq y
  | some _, none => false
  | none, some _ => false
  | none, none =>
    match a.text?, b.text? with
    | some s, some t => s == t
    | some _, none => false
    | none, some _ => false
    | none, none =>
      match a.moment?, b.moment? with
      | some m, some n => decide (m = n)
      | some _, none => false
      | none, some _ => false
      | none, none =>
        match a, b with
        | null, null => true
        | missing _, missing _ => true
        | bytes x, bytes y => x == y
        | picture x, picture y => decide (x = y)
        | date x, date y => decide (x = y)
        | clock x, clock y => decide (x = y)
        | duration x, duration y => x == y
        | link u d, link u' d' => u == u' && d == d'
        | range a b c, range a' b' c' => a == a' && b == b' && c == c'
        | builtin f, builtin g => decide (f = g)
        | hosted f, hosted g => f == g
        | stream _ i, stream _ j => i == j
        | updater i, updater j => i == j
        | template, template => true
        | _, _ => false

mutual

def eq : Value → Value → Bool
  | list xs, list ys => eqAll xs ys
  | tuple xs, tuple ys => eqAll xs ys
  | array xs, array ys => eqAll xs ys
  | series xs, series ys => eqAll xs ys
  | frame xs, frame ys => eqAll xs ys
  | set xs, set ys => xs.length == ys.length && allIn xs ys
  | dict xs, dict ys => xs.length == ys.length && entriesIn xs ys
  | record xs, record ys => eqFields xs ys
  | group x xs, group y ys => eq x y && eqAll xs ys
  | a, b => eqPlain a b

def eqAll : List Value → List Value → Bool
  | [], [] => true
  | x :: xs, y :: ys => eq x y && eqAll xs ys
  | _, _ => false

def allIn : List Value → List Value → Bool
  | [], _ => true
  | x :: xs, ys => (ys.any fun y => eq x y) && allIn xs ys

def entriesIn : List (Value × Value) → List (Value × Value) → Bool
  | [], _ => true
  | (k, v) :: rest, ys => (ys.any fun (k', v') => eq k k' && eq v v') && entriesIn rest ys

def eqFields : List (String × Value) → List (String × Value) → Bool
  | [], [] => true
  | (k, v) :: xs, (k', v') :: ys => k == k' && eq v v' && eqFields xs ys
  | _, _ => false

end

inductive Ordering where
  | lt | le | gt | ge
  deriving DecidableEq, Repr

namespace Ordering

def symbol : Ordering → String
  | lt => "<"
  | le => "<="
  | gt => ">"
  | ge => ">="

def holds (o : Ordering) (less equal greater : Bool) : Bool :=
  match o with
  | lt => less
  | le => less || equal
  | gt => greater
  | ge => greater || equal

def ofNumbers (o : Ordering) (a b : Extended) : Bool := o.holds (a.lt b) (a.eq b) (b.lt a)

def ofTexts (o : Ordering) (s t : String) : Bool := o.holds (s < t) (s == t) (t < s)

def ofInts (o : Ordering) (m n : Int) : Bool := o.holds (m < n) (m == n) (n < m)

end Ordering

def orderPlain (o : Ordering) (a b : Value) : Except Fault Bool :=
  match a, b with
  | missing w, _ => .error ⟨if w.guarded then .guarded else .undefined, w.reason⟩
  | _, missing w => .error ⟨if w.guarded then .guarded else .undefined, w.reason⟩
  | date x, date y => .ok (o.ofInts x.ordinal y.ordinal)
  | clock x, clock y => .ok (o.ofInts x.micros y.micros)
  | duration x, duration y => .ok (o.ofInts x y)
  | bytes x, bytes y => .ok (o.holds (decide (x < y)) (x == y) (decide (y < x)))
  | date _, moment _ => .error (.badType "can't compare datetime.datetime to datetime.date")
  | moment _, date _ => .error (.badType "can't compare datetime.datetime to datetime.date")
  | _, _ =>
    match a.number?, b.number? with
    | some x, some y =>
      if (a.isDecimal || b.isDecimal) && (x.isNaN || y.isNaN) then .error .invalidDecimal
      else .ok (o.ofNumbers x y)
    | _, _ =>
      match a.text?, b.text? with
      | some s, some t => .ok (o.ofTexts s t)
      | _, _ =>
        match a.moment?, b.moment? with
        | some m, some n => .ok (o.ofInts m.micros n.micros)
        | _, _ => .error (.ordering o.symbol a.typeName b.typeName)

mutual

def order (o : Ordering) : Value → Value → Except Fault Bool
  | list xs, list ys => orderAll o xs ys
  | tuple xs, tuple ys => orderAll o xs ys
  | a, b => orderPlain o a b

def orderAll (o : Ordering) : List Value → List Value → Except Fault Bool
  | [], [] => .ok (o.holds false true false)
  | [], _ :: _ => .ok (o.holds true false false)
  | _ :: _, [] => .ok (o.holds false false true)
  | x :: xs, y :: ys => if eq x y then orderAll o xs ys else order o x y

end

end Value

end SheetTemplate
