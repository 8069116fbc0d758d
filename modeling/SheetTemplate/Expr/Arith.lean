import SheetTemplate.Expr.Basic
import SheetTemplate.Expr.Format

namespace SheetTemplate.Expr

open Number Value

inductive Operand where
  | whole (n : Int)
  | float (x : Float)
  | decimal (d : Decimal)

def operand? : Value → Option Operand
  | .bool b => some (.whole (if b then 1 else 0))
  | .int n => some (.whole n)
  | .float x => some (.float x)
  | .decimal d => some (.decimal d)
  | .scalar (.int64 n) => some (.whole n)
  | .scalar (.float64 x) => some (.float x)
  | .scalar (.float32 x) => some (.float x)
  | .scalar (.bool b) => some (.whole (if b then 1 else 0))
  | _ => none

def isNumberScalar : Value → Bool
  | .scalar (.text _) => false
  | .scalar .noTime => false
  | .scalar _ => true
  | _ => false

def wholeOp (op : Binary) (a b : Int) : Except Fault Value :=
  match op with
  | .add => .ok (.int (a + b))
  | .sub => .ok (.int (a - b))
  | .mul => .ok (.int (a * b))
  | .div => (divInt a b).map .float
  | .floorDiv => (floorDivInt a b).map .int
  | .mod => (modInt a b).map .int
  | .pow =>
    if 0 ≤ b then .ok (.int (Int.pow a b.toNat))
    else do
      let x ← floatOfInt? a
      let y ← floatOfInt? b
      (powFloat x y).map .float

def floatOp (op : Binary) (x y : Float) : Except Fault Float :=
  match op with
  | .add => .ok (x + y)
  | .sub => .ok (x - y)
  | .mul => .ok (x * y)
  | .div => divFloat x y
  | .floorDiv => floorDivFloat x y
  | .mod => modFloat x y
  | .pow => powFloat x y

def decimalFault : DecimalFault → Fault
  | .divisionByZero => ⟨.decimalByZero, "[<class 'decimal.DivisionByZero'>]"⟩
  | .divisionUndefined => ⟨.invalidDecimal, "[<class 'decimal.DivisionUndefined'>]"⟩
  | .invalid => .invalidDecimal

def decimalOp (op : Binary) (a b : Decimal) : Except Fault Value :=
  let r := match op with
    | .add => a.add b
    | .sub => a.sub b
    | .mul => a.mul b
    | .div => a.div b
    | .floorDiv => a.floorDiv b
    | .mod => a.mod b
    | .pow =>
      match b.truncate? with
      | some n => a.pow n
      | none => .error .invalid
  match r with
  | .ok d => .ok (.decimal d)
  | .error e => .error (decimalFault e)

def scalarDiv (x y : Float) : Float := x / y

def scalarOp (op : Binary) (a b : Operand) : Except Fault Value :=
  let asFloat : Operand → Float
    | .whole n => floatOfInt n
    | .float x => x
    | .decimal d => d.toFloat
  match a, b with
  | .whole m, .whole n =>
    match op with
    | .div => .ok (.scalar (.float64 (scalarDiv (floatOfInt m) (floatOfInt n))))
    | .floorDiv | .mod =>
      if n = 0 then .ok (.scalar (.int64 0))
      else (wholeOp op m n).map fun
        | .int k => .scalar (.int64 k)
        | v => v
    | _ =>
      (wholeOp op m n).map fun
        | .int k => .scalar (.int64 k)
        | .float x => .scalar (.float64 x)
        | v => v
  | _, _ =>
    let x := asFloat a
    let y := asFloat b
    match op with
    | .div => .ok (.scalar (.float64 (scalarDiv x y)))
    | _ =>
      match floatOp op x y with
      | .ok r => .ok (.scalar (.float64 r))
      | .error _ => .ok (.scalar (.float64 notANumber))

def numberOp (op : Binary) (left right : Value) (a b : Operand) : Except Fault Value :=
  let unsupported : Except Fault Value :=
    .error (.operands op.symbol left.typeName right.typeName)
  match a, b with
  | .decimal _, .float _ => unsupported
  | .float _, .decimal _ => unsupported
  | .decimal x, .decimal y => decimalOp op x y
  | .decimal x, .whole n => decimalOp op x (.ofInt n)
  | .whole n, .decimal y => decimalOp op (.ofInt n) y
  | _, _ =>
    if isNumberScalar left || isNumberScalar right then scalarOp op a b
    else
      match a, b with
      | .whole m, .whole n => wholeOp op m n
      | .whole m, .float y => do (floatOp op (← floatOfInt? m) y).map .float
      | .float x, .whole n => do (floatOp op x (← floatOfInt? n)).map .float
      | .float x, .float y => (floatOp op x y).map .float
      | _, _ => unsupported

def repeatList (n : Int) (items : List Value) : List Value :=
  (List.replicate n.toNat items).flatten

def longestSequence : Int := Int.pow 2 40

def repeated? (v : Value) (n : Int) : Option (Except Fault Value) :=
  let guarded (isEmpty : Bool) (w : Unit → Value) : Option (Except Fault Value) :=
    some
      (if n < -(Int.pow 2 63) || Int.pow 2 63 ≤ n then
        .error ⟨.overflow, "cannot fit 'int' into an index-sized integer"⟩
      else if longestSequence < n && !isEmpty then .error ⟨.memory, ""⟩
      else .ok (if isEmpty then v else w ()))
  match v with
  | .text s => guarded s.isEmpty fun _ => .text (String.join (List.replicate n.toNat s))
  | .list items => guarded items.isEmpty fun _ => .list (repeatList n items)
  | .tuple items => guarded items.isEmpty fun _ => .tuple (repeatList n items)
  | .bytes b => guarded b.isEmpty fun _ => .bytes (List.replicate n.toNat b).flatten
  | _ => none

def wholeIndex? : Value → Option Int
  | .bool b => some (if b then 1 else 0)
  | .int n => some n
  | .scalar (.int64 n) => some n
  | _ => none

def isSequence : Value → Bool
  | .text _ | .list _ | .tuple _ | .bytes _ => true
  | _ => false

def joinFault (kind : String) (right : Value) : Fault :=
  .badType ("can only concatenate " ++ kind ++ " (not \"" ++ right.typeName ++ "\") to " ++ kind)

def dateShift (op : String) (left right : Value) (d : Date) (days : Int) : Except Fault Value :=
  match Date.ofOrdinal? ((d.ordinal : Int) + days) with
  | some e => .ok (.date e)
  | none => .error ⟨.overflow, if op.isEmpty then left.typeName ++ right.typeName else
      "date value out of range"⟩

def momentShift (m : Moment) (micros : Int) : Except Fault Value :=
  match Moment.ofMicros? ((m.micros : Int) + micros) with
  | some r => .ok (.moment r)
  | none => .error ⟨.overflow, "date value out of range"⟩

def roundQuotient (a b : Int) : Int :=
  let r : Int := roundDiv a.natAbs b.natAbs
  if (a < 0) != (b < 0) then -r else r

def floatQuotient? (x : Float) : Option (Int × Int) :=
  match binaryParts x with
  | .finite n m e =>
    let (num, den) := scaleTwo m e
    some (if n then -(num : Int) else num, den)
  | _ => none

def otherOp (op : Binary) (left right : Value) : Except Fault Value :=
  let unsupported : Except Fault Value :=
    .error (.operands op.symbol left.typeName right.typeName)
  match op, left, right with
  | .add, .text s, .text t => .ok (.text (s ++ t))
  | .add, .text s, .scalar (.text t) => .ok (.text (s ++ t))
  | .add, .scalar (.text s), .text t => .ok (.text (s ++ t))
  | .add, .text _, _ => .error (joinFault "str" right)
  | .add, .list a, .list b => .ok (.list (a ++ b))
  | .add, .list _, _ => .error (joinFault "list" right)
  | .add, .tuple a, .tuple b => .ok (.tuple (a ++ b))
  | .add, .tuple _, _ => .error (joinFault "tuple" right)
  | .add, .bytes a, .bytes b => .ok (.bytes (a ++ b))
  | .add, .bytes _, _ =>
    .error (.badType ("can't concat " ++ right.typeName ++ " to bytes"))
  | .mod, .text s, v => fillPattern s v
  | .mul, a, b =>
    match a, b with
    | .duration d, .float x =>
      match floatQuotient? x with
      | some (n, k) => .ok (.duration (roundQuotient (d * n) k))
      | none => .error (.badValue "cannot convert float NaN to integer")
    | .float x, .duration d =>
      match floatQuotient? x with
      | some (n, k) => .ok (.duration (roundQuotient (d * n) k))
      | none => .error (.badValue "cannot convert float NaN to integer")
    | .duration d, .int n => .ok (.duration (d * n))
    | .int n, .duration d => .ok (.duration (d * n))
    | .duration d, .bool n => .ok (.duration (if n then d else 0))
    | .bool n, .duration d => .ok (.duration (if n then d else 0))
    | _, _ =>
      if isSequence a then
        match wholeIndex? b with
        | some n => (repeated? a n).getD (.ok a)
        | none =>
          .error (.badType ("can't multiply sequence by non-int of type '" ++ b.typeName ++ "'"))
      else if isSequence b then
        match wholeIndex? a with
        | some n => (repeated? b n).getD (.ok b)
        | none =>
          .error (.badType ("can't multiply sequence by non-int of type '" ++ a.typeName ++ "'"))
      else unsupported
  | .add, .date d, .duration n => dateShift "+" left right d (Int.fdiv n microsPerDay)
  | .add, .duration n, .date d => dateShift "+" left right d (Int.fdiv n microsPerDay)
  | .sub, .date d, .duration n => dateShift "-" left right d (-(Int.fdiv n microsPerDay))
  | .sub, .date a, .date b => .ok (.duration (((a.ordinal : Int) - b.ordinal) * microsPerDay))
  | .add, .duration a, .duration b => .ok (.duration (a + b))
  | .sub, .duration a, .duration b => .ok (.duration (a - b))
  | .div, .duration a, .duration b =>
    if b = 0 then .error (zeroFault "division by zero") else (divInt a b).map .float
  | .div, .duration a, .int n =>
    if n = 0 then .error (zeroFault "integer division or modulo by zero")
    else .ok (.duration (roundQuotient a n))
  | .div, .duration a, .float x =>
    match floatQuotient? x with
    | some (n, k) =>
      if n = 0 then .error (zeroFault "integer division or modulo by zero")
      else .ok (.duration (roundQuotient (a * k) n))
    | none => .error (.badValue "cannot convert float NaN to integer")
  | .floorDiv, .duration a, .duration b =>
    if b = 0 then .error (zeroFault "integer division or modulo by zero")
    else .ok (.int (Int.fdiv a b))
  | .floorDiv, .duration a, .int n =>
    if n = 0 then .error (zeroFault "integer division or modulo by zero")
    else .ok (.duration (Int.fdiv a n))
  | .mod, .duration a, .duration b =>
    if b = 0 then .error (zeroFault "integer division or modulo by zero")
    else .ok (.duration (Int.fmod a b))
  | .sub, .set a, .set b => .ok (.set (a.filter fun x => !b.any fun y => x.eq y))
  | .add, a, .duration n =>
    match a.moment? with
    | some m => momentShift m n
    | none => unsupported
  | .add, .duration n, b =>
    match b.moment? with
    | some m => momentShift m n
    | none => unsupported
  | .sub, a, b =>
    match a.moment?, b with
    | some m, .duration n => momentShift m (-n)
    | some m, _ =>
      match b.moment? with
      | some k => .ok (.duration ((m.micros : Int) - k.micros))
      | none => unsupported
    | none, _ => unsupported
  | _, _, _ => unsupported

def applyBinary (op : Binary) (left right : Value) : Except Fault Value :=
  match left, right with
  | .missing w, _ => .error (missingFault w)
  | .text _, .missing w =>
    if op = .mod then otherOp op left right else .error (missingFault w)
  | _, .missing w => .error (missingFault w)
  | _, _ =>
    match operand? left, operand? right with
    | some a, some b => numberOp op left right a b
    | _, _ => otherOp op left right

def applyUnary (op : Unary) (v : Value) : Except Fault Value :=
  match v with
  | .missing w => .error (missingFault w)
  | .duration n => .ok (.duration (if op = .neg then -n else n))
  | .decimal d => .ok (.decimal (if op = .neg then d.neg else if op = .pos ∧ d.isZero then d.abs else d))
  | .scalar (.int64 n) => .ok (.scalar (.int64 (if op = .neg then -n else n)))
  | .scalar (.float64 x) => .ok (.scalar (.float64 (if op = .neg then -x else x)))
  | .scalar (.float32 x) => .ok (.scalar (.float32 (if op = .neg then -x else x)))
  | _ =>
    match operand? v with
    | some (.whole n) => .ok (.int (if op = .neg then -n else n))
    | some (.float x) => .ok (.float (if op = .neg then -x else x))
    | _ =>
      .error (.badType ("bad operand type for unary " ++ (if op = .neg then "-" else "+") ++ ": '"
        ++ v.typeName ++ "'"))

def within (needle hay : Value) : EvalM Bool := do
  match hay with
  | .text s =>
    match needle with
    | .text t => return Text.containsText t.toList s.toList
    | .scalar (.text t) => return Text.containsText t.toList s.toList
    | _ =>
      EvalM.fault (.badType ("'in <string>' requires string as left operand, not "
        ++ needle.typeName))
  | .dict entries =>
    match needle with
    | .list _ | .dict _ | .set _ =>
      EvalM.fault (.badType ("unhashable type: '" ++ needle.typeName ++ "'"))
    | _ => return entries.any fun (k, _) => needle.eq k
  | .list items | .tuple items | .set items | .array items | .series items =>
    return items.any fun x => needle.eq x
  | .range _ _ _ | .view _ _ | .stream _ _ | .frame _ | .bytes _ =>
    let items ← iterate hay
    return items.any fun x => needle.eq x
  | .missing _ => return false
  | _ => EvalM.fault (.badType ("argument of type '" ++ hay.typeName ++ "' is not iterable"))

def compareOp (op : Comparison) (left right : Value) : EvalM Bool :=
  match op with
  | .eq => return left.eq right
  | .ne => return !left.eq right
  | .order o => EvalM.ofFault (left.order o right)
  | .within => within left right
  | .notWithin => return !(← within left right)

end SheetTemplate.Expr
