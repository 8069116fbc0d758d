import SheetTemplate.Expr.Method
import SheetTemplate.Sorting

namespace SheetTemplate

open Number Text Value

abbrev Host := String → Expr.Call → EvalM Value

namespace Expr

def badName (name function : String) : Fault :=
  .badType (quoted name ++ " is an invalid keyword argument for " ++ function ++ "()")

def unexpectedName (function name : String) : Fault :=
  .badType (function ++ "() got an unexpected keyword argument " ++ quoted name)

def Call.strange? (c : Call) (allowed : List String) : Option String :=
  (c.named.find? fun f => !allowed.contains f.1).map (·.1)

def Call.named? (c : Call) (name : String) : Option Value :=
  (c.named.find? fun f => f.1 == name).map (·.2)

def Call.argument? (c : Call) (position : Nat) (name : String) : Option Value :=
  match c.args[position]? with
  | some v => some v
  | none => c.named? name

def listed : List String → String
  | [] => ""
  | [a] => quoted a
  | [a, b] => quoted a ++ " and " ++ quoted b
  | names => joinText ", " (names.dropLast.map quoted) ++ ", and " ++ quoted (names.getLast?.getD "")

def Call.bind (c : Call) (function : String) (names : List String) (required : Nat) :
    Except Fault (List (Option Value)) :=
  let given := c.args.length
  let most := names.length
  match c.strange? names with
  | some word => .error (unexpectedName function word)
  | none =>
    match (names.take given).find? fun n => (c.named? n).isSome with
    | some word =>
      .error (.badType (function ++ "() got multiple values for argument " ++ quoted word))
    | none =>
      if most < given then
        let (count, ending) :=
          if required < most then
            ("from " ++ toString required ++ " to " ++ toString most, "arguments")
          else (toString most, plural most "argument")
        .error (.badType (function ++ "() takes " ++ count ++ " positional " ++ ending ++ " but " ++
          toString given ++ (if given = 1 then " was" else " were") ++ " given"))
      else
        let absent := ((names.take required).drop given).filter fun n => (c.named? n).isNone
        if absent.isEmpty then .ok (names.mapIdx fun i n => c.argument? i n)
        else
          .error (.badType (function ++ "() missing " ++ toString absent.length ++
            " required positional " ++ plural absent.length "argument" ++ ": " ++ listed absent))

def Call.only (c : Call) (function : String) : Except Fault Value :=
  if !c.named.isEmpty then .error (noNames function)
  else
    match c.args with
    | [v] => .ok v
    | _ => .error (takesOne function c.args.length)

def Call.atMostOne (c : Call) (function : String) : Except Fault (Option Value) :=
  if !c.named.isEmpty then .error (noNames function)
  else
    match c.args with
    | [] => .ok none
    | [v] => .ok (some v)
    | _ => .error (tooMany function 1 c.args.length)

def notWholeText (base : Int) (v : Value) : Fault :=
  .badValue ("invalid literal for int() with base " ++ showInt base ++ ": " ++ v.inner)

def wholeOfFloat (x : Float) : Except Fault Int :=
  match truncate? x with
  | some n => .ok n
  | none =>
    if isNaN x then .error (.badValue "cannot convert float NaN to integer")
    else .error ⟨.overflow, "cannot convert float infinity to integer"⟩

def wholeOfDecimal (d : Decimal) : Except Fault Int :=
  match d.truncate? with
  | some n => .ok n
  | none =>
    match d with
    | .nan => .error (.badValue "cannot convert NaN to integer")
    | _ => .error ⟨.overflow, "cannot convert Infinity to integer"⟩

def toWhole (v : Value) : Except Fault Int :=
  match v with
  | .missing w => .error (missingFault w)
  | .decimal d => wholeOfDecimal d
  | .bytes b =>
    match readInt? 10 (b.map fun x => Char.ofNat x.toNat) with
    | some n => .ok n
    | none => .error (notWholeText 10 v)
  | _ =>
    match v.text? with
    | some s =>
      match readInt? 10 s.toList with
      | some n => .ok n
      | none => .error (notWholeText 10 (.text s))
    | none =>
      match operand? v with
      | some (.whole n) => .ok n
      | some (.float x) => wholeOfFloat x
      | _ =>
        .error (.badType ("int() argument must be a string, a bytes-like object or a real number, "
          ++ "not '" ++ v.typeName ++ "'"))

def toWholeBase (v base : Value) : Except Fault Int := do
  let k ← whole base
  match v.text? with
  | none => .error (.badType "int() can't convert non-string with explicit base")
  | some s =>
    if k ≠ 0 ∧ (k < 2 ∨ 36 < k) then .error (.badValue "int() base must be >= 2 and <= 36, or 0")
    else
      match readInt? k.toNat s.toList with
      | some n => .ok n
      | none => .error (notWholeText k (.text s))

def toReal (v : Value) : Except Fault Float :=
  match v with
  | .missing w => .error (missingFault w)
  | .decimal d => .ok d.toFloat
  | _ =>
    match v.text? with
    | some s =>
      match readFloat? s.toList with
      | some x => .ok x
      | none => .error (.badValue ("could not convert string to float: " ++ quoted s))
    | none =>
      match operand? v with
      | some (.whole n) => floatOfInt? n
      | some (.float x) => .ok x
      | _ =>
        .error (.badType ("float() argument must be a string or a real number, not '" ++
          v.typeName ++ "'"))

def roundFloat (x : Float) : Except Fault Int :=
  match roundHalfEven? x with
  | some n => .ok n
  | none =>
    if isNaN x then .error (.badValue "cannot convert float NaN to integer")
    else .error ⟨.overflow, "cannot convert float infinity to integer"⟩

def roundFloatTo (x : Float) (places : Int) : Except Fault Float :=
  let r := roundPlaces x places
  if isInfinite r && !isInfinite x then
    .error ⟨.overflow, "rounded value too large to represent"⟩
  else .ok r

def roundDecimal (d : Decimal) : Except Fault Int :=
  match d.quantize? 0 with
  | some q => wholeOfDecimal q
  | none => wholeOfDecimal d

def roundValue (v : Value) (places : Option Value) : Except Fault Value :=
  let whole? (n : Int) : Except Fault Int :=
    match places with
    | none => .ok n
    | some p => do
      let k ← whole p
      .ok (if 0 ≤ k then n else roundTens n (-k).toNat)
  match v with
  | .int n => (whole? n).map .int
  | .bool b => (whole? (if b then 1 else 0)).map .int
  | .float x =>
    match places with
    | none => (roundFloat x).map .int
    | some p => do .ok (.float (← roundFloatTo x (← whole p)))
  | .decimal d =>
    match places with
    | none => (roundDecimal d).map .int
    | some p => do
      match d.quantize? (-(← whole p)) with
      | some q => .ok (.decimal q)
      | none => .error .invalidDecimal
  | .scalar (.int64 n) =>
    match places with
    | none => .ok (.int n)
    | some _ => (whole? n).map fun m => .scalar (.int64 m)
  | .scalar (.float64 x) =>
    match places with
    | none => (roundFloat x).map .int
    | some p => do .ok (.scalar (.float64 (← roundFloatTo x (← whole p))))
  | _ => .error (.badType ("type " ++ v.typeName ++ " doesn't define __round__ method"))

def absolute (v : Value) : Except Fault Value :=
  match v with
  | .int n => .ok (.int n.natAbs)
  | .bool b => .ok (.int (if b then 1 else 0))
  | .float x => .ok (.float x.abs)
  | .decimal d => .ok (.decimal d.abs)
  | .duration n => .ok (.duration n.natAbs)
  | .scalar (.int64 n) => .ok (.scalar (.int64 n.natAbs))
  | .scalar (.float64 x) => .ok (.scalar (.float64 x.abs))
  | .scalar (.float32 x) => .ok (.scalar (.float32 x.abs))
  | .scalar (.bool b) => .ok (.scalar (.bool b))
  | _ => .error (.badType ("bad operand type for abs(): '" ++ v.typeName ++ "'"))

def lengthOf (v : Value) : Except Fault Value :=
  match v.length? with
  | some n => .ok (.int n)
  | none => .error (.badType ("object of type '" ++ v.typeName ++ "' has no len()"))

def noTextSum : Fault := .badType "sum() can't sum strings [use ''.join(seq) instead]"

def sumFrom (start : Value) (items : List Value) : Except Fault Value :=
  match start with
  | .text _ => .error noTextSum
  | _ => items.foldlM (applyBinary .add) start

def bestOf (better : Value.Ordering) : List (Value × Value) → Except Fault (Option Value)
  | [] => .ok none
  | first :: rest => do
    let best ← rest.foldlM
      (fun best (other : Value × Value) => do
        .ok (if ← other.1.order better best.1 then other else best))
      first
    .ok (some best.2)

def sortByKey (down : Bool) (keyed : List (Value × Value)) : Except Fault (List Value) := do
  let less (a b : Value × Value) : Except Fault Bool := a.1.order .lt b.1
  let sorted ← if down then Sorting.sortDown less keyed else Sorting.sort less keyed
  .ok (sorted.map (·.2))

def entriesOf (v : Value) : EvalM (List (Value × Value)) :=
  match v with
  | .dict entries => return entries
  | _ => do
    let rec pairs (i : Nat) : List Value → EvalM (List (Value × Value))
      | [] => return []
      | element :: rest => do
        let parts ← match element.length?, element with
          | none, .stream _ _ => iterate element
          | none, _ =>
            EvalM.fault (.badType ("cannot convert dictionary update sequence element #" ++
              toString i ++ " to a sequence"))
          | some _, _ => iterate element
        match parts with
        | [k, x] => return (k, x) :: (← pairs (i + 1) rest)
        | _ =>
          EvalM.fault (.badValue ("dictionary update sequence element #" ++ toString i ++
            " has length " ++ toString parts.length ++ "; 2 is required"))
    pairs 0 (← iterate v)

def unhashable? : Value → Option String
  | .tuple items => unhashableIn items
  | v =>
    match v with
    | .list _ | .dict _ | .set _ | .array _ | .series _ | .frame _ | .group _ _ => some v.typeName
    | _ => none
where
  unhashableIn : List Value → Option String
    | [] => none
    | v :: rest =>
      match unhashable? v with
      | some word => some word
      | none => unhashableIn rest

def unhashableFault (name : String) : Fault := .badType ("unhashable type: '" ++ name ++ "'")

def putEntry (entries : List (Value × Value)) (key v : Value) : List (Value × Value) :=
  if entries.any fun (k, _) => key.eq k then
    entries.map fun (k, x) => if key.eq k then (k, v) else (k, x)
  else entries ++ [(key, v)]

def putAll (entries added : List (Value × Value)) : Except Fault (List (Value × Value)) :=
  added.foldlM
    (fun entries (k, v) =>
      match unhashable? k with
      | some word => .error (unhashableFault word)
      | none => .ok (putEntry entries k v))
    entries

def longestRange : Nat := 100000

def rangeOf (args : List Value) : Except Fault Value := do
  let checked (start stop step : Int) : Except Fault Value :=
    if step = 0 then .error (.badValue "range() arg 3 must not be zero")
    else if longestRange < rangeLength start stop step then
      .error ⟨.overflow, "Range too big. The sandbox blocks ranges larger than MAX_RANGE (" ++
        toString longestRange ++ ")."⟩
    else .ok (.range start stop step)
  match args with
  | [] => .error (tooFew "range" 1 0)
  | [stop] => do checked 0 (← whole stop) 1
  | [start, stop] => do checked (← whole start) (← whole stop) 1
  | [start, stop, step] => do checked (← whole start) (← whole stop) (← whole step)
  | _ => .error (tooMany "range" 3 args.length)

def linkOf (c : Call) : Except Fault Value := do
  match ← c.bind "hyperlink" ["url", "display"] 1 with
  | [some url, display] =>
    let display := match display with
      | none | some .null => ""
      | some v => v.shown
    .ok (.link url.shown display)
  | _ => .ok .null

def choices (function : String) (c : Call) : EvalM (List Value × Option Value) := do
  match c.strange? ["default", "key"] with
  | some word => EvalM.fault (badName word function)
  | none =>
    let fallback := c.named? "default"
    match c.args with
    | [] => EvalM.fault (tooFew function 1 0)
    | [v] => return (← iterate v, fallback)
    | args =>
      if fallback.isSome then
        EvalM.fault (.badType ("Cannot specify a default for " ++ function ++
          "() with multiple positional arguments"))
      else return (args, none)

def callValue (host : Host) : Nat → Value → Call → EvalM Value
  | 0, f, _ => EvalM.fault (.notCallable f.typeName)
  | depth + 1, f, c =>
    let keyed (items : List Value) : EvalM (List (Value × Value)) :=
      match c.named? "key" with
      | none | some .null => return items.map fun v => (v, v)
      | some key => items.mapM fun v => return (← callValue host depth key { args := [v] }, v)
    let best (function : String) (better : Value.Ordering) : EvalM Value := do
      let (items, fallback) ← choices function c
      match ← EvalM.ofFault (bestOf better (← keyed items)), fallback with
      | some v, _ => return v
      | none, some v => return v
      | none, none =>
        EvalM.fault (.badValue (function ++ "() arg is an empty sequence"))
    match f with
    | .missing w => EvalM.fault (missingFault w)
    | .hosted word => host word c
    | .method owner word => callMethod owner word c
    | .builtin .len => EvalM.ofFault (do lengthOf (← c.only "len"))
    | .builtin .abs => EvalM.ofFault (do absolute (← c.only "abs"))
    | .builtin .bool => EvalM.ofFault (do
        .ok (.bool (((← c.atMostOne "bool").map truth).getD false)))
    | .builtin .float => EvalM.ofFault (do
        match ← c.atMostOne "float" with
        | none => .ok (.float 0)
        | some v => .ok (.float (← toReal v)))
    | .builtin .str =>
      match c.argument? 0 "object" with
      | none => return .text ""
      | some (.bytes b) =>
        if c.args.length < 2 then return .text (Value.shown (.bytes b))
        else return .text ((String.fromUTF8? ⟨b.toArray⟩).getD "")
      | some v =>
        if 3 < c.args.length then
          EvalM.fault (.badType ("str() takes at most 3 arguments (" ++ toString c.args.length ++
            " given)"))
        else if 1 < c.args.length then
          EvalM.fault (.badType (match v with
            | .text _ => "decoding str is not supported"
            | _ => "decoding to str: need a bytes-like object, " ++ v.typeName ++ " found"))
        else return .text v.shown
    | .builtin .int => EvalM.ofFault (
        match c.strange? ["base"] with
        | some word => .error (badName word "int")
        | none =>
          if 2 < c.args.length then
            .error (.badType ("int() takes at most 2 arguments (" ++ toString c.args.length ++
              " given)"))
          else
            match c.args[0]?, c.argument? 1 "base" with
            | none, none => .ok (.int 0)
            | none, some _ => .error (.badType "int() missing string argument")
            | some v, none => (toWhole v).map .int
            | some v, some base => (toWholeBase v base).map .int)
    | .builtin .round => EvalM.ofFault (
        match c.strange? ["number", "ndigits"] with
        | some word => .error (badName word "round")
        | none =>
          if 2 < c.args.length then
            .error (.badType ("round() takes at most 2 arguments (" ++ toString c.args.length ++
              " given)"))
          else
            match c.argument? 0 "number" with
            | none => .error (.badType "round() missing required argument 'number' (pos 1)")
            | some v =>
              roundValue v (match c.argument? 1 "ndigits" with
                | some .null => none
                | places => places))
    | .builtin .min => best "min" .lt
    | .builtin .max => best "max" .gt
    | .builtin .sum => do
      match c.strange? ["start"] with
      | some word => EvalM.fault (badName word "sum")
      | none =>
        match c.args with
        | [] => EvalM.fault (.badType "sum() takes at least 1 positional argument (0 given)")
        | v :: rest =>
          if 1 < rest.length then
            EvalM.fault (.badType ("sum() takes at most 2 arguments (" ++
              toString c.args.length ++ " given)"))
          else
            let start := (c.argument? 1 "start").getD (.int 0)
            let items ← iterate v
            EvalM.ofFault (sumFrom start items)
    | .builtin .sorted => do
      match c.args with
      | [v] =>
        match c.strange? ["key", "reverse"] with
        | some word => EvalM.fault (badName word "sort")
        | none =>
          let items ← iterate v
          let down := ((c.named? "reverse").map truth).getD false
          return .list (← EvalM.ofFault (sortByKey down (← keyed items)))
      | _ =>
        EvalM.fault (.badType ("sorted expected 1 argument, got " ++ toString c.args.length))
    | .builtin .hyperlink => EvalM.ofFault (linkOf c)
    | .builtin .range =>
      match c.named with
      | (word, _) :: _ => EvalM.fault (unexpectedName "safe_range" word)
      | [] => EvalM.ofFault (rangeOf c.args)
    | .builtin .dict => do
      let named : List (Value × Value) := c.named.map fun (k, v) => (.text k, v)
      match c.args with
      | [] => return .dict (← EvalM.ofFault (putAll [] named))
      | [v] =>
        let entries ← entriesOf v
        return .dict (← EvalM.ofFault (do putAll (← putAll [] entries) named))
      | _ => EvalM.fault (tooMany "dict" 1 c.args.length)
    | .builtin _ => return .null
    | _ => EvalM.fault (.notCallable f.typeName)

def invoke (host : Host) (f : Value) (c : Call) : EvalM Value := callValue host 3 f c

end Expr

end SheetTemplate
