import SheetTemplate.Expr.Arith

namespace SheetTemplate

open Number Text

namespace Value

def listMethods : List String :=
  ["append", "clear", "copy", "count", "extend", "index", "insert", "pop", "remove", "reverse",
    "sort"]

def textMethods : List String :=
  ["capitalize", "casefold", "center", "count", "encode", "endswith", "expandtabs", "find",
    "format", "format_map", "index", "isalnum", "isalpha", "isascii", "isdecimal", "isdigit",
    "isidentifier", "islower", "isnumeric", "isprintable", "isspace", "istitle", "isupper", "join",
    "ljust", "lower", "lstrip", "maketrans", "partition", "removeprefix", "removesuffix", "replace",
    "rfind", "rindex", "rjust", "rpartition", "rsplit", "rstrip", "split", "splitlines",
    "startswith", "strip", "swapcase", "title", "translate", "upper", "zfill"]

def dictMethods : List String :=
  ["clear", "copy", "fromkeys", "get", "items", "keys", "pop", "popitem", "setdefault", "update",
    "values"]

def setMethods : List String :=
  ["add", "clear", "copy", "difference", "discard", "intersection", "isdisjoint", "issubset",
    "issuperset", "pop", "remove", "symmetric_difference", "union", "update"]

def bytesMethods : List String :=
  ["capitalize", "count", "decode", "endswith", "find", "hex", "index", "isdigit", "join", "lower",
    "replace", "split", "startswith", "strip", "title", "upper"]

def wholeMethods : List String :=
  ["as_integer_ratio", "bit_count", "bit_length", "conjugate", "from_bytes", "to_bytes"]

def floatMethods : List String :=
  ["as_integer_ratio", "conjugate", "fromhex", "hex", "is_integer"]

def decimalMethods : List String :=
  ["adjusted", "as_integer_ratio", "as_tuple", "compare", "copy_abs", "is_finite", "is_nan",
    "is_zero", "normalize", "quantize", "sqrt", "to_eng_string", "to_integral_value"]

def dateMethods : List String :=
  ["ctime", "isocalendar", "isoformat", "isoweekday", "replace", "strftime", "timetuple",
    "toordinal", "weekday"]

def momentMethods : List String :=
  dateMethods ++ ["astimezone", "date", "dst", "time", "timestamp", "timetz", "tzname", "utcoffset"]

def clockMethods : List String := ["dst", "isoformat", "replace", "strftime", "tzname", "utcoffset"]

def methodNames : Value → List String
  | text _ | scalar (.text _) => textMethods
  | list _ => listMethods
  | tuple _ | range _ _ _ => ["count", "index"]
  | dict _ => dictMethods
  | set _ => setMethods
  | bytes _ | picture _ => bytesMethods
  | int _ | bool _ => wholeMethods
  | float _ => floatMethods
  | decimal _ => decimalMethods
  | date _ => dateMethods
  | moment _ | timestamp _ => momentMethods
  | clock _ => clockMethods
  | duration _ => ["total_seconds"]
  | scalar _ => ["item", "tolist"]
  | array _ | series _ => ["tolist", "sum", "min", "max", "mean", "item"]
  | updater _ => ["update_cell_data"]
  | _ => []

def part? (v : Value) (name : String) : Option Value :=
  let nat (n : Nat) : Option Value := some (.int n)
  match v with
  | record fields => (fields.find? fun f => f.1 == name).map (·.2)
  | group item members =>
    if name == "item" then some item else if name == "items" then some (.list members) else none
  | link url display =>
    if name == "url" then some (.text url)
    else if name == "display" then some (.text display) else none
  | int n =>
    if name == "real" || name == "numerator" then some (.int n)
    else if name == "imag" then some (.int 0)
    else if name == "denominator" then some (.int 1) else none
  | bool b =>
    let n : Int := if b then 1 else 0
    if name == "real" || name == "numerator" then some (.int n)
    else if name == "imag" then some (.int 0)
    else if name == "denominator" then some (.int 1) else none
  | float x =>
    if name == "real" then some (.float x) else if name == "imag" then some (.float 0) else none
  | decimal d =>
    if name == "real" then some (.decimal d)
    else if name == "imag" then some (.decimal .zero) else none
  | date d =>
    if name == "year" then nat d.year else if name == "month" then nat d.month
    else if name == "day" then nat d.day else none
  | moment m | timestamp m =>
    if name == "year" then nat m.date.year else if name == "month" then nat m.date.month
    else if name == "day" then nat m.date.day else if name == "hour" then nat m.clock.hour
    else if name == "minute" then nat m.clock.minute
    else if name == "second" then nat m.clock.second
    else if name == "microsecond" then nat m.clock.micro
    else if name == "tzinfo" then some .null
    else if name == "fold" then nat 0 else none
  | clock c =>
    if name == "hour" then nat c.hour else if name == "minute" then nat c.minute
    else if name == "second" then nat c.second else if name == "microsecond" then nat c.micro
    else if name == "tzinfo" then some .null
    else if name == "fold" then nat 0 else none
  | duration n =>
    let rest := (Int.fmod n microsPerDay).toNat
    if name == "days" then some (.int (Int.fdiv n microsPerDay))
    else if name == "seconds" then nat (rest / 1000000)
    else if name == "microseconds" then nat (rest % 1000000) else none
  | range a b c =>
    if name == "start" then some (.int a) else if name == "stop" then some (.int b)
    else if name == "step" then some (.int c) else none
  | scalar s =>
    if name == "real" then some (.scalar s)
    else if name == "dtype" then none else none
  | _ => none

def attribute? (v : Value) (name : String) : Option Value :=
  match v.part? name with
  | some p => some p
  | none => if v.methodNames.contains name then some (.method v name) else none

def internalNames : List String :=
  ["__class__", "__doc__", "__dir__", "__eq__", "__ne__", "__hash__", "__init__", "__new__",
    "__repr__", "__str__", "__sizeof__", "__reduce__", "__format__", "__getattribute__",
    "__setattr__", "__delattr__", "__lt__", "__le__", "__gt__", "__ge__", "__init_subclass__",
    "__subclasshook__", "__reduce_ex__"]

def hasInternal (v : Value) (name : String) : Bool :=
  internalNames.contains name ||
    (match v with
     | record _ | group _ _ | link _ _ => name == "__dict__" || name == "__module__"
     | list _ | tuple _ | dict _ | text _ => name == "__len__" || name == "__contains__" ||
         name == "__iter__" || name == "__getitem__"
     | _ => false)

def ownerName (v : Value) : String :=
  match v with
  | null => "None"
  | decimal _ => "decimal.Decimal object"
  | date _ => "datetime.date object"
  | moment _ => "datetime.datetime object"
  | clock _ => "datetime.time object"
  | duration _ => "datetime.timedelta object"
  | scalar _ | array _ => "numpy." ++ v.className ++ " object"
  | _ => v.className ++ " object"

def missingPart (v : Value) (name : String) : Value :=
  .missing { reason := quoted v.ownerName ++ " has no attribute " ++ quoted name }

def missingElement (v key : Value) : Value :=
  match key with
  | text name => v.missingPart name
  | _ => .missing { reason := v.ownerName ++ " has no element " ++ key.inner }

def guardedPart (v : Value) (name : String) : Value :=
  .missing
    { reason := "access to attribute " ++ quoted name ++ " of " ++ quoted v.className ++
        " object is unsafe."
      guarded := true }

def place? (length : Nat) (i : Int) : Option Nat :=
  let j := if i < 0 then i + length else i
  if 0 ≤ j ∧ j < length then some j.toNat else none

def isHashable : Value → Bool
  | list _ | dict _ | set _ | array _ => false
  | _ => true

def lookup? (entries : List (Value × Value)) (key : Value) : Option Value :=
  (entries.find? fun (k, _) => key.eq k).map (·.2)

def item? (v key : Value) : Option Value :=
  let index? : Option Int := Expr.wholeIndex? key
  match v with
  | dict entries => if key.isHashable then lookup? entries key else none
  | list items | tuple items =>
    index?.bind fun i => (place? items.length i).bind fun k => items[k]?
  | array items => index?.bind fun i => (place? items.length i).bind fun k => items[k]?.map arrayItem
  | series items =>
    index?.bind fun i => if i < 0 then none else items[i.toNat]?.map arrayItem
  | text s | scalar (.text s) =>
    let cs := s.toList
    index?.bind fun i => (place? cs.length i).bind fun k =>
      cs[k]?.map fun c => .text (String.ofList [c])
  | bytes b =>
    index?.bind fun i => (place? b.length i).bind fun k => b[k]?.map fun x => .int x.toNat
  | range a b c =>
    index?.bind fun i => (place? (rangeLength a b c) i).map fun k => .int (a + c * k)
  | frame rows =>
    match key with
    | text _ => some (.series (rows.map fun
      | dict entries => (lookup? entries key).getD .null
      | _ => .null))
    | _ => none
  | _ => none

def item (v key : Value) : Except Fault Value :=
  match v with
  | missing w => .error (missingFault w)
  | _ =>
    match v.item? key with
    | some x => .ok x
    | none =>
      match key with
      | text name =>
        match v.attribute? name with
        | some x =>
          if Text.startsWith ['_'] name.toList then .ok (v.guardedPart name) else .ok x
        | none =>
          if v.hasInternal name then .ok (v.guardedPart name) else .ok (v.missingElement key)
      | _ => .ok (v.missingElement key)

def property (v : Value) (name : String) : Except Fault Value :=
  let hidden := Text.startsWith ['_'] name.toList
  let absent : Except Fault Value :=
    .error ⟨.property, v.className ++ " object has no attribute " ++ quoted name⟩
  match v with
  | missing w =>
    if internalNames.contains name then .ok (v.guardedPart name) else .error (missingFault w)
  | null =>
    if internalNames.contains name then .ok (v.guardedPart name) else .ok (v.missingPart name)
  | dict entries =>
    if hidden then
      if v.hasInternal name then absent
      else
        match lookup? entries (.text name) with
        | some x => .ok x
        | none => absent
    else
      match lookup? entries (.text name) with
      | some x => .ok x
      | none => .ok ((v.attribute? name).getD .null)
  | _ =>
    if v.hasInternal name then absent
    else
      match v.attribute? name with
      | some x => if hidden then absent else .ok x
      | none => absent

def bound? : Value → Except Fault (Option Int)
  | null => .ok none
  | v =>
    match Expr.wholeIndex? v with
    | some n => .ok (some n)
    | none =>
      .error (.badType "slice indices must be integers or None or have an __index__ method")

def slicePlaces (length : Nat) (start stop : Option Int) (step : Int) : List Nat :=
  let n : Int := length
  let clamp (low high i : Int) : Int :=
    let j := if i < 0 then i + n else i
    if j < low then low else if high < j then high else j
  if 0 < step then
    let a := (start.map (clamp 0 n)).getD 0
    let b := (stop.map (clamp 0 n)).getD n
    (List.range (rangeLength a b step)).map fun i : Nat => (a + step * i).toNat
  else
    let a := (start.map (clamp (-1) (n - 1))).getD (n - 1)
    let b := (stop.map (clamp (-1) (n - 1))).getD (-1)
    (List.range (rangeLength a b step)).map fun i : Nat => (a + step * i).toNat

def slice (v start stop step : Value) : Except Fault Value :=
  match v with
  | missing w => .error (missingFault w)
  | dict _ => .error (.badType "unhashable type: 'slice'")
  | _ =>
    let size? : Option Nat := match v with
      | list items | tuple items | array items | series items => some items.length
      | text s => some s.length
      | bytes b => some b.length
      | range a b c => some (rangeLength a b c)
      | _ => none
    match size? with
    | none => .error (.notSubscriptable v.typeName)
    | some n => do
      let k ← bound? step
      let k := k.getD 1
      if k = 0 then .error (.badValue "slice step cannot be zero")
      else
        let a ← bound? start
        let b ← bound? stop
        let places := slicePlaces n a b k
        match v with
        | list items => .ok (.list (places.filterMap (items[·]?)))
        | tuple items => .ok (.tuple (places.filterMap (items[·]?)))
        | array items => .ok (.array (places.filterMap (items[·]?)))
        | series items => .ok (.series (places.filterMap (items[·]?)))
        | text s =>
          let cs := s.toList
          .ok (.text (String.ofList (places.filterMap (cs[·]?))))
        | bytes b => .ok (.bytes (places.filterMap (b[·]?)))
        | range x _ z =>
          let first : Int := match places with
            | p :: _ => x + z * p
            | [] => x
          .ok (.range first (first + z * k * places.length) (z * k))
        | _ => .ok .null

end Value

end SheetTemplate
