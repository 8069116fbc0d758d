import SheetTemplate.Expr.Function

namespace SheetTemplate.Expr

open Number Text Value

def predicateNames : List String :=
  ["odd", "even", "divisibleby", "defined", "undefined", "filter", "test", "none", "boolean",
    "false", "true", "integer", "float", "lower", "upper", "string", "mapping", "number",
    "sequence", "iterable", "callable", "sameas", "escaped", "in", "==", "eq", "equalto", "!=",
    "ne", ">", "gt", "greaterthan", ">=", "ge", "<", "lt", "lessthan", "<=", "le"]

def filterNames : List String :=
  ["abs", "attr", "batch", "capitalize", "center", "count", "d", "default", "dictsort", "e",
    "escape", "filesizeformat", "first", "float", "forceescape", "format", "groupby", "indent",
    "int", "items", "join", "last", "length", "list", "lower", "map", "max", "min", "pprint",
    "random", "reject", "rejectattr", "replace", "reverse", "round", "safe", "select",
    "selectattr", "slice", "sort", "string", "striptags", "sum", "title", "tojson", "trim",
    "truncate", "unique", "upper", "urlencode", "urlize", "wordcount", "wordwrap", "xmlattr"]

def isNumber : Value → Bool
  | .int _ | .bool _ | .float _ | .decimal _ => true
  | .scalar (.int64 _) | .scalar (.float64 _) | .scalar (.float32 _) => true
  | _ => false

def isIterable (v : Value) : Bool :=
  match v with
  | .stream _ _ | .missing _ => true
  | _ => v.length?.isSome

def isSequenceLike : Value → Bool
  | .missing _ => false
  | .set _ | .view _ _ => false
  | v => v.length?.isSome

def isCallable : Value → Bool
  | .builtin _ | .hosted _ | .method _ _ | .missing _ => true
  | _ => false

def remainderIs (v divisor : Value) (n : Int) : Except Fault Bool := do
  .ok ((← applyBinary .mod v divisor).eq (.int n))

def namedOrdering? (test : String) : Option Value.Ordering :=
  if ["gt", ">", "greaterthan"].contains test then some .gt
  else if ["ge", ">="].contains test then some .ge
  else if ["lt", "<", "lessthan"].contains test then some .lt
  else if ["le", "<="].contains test then some .le
  else none

def plainPredicate? (test : String) (v : Value) : Option (Except Fault Bool) :=
  if test == "defined" then some (.ok !v.isMissing)
  else if test == "undefined" then some (.ok v.isMissing)
  else if test == "none" then some (.ok (match v with
    | .null => true
    | _ => false))
  else if test == "boolean" then some (.ok (match v with
    | .bool _ => true
    | _ => false))
  else if test == "true" then some (.ok (match v with
    | .bool b => b
    | _ => false))
  else if test == "false" then some (.ok (match v with
    | .bool b => !b
    | _ => false))
  else if test == "integer" then some (.ok (match v with
    | .int _ => true
    | _ => false))
  else if test == "float" then some (.ok (match v with
    | .float _ | .scalar (.float64 _) => true
    | _ => false))
  else if test == "number" then some (.ok (isNumber v))
  else if test == "string" then some (.ok v.text?.isSome)
  else if test == "mapping" then some (.ok (match v with
    | .dict _ => true
    | _ => false))
  else if test == "sequence" then some (.ok (isSequenceLike v))
  else if test == "iterable" then some (.ok (isIterable v))
  else if test == "callable" then some (.ok (isCallable v))
  else if test == "escaped" then some (.ok false)
  else if test == "filter" then some (.ok ((v.text?.map filterNames.contains).getD false))
  else if test == "test" then some (.ok ((v.text?.map predicateNames.contains).getD false))
  else if test == "lower" then some (.ok (isLowerText v.shown.toList))
  else if test == "upper" then some (.ok (isUpperText v.shown.toList))
  else if test == "odd" then some (remainderIs v (.int 2) 1)
  else if test == "even" then some (remainderIs v (.int 2) 0)
  else none

def holds (test : String) (v : Value) (c : Call) : EvalM Bool := do
  let all : Call := { c with args := v :: c.args }
  match plainPredicate? test v with
  | some answer =>
    let subject := if test == "filter" || test == "test" then "env" else "value"
    let _ ← EvalM.ofFault (all.bind ("test_" ++ test) [subject] 1)
    EvalM.ofFault answer
  | none =>
    match c.args with
    | [other] =>
      if test == "divisibleby" then EvalM.ofFault (remainderIs v other 0)
      else if test == "in" then within v other
      else if test == "sameas" then return v.eq other
      else if ["==", "eq", "equalto"].contains test then return v.eq other
      else if ["!=", "ne"].contains test then return !v.eq other
      else
        match namedOrdering? test with
        | some o => EvalM.ofFault (v.order o other)
        | none => return true
    | _ =>
      if test == "divisibleby" then
        match ← EvalM.ofFault (all.bind "test_divisibleby" ["value", "num"] 2) with
        | [_, some other] => EvalM.ofFault (remainderIs v other 0)
        | _ => return false
      else if test == "in" then
        let _ ← EvalM.ofFault (all.bind "test_in" ["value", "seq"] 2)
        return false
      else if test == "sameas" then
        let _ ← EvalM.ofFault (all.bind "test_sameas" ["value", "other"] 2)
        return false
      else
        let function := if ["==", "eq", "equalto"].contains test then "eq"
          else if ["!=", "ne"].contains test then "ne"
          else
            match namedOrdering? test with
            | some .lt => "lt"
            | some .le => "le"
            | some .gt => "gt"
            | some .ge => "ge"
            | none => test
        EvalM.fault (.badType (function ++ " expected 2 arguments, got " ++
          toString (c.args.length + 1)))

end SheetTemplate.Expr
