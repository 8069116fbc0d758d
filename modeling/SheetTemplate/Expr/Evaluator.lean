import SheetTemplate.Expr.Compile
import SheetTemplate.Names

namespace SheetTemplate

open Text Value

namespace Value

def builtins : Names :=
  [("abs", .abs), ("bool", .bool), ("cycler", .cycler), ("dict", .dict), ("float", .float),
    ("hyperlink", .hyperlink), ("int", .int), ("joiner", .joiner), ("len", .len),
    ("lipsum", .lipsum), ("max", .max), ("min", .min), ("namespace", .namespace),
    ("range", .range), ("round", .round), ("sorted", .sorted), ("str", .str),
    ("sum", .sum)].map fun (n, f) => (n, .builtin f)

end Value

structure Evaluator where
  functions : Names := []
  host : Host := fun n _ => EvalM.fault (.notCallable n)

namespace Evaluator

def functionNames (ev : Evaluator) : List String :=
  ((builtins.override ev.functions).map (·.1)).mergeSort fun a b => decide (a ≤ b)

def scope (ev : Evaluator) (names : String → Option Value) : Scope where
  find? := some fun n => ((names n).or (ev.functions.find? n)).or (builtins.find? n)
  host := ev.host

def explain (text : String) (f : Failure) : Failure :=
  let wrap (fault : Fault) : Failure :=
    .template { cause := .evaluation text fault, expression := some text }
  match f with
  | .template e => if e.cause.family = .expression then f else wrap ⟨.value, e.text⟩
  | .plain fault => wrap fault
  | .library kind => wrap ⟨kind, ""⟩

def evaluate (ev : Evaluator) (names : String → Option Value) (source : String) : EvalM Value := do
  let text := stripText source
  if text.isEmpty then return .null
  else
    let e ← EvalM.ofFailure (Expr.compile text)
    let v ← tryCatch (e.eval (ev.scope names)) fun f => throw (explain text f)
    return if v.isMissing then .null else v

def isTrue (ev : Evaluator) (names : String → Option Value) (condition : String) : EvalM Bool := do
  match ← ev.evaluate names condition with
  | .null => return false
  | .bool b => return b
  | .scalar (.bool b) => return b
  | v =>
    throw (.template
      { cause := .notCondition condition v.className, expression := some condition })

end Evaluator

end SheetTemplate
