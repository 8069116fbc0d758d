import SheetTemplate.Expr.Eval
import SheetTemplate.Expr.Parser

namespace SheetTemplate.Expr

open Text Value

def isLiteral : Value → Bool
  | .null | .bool _ | .int _ | .float _ | .text _ | .range _ _ _ => true
  | .list items | .tuple items | .set items => allLiteral items
  | .dict entries => allLiteralEntries entries
  | _ => false
where
  allLiteral : List Value → Bool
    | [] => true
    | v :: rest => isLiteral v && allLiteral rest
  allLiteralEntries : List (Value × Value) → Bool
    | [] => true
    | (k, v) :: rest => isLiteral k && isLiteral v && allLiteralEntries rest

def constantScope : Scope := { find? := none, host := fun _ _ => EvalM.fault noValue }

def constant? (e : Expr) : Option Value :=
  match ((eval constantScope e).run []).1 with
  | .ok v => if isLiteral v then some v else none
  | .error _ => none

def settle (e : Expr) : Expr :=
  match constant? e with
  | some v => .const v
  | none => e

mutual

def fold : Expr → Expr
  | .const v => .const v
  | .name n => .name n
  | .list items => settle (.list (foldAll items))
  | .tuple items => settle (.tuple (foldAll items))
  | .dict entries => settle (.dict (foldEntries entries))
  | .property holder n => settle (.property (fold holder) n)
  | .item holder key => settle (.item (fold holder) (fold key))
  | .slice holder start stop step =>
    settle (.slice (fold holder) (foldBound start) (foldBound stop) (foldBound step))
  | .call f arguments => .call (fold f) (foldArguments arguments)
  | .filter subject n arguments => settle (.filter (fold subject) n (foldArguments arguments))
  | .test subject n arguments => settle (.test (fold subject) n (foldArguments arguments))
  | .unary op operand => settle (.unary op (fold operand))
  | .binary op left right => settle (.binary op (fold left) (fold right))
  | .concat parts => settle (.concat (foldAll parts))
  | .compare first rest => settle (.compare (fold first) (foldChain rest))
  | .and left right => settle (.and (fold left) (fold right))
  | .or left right => settle (.or (fold left) (fold right))
  | .not operand => settle (.not (fold operand))
  | .cond condition yes no line => settle (.cond (fold condition) (fold yes) (foldBound no) line)

def foldBound : Option Expr → Option Expr
  | none => none
  | some e => some (fold e)

def foldAll : List Expr → List Expr
  | [] => []
  | e :: rest => fold e :: foldAll rest

def foldEntries : List (Expr × Expr) → List (Expr × Expr)
  | [] => []
  | (k, e) :: rest => (fold k, fold e) :: foldEntries rest

def foldChain : List (Comparison × Expr) → List (Comparison × Expr)
  | [] => []
  | (op, e) :: rest => (op, fold e) :: foldChain rest

def foldArguments : List Argument → List Argument
  | [] => []
  | a :: rest => foldArgument a :: foldArguments rest

def foldArgument : Argument → Argument
  | .positional e => .positional (fold e)
  | .named n e => .named n (fold e)
  | .spread e => .spread (fold e)
  | .spreadNamed e => .spreadNamed (fold e)

end

inductive Defect where
  | unknownFilter (n : String)
  | unknownPredicate (n : String)
  | repeatedName
  deriving DecidableEq, Repr

def Argument.givenName? : Argument → Option String
  | .named n _ => some n
  | _ => none

def hasRepeatedName (arguments : List Argument) : Bool :=
  let names := arguments.filterMap Argument.givenName?
  names.eraseDups.length != names.length

def repeatedName? (arguments : List Argument) : Option Defect :=
  if hasRepeatedName arguments then some .repeatedName else none

mutual

def defect? (guarded : Bool) : Expr → Option Defect
  | .const _ | .name _ => none
  | .list items | .tuple items | .concat items => defectIn guarded items
  | .dict entries => defectInEntries guarded entries
  | .property holder _ => defect? guarded holder
  | .item holder key => (defect? guarded holder).or (defect? guarded key)
  | .slice holder start stop step =>
    (defect? guarded holder).or ((defectInBound guarded start).or
      ((defectInBound guarded stop).or (defectInBound guarded step)))
  | .call f arguments =>
    (defect? guarded f).or ((defectInArguments guarded arguments).or (repeatedName? arguments))
  | .filter subject n arguments =>
    if !guarded && !filterNames.contains n then some (.unknownFilter n)
    else
      (defect? guarded subject).or
        ((defectInArguments guarded arguments).or (repeatedName? arguments))
  | .test subject n arguments =>
    if !guarded && !predicateNames.contains n then some (.unknownPredicate n)
    else
      (defect? guarded subject).or
        ((defectInArguments guarded arguments).or (repeatedName? arguments))
  | .unary _ operand | .not operand => defect? guarded operand
  | .binary _ left right | .and left right | .or left right =>
    (defect? guarded left).or (defect? guarded right)
  | .compare first rest => (defect? guarded first).or (defectInChain guarded rest)
  | .cond condition yes no _ =>
    (defect? true condition).or ((defect? true yes).or (defectInBound true no))

def defectInBound (guarded : Bool) : Option Expr → Option Defect
  | none => none
  | some e => defect? guarded e

def defectIn (guarded : Bool) : List Expr → Option Defect
  | [] => none
  | e :: rest => (defect? guarded e).or (defectIn guarded rest)

def defectInEntries (guarded : Bool) : List (Expr × Expr) → Option Defect
  | [] => none
  | (k, e) :: rest =>
    (defect? guarded k).or ((defect? guarded e).or (defectInEntries guarded rest))

def defectInChain (guarded : Bool) : List (Comparison × Expr) → Option Defect
  | [] => none
  | (_, e) :: rest => (defect? guarded e).or (defectInChain guarded rest)

def defectInArguments (guarded : Bool) : List Argument → Option Defect
  | [] => none
  | a :: rest => (defectInArgument guarded a).or (defectInArguments guarded rest)

def defectInArgument (guarded : Bool) : Argument → Option Defect
  | .positional e | .named _ e | .spread e | .spreadNamed e => defect? guarded e

end

def malformed (text reason : String) : Failure :=
  .template { cause := .malformed text reason, expression := some text }

def compile (source : String) : Except Failure Expr :=
  let text := stripText source
  if text.isEmpty then .error (.template { cause := .emptyExpression, expression := some text })
  else
    match parse text with
    | .error (.malformed reason) => .error (malformed text reason)
    | .error .broken => .error (.library .syntaxText)
    | .ok e =>
      let e := fold e
      match defect? false e with
      | none => .ok e
      | some (.unknownFilter n) =>
        .error (malformed text ("No filter named " ++ quoted n ++ "."))
      | some (.unknownPredicate n) =>
        .error (malformed text ("No test named " ++ quoted n ++ "."))
      | some .repeatedName => .error (.library .syntaxText)

end SheetTemplate.Expr
