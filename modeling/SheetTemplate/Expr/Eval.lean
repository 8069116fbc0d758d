import SheetTemplate.Expr.Filter

/-!
The value of an expression, given what its names mean.
-/

namespace SheetTemplate

open Text Value

structure Scope where
  find? : Option (String → Option Value)
  host : Host

namespace Expr

def undefinedName (n : String) : Value := .missing { reason := quoted n ++ " is undefined" }

def noValue : Fault := ⟨.name, ""⟩

def strayName? : Value → Option String
  | .float x =>
    if Number.isNaN x then some "nan" else if Number.isInfinite x then some "inf" else none
  | .list items => strayIn items
  | .tuple items => strayIn items
  | .dict entries => strayInEntries entries
  | _ => none
where
  strayIn : List Value → Option String
    | [] => none
    | v :: rest => (strayName? v).or (strayIn rest)
  strayInEntries : List (Value × Value) → Option String
    | [] => none
    | (k, v) :: rest => ((strayName? k).or (strayName? v)).or (strayInEntries rest)

def noElse (line : Nat) : Value :=
  .missing
    { reason := "the inline if-expression on line " ++ toString line ++
        " evaluated to false and no else section was defined." }

def answer (left right : Value) (op : Comparison) (b : Bool) : Value :=
  match op with
  | .within | .notWithin => .bool b
  | _ =>
    if (isNumberScalar left && right.number?.isSome) ||
        (isNumberScalar right && left.number?.isSome) then .scalar (.bool b)
    else .bool b

mutual

def eval (s : Scope) : Expr → EvalM Value
  | .const v =>
    match s.find?, strayName? v with
    | some _, some n => EvalM.fault ⟨.name, "name '" ++ n ++ "' is not defined"⟩
    | _, _ => return v
  | .name n =>
    match s.find? with
    | none => EvalM.fault noValue
    | some find? => return if n == "self" then .template else (find? n).getD (undefinedName n)
  | .list items => do return .list (← evalAll s items)
  | .tuple items => do return .tuple (← evalAll s items)
  | .dict entries => do EvalM.ofFault ((putAll [] (← evalEntries s entries)).map .dict)
  | .property holder n => do EvalM.ofFault ((← eval s holder).property n)
  | .item holder key => do
    let v ← eval s holder
    EvalM.ofFault (v.item (← eval s key))
  | .slice holder start stop step => do
    let v ← eval s holder
    let a ← evalBound s start
    let b ← evalBound s stop
    let k ← evalBound s step
    EvalM.ofFault (v.slice a b k)
  | .call f arguments =>
    match s.find? with
    | none => EvalM.fault noValue
    | some _ => do
      let f ← eval s f
      invoke s.host f (← evalArguments s arguments)
  | .filter subject n arguments => do
    if filterNames.contains n then
      let v ← eval s subject
      let c ← evalArguments s arguments
      applyFilter (c.args.length + 2) n v c
    else
      let _ ← eval s subject
      let _ ← evalArguments s arguments
      EvalM.fault ⟨.templateRuntime, "No filter named " ++ quoted n ++ " found."⟩
  | .test subject n arguments => do
    if predicateNames.contains n then
      let v ← eval s subject
      return .bool (← holds n v (← evalArguments s arguments))
    else
      let _ ← eval s subject
      let _ ← evalArguments s arguments
      EvalM.fault ⟨.templateRuntime, "No test named " ++ quoted n ++ " found."⟩
  | .unary op operand => do EvalM.ofFault (applyUnary op (← eval s operand))
  | .binary op left right => do
    let a ← eval s left
    EvalM.ofFault (applyBinary op a (← eval s right))
  | .concat parts => do
    return .text (joinText "" ((← evalAll s parts).map shown))
  | .compare first rest => do evalChain s (← eval s first) rest
  | .and left right => do
    let a ← eval s left
    if a.truth then eval s right else return a
  | .or left right => do
    let a ← eval s left
    if a.truth then return a else eval s right
  | .not operand => do return .bool !(← eval s operand).truth
  | .cond condition yes no line => do
    if (← eval s condition).truth then eval s yes
    else
      match no with
      | some e => eval s e
      | none => return noElse line

def evalBound (s : Scope) : Option Expr → EvalM Value
  | none => return .null
  | some e => eval s e

def evalAll (s : Scope) : List Expr → EvalM (List Value)
  | [] => return []
  | e :: rest => do
    let v ← eval s e
    return v :: (← evalAll s rest)

def evalEntries (s : Scope) : List (Expr × Expr) → EvalM (List (Value × Value))
  | [] => return []
  | (k, e) :: rest => do
    let k ← eval s k
    let v ← eval s e
    return (k, v) :: (← evalEntries s rest)

def evalChain (s : Scope) (left : Value) : List (Comparison × Expr) → EvalM Value
  | [] => return .bool true
  | (op, e) :: rest => do
    let right ← eval s e
    let b ← compareOp op left right
    match b, rest with
    | true, _ :: _ => evalChain s right rest
    | _, _ => return answer left right op b

def evalArguments (s : Scope) : List Argument → EvalM Call
  | [] => return {}
  | a :: rest => do
    let front ← evalArgument s a
    let back ← evalArguments s rest
    return { args := front.args ++ back.args, named := front.named ++ back.named }

def evalArgument (s : Scope) : Argument → EvalM Call
  | .positional e => do return { args := [← eval s e] }
  | .named n e => do return { named := [(n, ← eval s e)] }
  | .spread e => do
    let v ← eval s e
    return { args := ← iterate v }
  | .spreadNamed e => do
    match ← eval s e with
    | .dict entries =>
      return { named := entries.filterMap fun (k, v) => k.text?.map fun n => (n, v) }
    | v =>
      EvalM.fault (.badType ("argument after ** must be a mapping, not " ++ v.className))

end

end Expr

end SheetTemplate
