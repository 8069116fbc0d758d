import SheetTemplate.Failure
import SheetTemplate.Value.Shown
import SheetTemplate.Value.Compare

namespace SheetTemplate

open Value

/-- The items still to come from each stream, by number. -/
abbrev Streams := List (List (Except Failure Value))

abbrev EvalM := ExceptT Failure (StateM Streams)

namespace EvalM

def fault {α : Type} (f : Fault) : EvalM α := throw (.plain f)

def ofFault {α : Type} : Except Fault α → EvalM α
  | .ok a => pure a
  | .error f => fault f

def ofFailure {α : Type} : Except Failure α → EvalM α
  | .ok a => pure a
  | .error f => throw f

def newStream (items : List (Except Failure Value)) : EvalM Value := do
  let streams ← get
  set (streams ++ [items])
  return .stream true streams.length

def drain (id : Nat) : EvalM (List Value) := do
  let streams ← get
  set (streams.set id [])
  (streams.getD id []).mapM ofFailure

def next? (id : Nat) : EvalM (Option Value) := do
  let streams ← get
  match streams.getD id [] with
  | [] => return none
  | item :: rest =>
    set (streams.set id rest)
    return some (← ofFailure item)

end EvalM

namespace Value

def missingFault (w : Missing) : Fault := ⟨if w.guarded then .guarded else .undefined, w.reason⟩

def rangeLength (start stop step : Int) : Nat :=
  if 0 < step then ((stop - start + step - 1) / step).toNat
  else if step < 0 then ((start - stop - step - 1) / (-step)).toNat
  else 0

def rangeItems (start stop step : Int) : List Value :=
  (List.range (rangeLength start stop step)).map fun i : Nat => .int (start + step * i)

def chars (s : String) : List Value := s.toList.map fun c => .text (String.ofList [c])

def arrayItem : Value → Value
  | int n => .scalar (.int64 n)
  | float x => .scalar (.float64 x)
  | bool b => .scalar (.bool b)
  | text s => .scalar (.text s)
  | list items => .array items
  | v => v

def iterate (v : Value) : EvalM (List Value) :=
  match v with
  | list items | tuple items | set items => pure items
  | text s => pure (chars s)
  | bytes b => pure (b.map fun x => .int x.toNat)
  | dict entries => pure (entries.map (·.1))
  | view .keys entries => pure (entries.map (·.1))
  | view .values entries => pure (entries.map (·.2))
  | view .items entries => pure (entries.map fun (k, x) => .tuple [k, x])
  | array items => pure (items.map arrayItem)
  | series items => pure items
  | frame rows =>
    match rows with
    | dict entries :: _ => pure (entries.map (·.1))
    | _ => pure []
  | range a b c => pure (rangeItems a b c)
  | stream _ id => EvalM.drain id
  | scalar (.text s) => pure (chars s)
  | missing _ => pure []
  | _ => EvalM.fault (.notIterable v.typeName)

def length? : Value → Option Nat
  | list items | tuple items | set items | array items | series items | frame items =>
    some items.length
  | text s => some s.length
  | scalar (.text s) => some s.length
  | bytes b => some b.length
  | dict entries => some entries.length
  | view _ entries => some entries.length
  | range a b c => some (rangeLength a b c)
  | missing _ => some 0
  | _ => none

def truth (v : Value) : Bool :=
  match v with
  | null => false
  | missing _ => false
  | bool b => b
  | duration n => n != 0
  | _ =>
    match v.length? with
    | some n => n != 0
    | none =>
      match v.number? with
      | some x => !x.eq (.exact 0)
      | none => true

end Value

end SheetTemplate
