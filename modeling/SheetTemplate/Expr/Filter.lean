import SheetTemplate.Expr.Predicate

namespace SheetTemplate.Expr

open Number Text Value

def filterFault (text : String) : Fault := ⟨.filterArgument, text⟩

def isTitleBreak (c : Char) : Bool :=
  isBlank c || c == '-' || c == '(' || c == '\x7b' || c == '[' || c == '<'

def titleWords (inWord : List Char) : List Char → List Char
  | [] => finish inWord.reverse
  | c :: cs =>
    if isTitleBreak c then finish inWord.reverse ++ c :: titleWords [] cs
    else titleWords (c :: inWord) cs
where
  finish : List Char → List Char
    | [] => []
    | c :: cs => upper [c] ++ lower cs

def pathParts (v : Value) : List Value :=
  match v with
  | .null => []
  | .text s =>
    (splitOnChar '.' s.toList).map fun part =>
      if nonEmptyAll isDigit part then
        match readInt? 10 part with
        | some n => .int n
        | none => ofChars part
      else ofChars part
  | _ => [v]

def followPath (v : Value) (parts : List Value) : Except Fault Value := parts.foldlM Value.item v

def followPathOr (fallback : Value) (v : Value) (parts : List Value) : Except Fault Value :=
  parts.foldlM
    (fun v part => do
      let x ← v.item part
      .ok (if x.isMissing then
        match fallback with
        | .null => x
        | other => other
      else x))
    v

def ignoreCase (v : Value) : Value :=
  match v with
  | .text s => ofChars (lower s.toList)
  | _ => v

def sortKey (path : Value) (exact : Bool) (v : Value) : Except Fault Value := do
  let paths : List (List Value) := match path with
    | .text s => (splitOnChar ',' s.toList).map fun p => pathParts (ofChars p)
    | _ => [pathParts path]
  let fields ← paths.mapM (followPath v)
  .ok (.list (if exact then fields else fields.map ignoreCase))

def bestItem (better : Value.Ordering) (v : Value) (exact : Bool) (path : Value) :
    EvalM Value := do
  let items ← iterate v
  match items with
  | [] => return .missing { reason := "No aggregated item, sequence was empty." }
  | _ =>
    let keyed ← EvalM.ofFault (items.mapM fun x => do
      let k ← followPath x (pathParts path)
      .ok (if exact then k else ignoreCase k, x))
    return ((← EvalM.ofFault (bestOf better keyed)).getD .null)

def notReversible (v : Value) : Fault :=
  .badType ("'" ++ v.typeName ++ "' object is not reversible")

def lastItem (v : Value) : EvalM Value := do
  match v with
  | .set _ | .stream _ _ => EvalM.fault (notReversible v)
  | _ =>
    match v.length? with
    | none => EvalM.fault (notReversible v)
    | some _ =>
      match (← iterate v).getLast? with
      | some x => return x
      | none => return .missing { reason := "No last item, sequence was empty." }

def firstItem (v : Value) : EvalM Value := do
  match v with
  | .stream _ id =>
    match ← EvalM.next? id with
    | some x => return x
    | none => return .missing { reason := "No first item, sequence was empty." }
  | _ =>
    match ← iterate v with
    | x :: _ => return x
    | [] => return .missing { reason := "No first item, sequence was empty." }

def wholeOr (v fallback base : Value) : Except Fault Value :=
  let direct : Except Fault Int := match v.text? with
    | some _ => toWholeBase v base
    | none => toWhole v
  let orFallback (f : Fault) : Except Fault Value :=
    if f.kind = .type ∨ f.kind = .value ∨ f.kind = .overflow then .ok fallback else .error f
  match direct with
  | .ok n => .ok (.int n)
  | .error f =>
    if f.kind = .type ∨ f.kind = .value then
      match toReal v with
      | .ok x =>
        match wholeOfFloat x with
        | .ok n => .ok (.int n)
        | .error f => orFallback f
      | .error f => orFallback f
    else .error f

def realOr (v fallback : Value) : Except Fault Value :=
  match toReal v with
  | .ok x => .ok (.float x)
  | .error f =>
    if f.kind = .type ∨ f.kind = .value then .ok fallback else .error f

def roundBy (v precision method : Value) : Except Fault Value :=
  match method with
  | .text m =>
    if m == "common" then roundValue v (some precision)
    else if m == "ceil" || m == "floor" then do
      let unit ← applyBinary .pow (.int 10) precision
      let scaled ← applyBinary .mul v unit
      let x ← toReal scaled
      let n ← wholeOfFloat (if m == "ceil" then x.ceil else x.floor)
      applyBinary .div (.int n) unit
    else .error (filterFault "method must be common, ceil or floor")
  | _ => .error (filterFault "method must be common, ceil or floor")

def distinct : List (Value × Value) → List Value → List Value
  | [], _ => []
  | (k, v) :: rest, seen =>
    if seen.any fun s => s.eq k then distinct rest seen else v :: distinct rest (k :: seen)

def param (bound : List (Option Value)) (i : Nat) (fallback : Value) : Value :=
  ((bound[i]?).getD none).getD fallback

def lazily (v : Value) (f : Value → EvalM (Option Value)) : EvalM Value := do
  let rec go : List Value → EvalM (List (Except Failure Value))
    | [] => return []
    | x :: rest => do
      match ← observing (f x) with
      | .ok none => go rest
      | .ok (some y) => return .ok y :: (← go rest)
      | .error e => return [.error e]
  match ← observing (iterate v) with
  | .ok items => EvalM.newStream (← go items)
  | .error e => EvalM.newStream [.error e]
where
  observing {α : Type} (m : EvalM α) : EvalM (Except Failure α) :=
    tryCatch (do return .ok (← m)) fun e => return .error e

def failing (f : Fault) : EvalM Value := EvalM.newStream [.error (.plain f)]

def plainFilter? (word : String) (v : Value) (c : Call) : Option (EvalM Value) :=
  let all : Call := { c with args := v :: c.args }
  let text : Value → List Char := fun v => v.shown.toList
  let bound (function : String) (names : List String) (required : Nat)
      (f : List (Option Value) → EvalM Value) : Option (EvalM Value) :=
    some (do f (← EvalM.ofFault (all.bind function names required)))
  let withContext (function : String) (first : String) (names : List String) (required : Nat)
      (f : List (Option Value) → EvalM Value) : Option (EvalM Value) :=
    let all : Call := { all with args := .null :: all.args }
    some (do f ((← EvalM.ofFault (all.bind function (first :: names) (required + 1))).drop 1))
  if word == "upper" then
    bound "do_upper" ["s"] 1 fun _ => return ofChars (upper (text v))
  else if word == "lower" then
    bound "do_lower" ["s"] 1 fun _ => return ofChars (lower (text v))
  else if word == "capitalize" then
    bound "do_capitalize" ["s"] 1 fun _ => return ofChars (capitalize (text v))
  else if word == "title" then
    bound "do_title" ["s"] 1 fun _ => return ofChars (titleWords [] (text v))
  else if word == "string" then
    bound "soft_str" ["s"] 1 fun _ => return .text v.shown
  else if word == "trim" then
    bound "do_trim" ["value", "chars"] 1 fun b =>
      EvalM.ofFault (stripWith "strip" [param b 1 .null] fun p => trim p (text v))
  else if word == "length" || word == "count" then
    some (EvalM.ofFault (do lengthOf (← all.only "len")))
  else if word == "abs" then some (EvalM.ofFault (do absolute (← all.only "abs")))
  else if word == "default" || word == "d" then
    bound "do_default" ["value", "default_value", "boolean"] 1 fun b =>
      let fallback := param b 1 (.text "")
      if v.isMissing || ((param b 2 (.bool false)).truth && !v.truth) then return fallback
      else return v
  else if word == "join" then
    withContext "sync_do_join" "eval_ctx" ["value", "d", "attribute"] 1 fun b => do
      let items ← iterate v
      let path := param b 2 .null
      let items ← if path.truth then
        EvalM.ofFault (items.mapM fun x => followPath x (pathParts path))
        else pure items
      return .text (joinText (param b 1 (.text "")).shown (items.map shown))
  else if word == "first" then
    withContext "sync_do_first" "environment" ["seq"] 1 fun _ => firstItem v
  else if word == "last" then
    withContext "do_last" "environment" ["seq"] 1 fun _ => lastItem v
  else if word == "sum" then
    withContext "sync_do_sum" "environment" ["iterable", "attribute", "start"] 1 fun b => do
      let items ← iterate v
      let path := param b 1 .null
      EvalM.ofFault (do
        sumFrom (param b 2 (.int 0)) (← items.mapM fun x => followPath x (pathParts path)))
  else if word == "sort" then
    withContext "do_sort" "environment" ["value", "reverse", "case_sensitive", "attribute"] 1
      fun b => do
        let items ← iterate v
        EvalM.ofFault (do
          let keyed ← items.mapM fun x => do
            .ok (← sortKey (param b 3 .null) (param b 2 (.bool false)).truth x, x)
          .ok (.list (← sortByKey (param b 1 (.bool false)).truth keyed)))
  else if word == "max" || word == "min" then
    withContext ("do_" ++ word) "environment" ["value", "case_sensitive", "attribute"] 1 fun b =>
      bestItem (if word == "max" then .gt else .lt) v (param b 1 (.bool false)).truth
        (param b 2 .null)
  else if word == "replace" then
    withContext "do_replace" "eval_ctx" ["s", "old", "new", "count"] 3 fun b =>
      EvalM.ofFault (do
        let count ← match param b 3 .null with
          | .null => .ok none
          | n => do
            let k ← whole n
            .ok (if k < 0 then none else some k.toNat)
        .ok (ofChars (replaceIn (text v) (text (param b 1 .null)) (text (param b 2 .null)) count)))
  else if word == "round" then
    bound "do_round" ["value", "precision", "method"] 1 fun b =>
      EvalM.ofFault (roundBy v (param b 1 (.int 0)) (param b 2 (.text "common")))
  else if word == "int" then
    bound "do_int" ["value", "default", "base"] 1 fun b =>
      EvalM.ofFault (wholeOr v (param b 1 (.int 0)) (param b 2 (.int 10)))
  else if word == "float" then
    bound "do_float" ["value", "default"] 1 fun b =>
      EvalM.ofFault (realOr v (param b 1 (.float 0)))
  else if word == "list" then
    bound "sync_do_list" ["value"] 1 fun _ => return .list (← iterate v)
  else if word == "reverse" then
    bound "do_reverse" ["value"] 1 fun _ => do
      match v with
      | .text s => return ofChars s.toList.reverse
      | _ =>
        if isIterable v then
          let items ← iterate v
          EvalM.newStream (items.reverse.map .ok)
        else EvalM.fault (filterFault "argument must be iterable")
  else if word == "unique" then
    withContext "sync_do_unique" "environment" ["value", "case_sensitive", "attribute"] 1
      fun b => do
        let items ← iterate v
        let keyed ← EvalM.ofFault (items.mapM fun x => do
          let k ← followPath x (pathParts (param b 2 .null))
          .ok (if (param b 1 (.bool false)).truth then k else ignoreCase k, x))
        EvalM.newStream ((distinct keyed []).map .ok)
  else if word == "items" then
    bound "do_items" ["value"] 1 fun _ =>
      match v with
      | .missing _ => EvalM.newStream []
      | .dict entries => EvalM.newStream (entries.map fun (k, x) => .ok (.tuple [k, x]))
      | _ => failing (.badType "Can only get item pairs from a mapping.")
  else if word == "center" then
    bound "do_center" ["value", "width"] 1 fun b =>
      EvalM.ofFault (do .ok (ofChars (centred (text v) (← whole (param b 1 (.int 80))) ' ')))
  else if word == "wordcount" then
    bound "do_wordcount" ["s"] 1 fun _ => do
      let isPlain (c : Char) : Bool := !isWord c
      return .int (((splitWhere isPlain (text v)).filter fun w => !w.isEmpty).length)
  else if word == "format" then
    some (if !c.args.isEmpty && !c.named.isEmpty then
        EvalM.fault (filterFault "can't handle positional and keyword arguments at the same time")
      else
        EvalM.ofFault (fillPattern v.shown (if c.args.isEmpty then
          .dict (c.named.map fun (k, x) => (.text k, x)) else .tuple c.args)))
  else none
where
  splitWhere (p : Char → Bool) : List Char → List (List Char)
    | [] => [[]]
    | c :: cs =>
      if p c then [] :: splitWhere p cs
      else
        match splitWhere p cs with
        | [] => [[c]]
        | w :: rest => (c :: w) :: rest

def noFilter (word : String) : Fault :=
  ⟨.templateRuntime, "No filter named " ++ quoted word ++ "."⟩

def noPredicate (word : String) : Fault :=
  ⟨.templateRuntime, "No test named " ++ quoted word ++ "."⟩

def chosen (v : Value) (keep : Bool) (view : Value → Except Fault Value) (args : List Value)
    (named : List (String × Value)) : EvalM Value := do
  if !v.truth then EvalM.newStream []
  else
    match args with
    | [] => lazily v fun x => do
        let seen ← EvalM.ofFault (view x)
        return if seen.truth == keep then some x else none
    | .text question :: rest =>
      if !predicateNames.contains question then failing (noPredicate question)
      else lazily v fun x => do
        let seen ← EvalM.ofFault (view x)
        return if (← holds question seen { args := rest, named := named }) == keep then some x
          else none
    | other :: _ => failing (noPredicate other.shown)

def applyFilter : Nat → String → Value → Call → EvalM Value
  | 0, word, _, _ => EvalM.fault (noFilter word)
  | depth + 1, word, v, c =>
    match plainFilter? word v c with
    | some result => result
    | none => do
      if word == "map" then
        if !v.truth then EvalM.newStream []
        else
          match c.args with
          | [] =>
            match c.named? "attribute" with
            | some path =>
              match c.strange? ["attribute", "default"] with
              | some other =>
                failing (filterFault ("Unexpected keyword argument " ++ quoted other))
              | none => do
                let fallback := (c.named? "default").getD .null
                lazily v fun x => do
                  return some (← EvalM.ofFault (followPathOr fallback x (pathParts path)))
            | none => failing (filterFault "map requires a filter argument")
          | .text step :: rest =>
            if !filterNames.contains step then failing (noFilter step)
            else do
              lazily v fun x => do
                return some (← applyFilter depth step x { args := rest, named := c.named })
          | other :: _ => failing (noFilter other.shown)
      else if word == "select" then chosen v true .ok c.args c.named
      else if word == "reject" then chosen v false .ok c.args c.named
      else if word == "selectattr" || word == "rejectattr" then
        match c.args with
        | [] => failing (filterFault "Missing parameter for attribute name")
        | path :: rest =>
          chosen v (word == "selectattr") (fun x => followPath x (pathParts path)) rest c.named
      else return v

end SheetTemplate.Expr
