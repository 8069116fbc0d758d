import SheetTemplate.Expr.Basic
import SheetTemplate.Expr.Token

/-!
Reading tokens as an expression. Each level of precedence is a function; a fault in the text is
met when the token before it is passed.
-/

namespace SheetTemplate.Expr

open Text

inductive ParseFault where
  | malformed (reason : String)
  | broken
  deriving DecidableEq, Repr

abbrev Reader (α : Type) := List Placed → Except ParseFault (α × List Placed)

def fail {α : Type} (reason : String) : Except ParseFault α := .error (.malformed reason)

def advance (ts : List Placed) : Except ParseFault (List Placed) :=
  match ts with
  | _ :: rest =>
    match rest with
    | ⟨_, .bad reason⟩ :: _ => fail reason
    | _ => .ok rest
  | [] => .ok []

def describedFirst : List Placed → String
  | [] => "end of template"
  | t :: _ => t.token.described

def isSymbol (s : String) : List Placed → Bool
  | ⟨_, .symbol t⟩ :: _ => t == s
  | _ => false

def isName (n : String) : List Placed → Bool
  | ⟨_, .name m⟩ :: _ => m == n
  | _ => false

def lineOf : List Placed → Nat
  | [] => 1
  | t :: _ => t.line

def expectAs {α : Type} (wanted : String) (found : Option α) (ts : List Placed) :
    Except ParseFault (α × List Placed) :=
  match found with
  | some a => (advance ts).map fun rest => (a, rest)
  | none =>
    if ts.isEmpty then fail ("unexpected end of template, expected " ++ quoted wanted ++ ".")
    else fail ("expected token " ++ quoted wanted ++ ", got " ++ quoted (describedFirst ts))

def expectSymbol (s : String) (ts : List Placed) : Except ParseFault (List Placed) :=
  (expectAs s (if isSymbol s ts then some () else none) ts).map (·.2)

def expectName (ts : List Placed) : Except ParseFault (String × List Placed) :=
  let found := match ts with
    | ⟨_, .name n⟩ :: _ => some n
    | _ => none
  expectAs "name" found ts

def comparison? : List Placed → Option Comparison
  | ⟨_, .symbol s⟩ :: _ =>
    if s == "==" then some .eq
    else if s == "!=" then some .ne
    else if s == "<" then some (.order .lt)
    else if s == "<=" then some (.order .le)
    else if s == ">" then some (.order .gt)
    else if s == ">=" then some (.order .ge)
    else none
  | _ => none

def sum? : List Placed → Option Binary
  | ⟨_, .symbol s⟩ :: _ => if s == "+" then some .add else if s == "-" then some .sub else none
  | _ => none

def product? : List Placed → Option Binary
  | ⟨_, .symbol s⟩ :: _ =>
    if s == "*" then some .mul
    else if s == "/" then some .div
    else if s == "//" then some .floorDiv
    else if s == "%" then some .mod
    else none
  | _ => none

def joinStrings (s : String) : Nat → Reader String
  | 0, ts => .ok (s, ts)
  | fuel + 1, ts =>
    match ts with
    | ⟨_, .text t⟩ :: _ => do joinStrings (s ++ t) fuel (← advance ts)
    | _ => .ok (s, ts)

def dottedName (n : String) : Nat → Reader String
  | 0, ts => .ok (n, ts)
  | fuel + 1, ts =>
    if isSymbol "." ts then do
      let (part, ts) ← expectName (← advance ts)
      dottedName (n ++ "." ++ part) fuel ts
    else .ok (n, ts)

structure ArgumentsRead where
  items : List Argument := []
  anyNamed : Bool := false
  spread : Bool := false
  spreadNamed : Bool := false

def badCall {α : Type} : Except ParseFault α := fail "invalid syntax for function call expression"

def beginsTestArgument : List Placed → Bool
  | ⟨_, .name n⟩ :: _ => !(n == "else" || n == "or" || n == "and")
  | ⟨_, .text _⟩ :: _ => true
  | ⟨_, .integer _⟩ :: _ => true
  | ⟨_, .float _⟩ :: _ => true
  | ⟨_, .symbol s⟩ :: _ => s == "[" || s == "\x7b"
  | _ => false

mutual

def readExpr : Nat → Reader Expr
  | 0, _ => .error .broken
  | fuel + 1, ts => do
    let (e, ts) ← readOr fuel ts
    readConds fuel e ts

def readConds : Nat → Expr → Reader Expr
  | 0, _, _ => .error .broken
  | fuel + 1, e, ts =>
    if isName "if" ts then do
      let line := lineOf ts
      let (condition, ts) ← readOr fuel (← advance ts)
      if isName "else" ts then
        let (other, ts) ← readExpr fuel (← advance ts)
        readConds fuel (.cond condition e (some other) line) ts
      else readConds fuel (.cond condition e none line) ts
    else .ok (e, ts)

def readOr : Nat → Reader Expr
  | 0, _ => .error .broken
  | fuel + 1, ts => do
    let (e, ts) ← readAnd fuel ts
    readOrs fuel e ts

def readOrs : Nat → Expr → Reader Expr
  | 0, _, _ => .error .broken
  | fuel + 1, e, ts =>
    if isName "or" ts then do
      let (r, ts) ← readAnd fuel (← advance ts)
      readOrs fuel (.or e r) ts
    else .ok (e, ts)

def readAnd : Nat → Reader Expr
  | 0, _ => .error .broken
  | fuel + 1, ts => do
    let (e, ts) ← readNot fuel ts
    readAnds fuel e ts

def readAnds : Nat → Expr → Reader Expr
  | 0, _, _ => .error .broken
  | fuel + 1, e, ts =>
    if isName "and" ts then do
      let (r, ts) ← readNot fuel (← advance ts)
      readAnds fuel (.and e r) ts
    else .ok (e, ts)

def readNot : Nat → Reader Expr
  | 0, _ => .error .broken
  | fuel + 1, ts =>
    if isName "not" ts then do
      let (e, ts) ← readNot fuel (← advance ts)
      .ok (.not e, ts)
    else readCompare fuel ts

def readCompare : Nat → Reader Expr
  | 0, _ => .error .broken
  | fuel + 1, ts => do
    let (e, ts) ← readSum fuel ts
    let (chain, ts) ← readChain fuel ts
    .ok (if chain.isEmpty then e else .compare e chain, ts)

def readChain : Nat → Reader (List (Comparison × Expr))
  | 0, _ => .error .broken
  | fuel + 1, ts =>
    match comparison? ts with
    | some op => do
      let (e, ts) ← readSum fuel (← advance ts)
      let (rest, ts) ← readChain fuel ts
      .ok ((op, e) :: rest, ts)
    | none =>
      if isName "in" ts then do
        let (e, ts) ← readSum fuel (← advance ts)
        let (rest, ts) ← readChain fuel ts
        .ok ((.within, e) :: rest, ts)
      else if isName "not" ts then do
        let next ← advance ts
        if isName "in" next then
          let (e, ts) ← readSum fuel (← advance next)
          let (rest, ts) ← readChain fuel ts
          .ok ((.notWithin, e) :: rest, ts)
        else .ok ([], ts)
      else .ok ([], ts)

def readSum : Nat → Reader Expr
  | 0, _ => .error .broken
  | fuel + 1, ts => do
    let (e, ts) ← readConcat fuel ts
    readSums fuel e ts

def readSums : Nat → Expr → Reader Expr
  | 0, _, _ => .error .broken
  | fuel + 1, e, ts =>
    match sum? ts with
    | some op => do
      let (r, ts) ← readConcat fuel (← advance ts)
      readSums fuel (.binary op e r) ts
    | none => .ok (e, ts)

def readConcat : Nat → Reader Expr
  | 0, _ => .error .broken
  | fuel + 1, ts => do
    let (e, ts) ← readProduct fuel ts
    let (more, ts) ← readConcats fuel ts
    .ok (if more.isEmpty then e else .concat (e :: more), ts)

def readConcats : Nat → Reader (List Expr)
  | 0, _ => .error .broken
  | fuel + 1, ts =>
    if isSymbol "~" ts then do
      let (e, ts) ← readProduct fuel (← advance ts)
      let (more, ts) ← readConcats fuel ts
      .ok (e :: more, ts)
    else .ok ([], ts)

def readProduct : Nat → Reader Expr
  | 0, _ => .error .broken
  | fuel + 1, ts => do
    let (e, ts) ← readPower fuel ts
    readProducts fuel e ts

def readProducts : Nat → Expr → Reader Expr
  | 0, _, _ => .error .broken
  | fuel + 1, e, ts =>
    match product? ts with
    | some op => do
      let (r, ts) ← readPower fuel (← advance ts)
      readProducts fuel (.binary op e r) ts
    | none => .ok (e, ts)

def readPower : Nat → Reader Expr
  | 0, _ => .error .broken
  | fuel + 1, ts => do
    let (e, ts) ← readUnary fuel true ts
    readPowers fuel e ts

def readPowers : Nat → Expr → Reader Expr
  | 0, _, _ => .error .broken
  | fuel + 1, e, ts =>
    if isSymbol "**" ts then do
      let (r, ts) ← readUnary fuel true (← advance ts)
      readPowers fuel (.binary .pow e r) ts
    else .ok (e, ts)

def readUnary : Nat → Bool → Reader Expr
  | 0, _, _ => .error .broken
  | fuel + 1, withFilters, ts => do
    let (e, ts) ←
      if isSymbol "-" ts then do
        let (e, ts) ← readUnary fuel false (← advance ts)
        .ok (.unary .neg e, ts)
      else if isSymbol "+" ts then do
        let (e, ts) ← readUnary fuel false (← advance ts)
        .ok (.unary .pos e, ts)
      else readPrimary fuel ts
    let (e, ts) ← readPostfix fuel e ts
    if withFilters then readFilters fuel e ts else .ok (e, ts)

def readPrimary : Nat → Reader Expr
  | 0, _ => .error .broken
  | fuel + 1, ts =>
    match ts with
    | ⟨_, .name n⟩ :: _ => do
      let rest ← advance ts
      let e : Expr :=
        if n == "true" || n == "True" then .const (.bool true)
        else if n == "false" || n == "False" then .const (.bool false)
        else if n == "none" || n == "None" then .const .null
        else .name n
      .ok (e, rest)
    | ⟨_, .text s⟩ :: _ => do
      let (s, ts) ← joinStrings s fuel (← advance ts)
      .ok (.const (.text s), ts)
    | ⟨_, .integer n⟩ :: _ => do .ok (.const (.int n), ← advance ts)
    | ⟨_, .float x⟩ :: _ => do .ok (.const (.float x), ← advance ts)
    | ⟨_, .symbol s⟩ :: _ =>
      if s == "(" then do
        let (e, ts) ← readTuple fuel (← advance ts)
        .ok (e, ← expectSymbol ")" ts)
      else if s == "[" then do
        let (items, ts) ← readItems fuel true (← advance ts)
        .ok (.list items, ← expectSymbol "]" ts)
      else if s == "\x7b" then do
        let (entries, ts) ← readEntries fuel true (← advance ts)
        .ok (.dict entries, ← expectSymbol "\x7d" ts)
      else fail ("unexpected " ++ quoted s)
    | _ => fail ("unexpected " ++ quoted (describedFirst ts))

def readTuple : Nat → Reader Expr
  | 0, _ => .error .broken
  | fuel + 1, ts => do
    if isSymbol ")" ts then .ok (.tuple [], ts)
    else
      let (e, ts) ← readExpr fuel ts
      if isSymbol "," ts then
        let (more, ts) ← readTupleRest fuel ts
        .ok (.tuple (e :: more), ts)
      else .ok (e, ts)

def readTupleRest : Nat → Reader (List Expr)
  | 0, _ => .error .broken
  | fuel + 1, ts =>
    if isSymbol "," ts then do
      let ts ← advance ts
      if isSymbol ")" ts then .ok ([], ts)
      else
        let (e, ts) ← readExpr fuel ts
        let (more, ts) ← readTupleRest fuel ts
        .ok (e :: more, ts)
    else .ok ([], ts)

def readItems : Nat → Bool → Reader (List Expr)
  | 0, _, _ => .error .broken
  | fuel + 1, first, ts => do
    if isSymbol "]" ts then .ok ([], ts)
    else
      let ts ← if first then .ok ts else expectSymbol "," ts
      if isSymbol "]" ts then .ok ([], ts)
      else
        let (e, ts) ← readExpr fuel ts
        let (more, ts) ← readItems fuel false ts
        .ok (e :: more, ts)

def readEntries : Nat → Bool → Reader (List (Expr × Expr))
  | 0, _, _ => .error .broken
  | fuel + 1, first, ts => do
    if isSymbol "\x7d" ts then .ok ([], ts)
    else
      let ts ← if first then .ok ts else expectSymbol "," ts
      if isSymbol "\x7d" ts then .ok ([], ts)
      else
        let (k, ts) ← readExpr fuel ts
        let (v, ts) ← readExpr fuel (← expectSymbol ":" ts)
        let (more, ts) ← readEntries fuel false ts
        .ok ((k, v) :: more, ts)

def readPostfix : Nat → Expr → Reader Expr
  | 0, _, _ => .error .broken
  | fuel + 1, e, ts =>
    if isSymbol "." ts then do
      let ts ← advance ts
      let after ← advance ts
      match ts with
      | ⟨_, .name n⟩ :: _ => readPostfix fuel (.property e n) after
      | ⟨_, .integer n⟩ :: _ => readPostfix fuel (.item e (.const (.int n))) after
      | _ => fail "expected name or number"
    else if isSymbol "[" ts then do
      let (e, ts) ← readSubscript fuel e (← advance ts)
      readPostfix fuel e ts
    else if isSymbol "(" ts then do
      let (args, ts) ← readCall fuel ts
      readPostfix fuel (.call e args) ts
    else .ok (e, ts)

def readSubscript : Nat → Expr → Reader Expr
  | 0, _, _ => .error .broken
  | fuel + 1, e, ts => do
    if isSymbol "]" ts then .ok (.item e (.tuple []), ← advance ts)
    else
      let (first, ts) ← readKey fuel ts
      let (more, ts) ← readKeys fuel ts
      let ts ← expectSymbol "]" ts
      match first, more with
      | .inl key, [] => .ok (.item e key, ts)
      | .inr (start, stop, step), [] => .ok (.slice e start stop step, ts)
      | .inl key, _ =>
        match more.mapM (m := Option) fun k => k.getLeft? with
        | some keys => .ok (.item e (.tuple (key :: keys)), ts)
        | none => .error .broken
      | .inr _, _ => .error .broken

def readKeys : Nat → Reader (List (Expr ⊕ (Option Expr × Option Expr × Option Expr)))
  | 0, _ => .error .broken
  | fuel + 1, ts =>
    if isSymbol "]" ts then .ok ([], ts)
    else do
      let (k, ts) ← readKey fuel (← expectSymbol "," ts)
      let (more, ts) ← readKeys fuel ts
      .ok (k :: more, ts)

def readKey : Nat → Reader (Expr ⊕ (Option Expr × Option Expr × Option Expr))
  | 0, _ => .error .broken
  | fuel + 1, ts => do
    let bound (ts : List Placed) : Except ParseFault (Option Expr × List Placed) :=
      if isSymbol "]" ts || isSymbol "," ts then .ok (none, ts)
      else (readExpr fuel ts).map fun (e, ts) => (some e, ts)
    let slice (start : Option Expr) (ts : List Placed) :
        Except ParseFault
          ((Expr ⊕ (Option Expr × Option Expr × Option Expr)) × List Placed) := do
      let (stop, ts) ← if isSymbol ":" ts then .ok (none, ts) else bound ts
      if isSymbol ":" ts then
        let (step, ts) ← bound (← advance ts)
        .ok (.inr (start, stop, step), ts)
      else .ok (.inr (start, stop, none), ts)
    if isSymbol ":" ts then slice none (← advance ts)
    else
      let (e, ts) ← readExpr fuel ts
      if isSymbol ":" ts then slice (some e) (← advance ts)
      else .ok (.inl e, ts)

def readCall : Nat → Reader (List Argument)
  | 0, _ => .error .broken
  | fuel + 1, ts => do
    let ts ← expectSymbol "(" ts
    let (read, ts) ← readArguments fuel false {} ts
    .ok (read.items, ← expectSymbol ")" ts)

def readArguments : Nat → Bool → ArgumentsRead → Reader ArgumentsRead
  | 0, _, _, _ => .error .broken
  | fuel + 1, comma, read, ts => do
    if isSymbol ")" ts then .ok (read, ts)
    else
      let ts ← if comma then expectSymbol "," ts else .ok ts
      if comma && isSymbol ")" ts then .ok (read, ts)
      else if isSymbol "*" ts then
        if read.spread || read.spreadNamed then badCall
        else
          let (e, ts) ← readExpr fuel (← advance ts)
          readArguments fuel true
            { read with items := read.items ++ [.spread e], spread := true } ts
      else if isSymbol "**" ts then
        if read.spreadNamed then badCall
        else
          let (e, ts) ← readExpr fuel (← advance ts)
          readArguments fuel true
            { read with items := read.items ++ [.spreadNamed e], spreadNamed := true } ts
      else
        let named ← match ts with
          | ⟨_, .name n⟩ :: _ => do
            let next ← advance ts
            .ok (if isSymbol "=" next then some (n, next) else none)
          | _ => .ok none
        match named with
        | some (n, next) =>
          if read.spreadNamed then badCall
          else
            let (e, ts) ← readExpr fuel (← advance next)
            readArguments fuel true
              { read with items := read.items ++ [.named n e], anyNamed := true } ts
        | none =>
          if read.spread || read.spreadNamed || read.anyNamed then badCall
          else
            let (e, ts) ← readExpr fuel ts
            readArguments fuel true { read with items := read.items ++ [.positional e] } ts

def readFilters : Nat → Expr → Reader Expr
  | 0, _, _ => .error .broken
  | fuel + 1, e, ts =>
    if isSymbol "|" ts then do
      let (n, ts) ← expectName (← advance ts)
      let (n, ts) ← dottedName n fuel ts
      let (args, ts) ← if isSymbol "(" ts then readCall fuel ts else .ok ([], ts)
      readFilters fuel (.filter e n args) ts
    else if isName "is" ts then do
      let (e, ts) ← readTest fuel e (← advance ts)
      readFilters fuel e ts
    else if isSymbol "(" ts then do
      let (args, ts) ← readCall fuel ts
      readFilters fuel (.call e args) ts
    else .ok (e, ts)

def readTest : Nat → Expr → Reader Expr
  | 0, _, _ => .error .broken
  | fuel + 1, e, ts => do
    let negated := isName "not" ts
    let ts ← if negated then advance ts else .ok ts
    let (n, ts) ← expectName ts
    let (n, ts) ← dottedName n fuel ts
    let (args, ts) ←
      if isSymbol "(" ts then readCall fuel ts
      else if beginsTestArgument ts then
        if isName "is" ts then fail "You cannot chain multiple tests with is"
        else do
          let (a, ts) ← readPrimary fuel ts
          let (a, ts) ← readPostfix fuel a ts
          .ok ([.positional a], ts)
      else .ok ([], ts)
    let tested : Expr := .test e n args
    .ok (if negated then .not tested else tested, ts)

end

def parse (s : String) : Except ParseFault Expr := do
  let ts := scan s
  match ts with
  | ⟨_, .bad reason⟩ :: _ => fail reason
  | _ => do
    let (e, rest) ← readExpr (24 * (ts.length + 2)) ts
    if rest.isEmpty then .ok e else fail "chunk after expression"

end SheetTemplate.Expr
