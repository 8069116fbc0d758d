import SheetTemplate.Data.Yaml.Scalar

namespace SheetTemplate.Data.Yaml

open Text

def skip : Bool → List Char → List Char
  | _, [] => []
  | true, c :: cs => skip (c != '\n') cs
  | false, c :: cs =>
    if c == ' ' || c == '\n' then skip false cs else if c == '#' then skip true cs else c :: cs

def unexpected (cs : List Char) : FaultKind :=
  match cs with
  | c :: _ => if ['\t', '@', '\x60', '%', '|', '>'].contains c then .yamlToken else .yamlText
  | [] => .yamlText

def foldGap (isGap : Char → Bool) (cs : List Char) : List Char × List Char :=
  let (gap, rest) := cs.span isGap
  match gap.count '\n' with
  | 0 => (gap, rest)
  | 1 => ([' '], rest)
  | n + 1 => (List.replicate n '\n', rest)

namespace Quoted

def isGap (c : Char) : Bool := c == ' ' || c == '\t' || c == '\n'

def escapes : List (Char × Char) :=
  [('0', '\x00'), ('a', '\x07'), ('b', '\x08'), ('t', '\t'), ('\t', '\t'), ('n', '\n'),
    ('v', '\x0b'), ('f', '\x0c'), ('r', '\r'), ('e', '\x1b'), (' ', ' '), ('"', '"'),
    ('\\', '\\'), ('/', '/'), ('N', '\u0085'), ('_', '\u00a0'), ('L', '\u2028'), ('P', '\u2029')]

def codeLengths : List (Char × Nat) := [('x', 2), ('u', 4), ('U', 8)]

def readEscape (c : Char) (cs : List Char) : Read (List Char × List Char) :=
  match List.lookup c escapes, List.lookup c codeLengths with
  | some x, _ => .ok ([x], cs)
  | _, some n =>
    let digits := cs.take n
    if digits.length = n then
      match Scalar.digits? 16 digits with
      | some code => .ok ([Char.ofNat code], cs.drop n)
      | none => .error .yamlToken
    else .error .yamlToken
  | _, _ =>
    if c == '\n' then
      let (gap, rest) := cs.span isGap
      .ok (gap.filter (· == '\n'), rest)
    else .error .yamlToken

def read (quote : Char) : Nat → List Char → List Char → Read (List Char × List Char)
  | 0, _, _ => .error .yamlToken
  | _, _, [] => .error .yamlToken
  | fuel + 1, done, c :: cs =>
    if c == quote then
      match cs with
      | '\'' :: rest => if quote == '\'' then read quote fuel ('\'' :: done) rest
        else .ok (done.reverse, cs)
      | _ => .ok (done.reverse, cs)
    else if c == '\\' && quote == '"' then
      match cs with
      | [] => .error .yamlToken
      | e :: rest => do
        let (x, rest) ← readEscape e rest
        read quote fuel (x.reverse ++ done) rest
    else if isGap c then
      let (gap, rest) := foldGap isGap (c :: cs)
      read quote fuel (gap.reverse ++ done) rest
    else read quote fuel (c :: done) cs

end Quoted

def isQuote (c : Char) : Bool := c == '"' || c == '\''

def readQuoted (cs : List Char) : Read (String × List Char) :=
  match cs with
  | [] => .error .yamlToken
  | quote :: rest => do
    let (text, rest) ← Quoted.read quote (rest.length + 1) [] rest
    .ok (String.ofList text, rest)

def startsPlain (inBrackets : Bool) (cs : List Char) : Bool :=
  match cs with
  | [] => false
  | c :: rest =>
    let goesOn := match rest with
      | [] => false
      | n :: _ => !Quoted.isGap n
    if c == '-' then goesOn
    else if c == '?' || c == ':' then goesOn && !inBrackets
    else !(Quoted.isGap c) && !(",[]\x7b\x7d#&*!|>'\"%@\x60".toList.contains c)

namespace Brackets

def closers : List Char := [',', '[', ']', '\x7b', '\x7d']

def endsPlain : List Char → Bool
  | [] => true
  | ':' :: rest => (rest.head?.map fun n => Quoted.isGap n || closers.contains n).getD true
  | c :: _ => c == '?' || closers.contains c

def isGap (c : Char) : Bool := c == ' ' || c == '\n'

def readPlain : Nat → List Char → List Char → Read (List Char × List Char)
  | 0, _, _ => .error .yamlToken
  | fuel + 1, done, cs =>
    if endsPlain cs then .ok (done.reverse, cs)
    else
      match cs with
      | [] => .ok (done.reverse, [])
      | c :: rest =>
        if c == '\t' then .error .yamlToken
        else if isGap c then
          let (gap, rest) := foldGap isGap cs
          if endsPlain rest || rest.head? == some '#' then .ok (done.reverse, rest)
          else readPlain fuel (gap.reverse ++ done) rest
        else readPlain fuel (c :: done) rest

def put (entries : List (Value × Value)) (key v : Value) : Read (List (Value × Value)) :=
  if key.isHashable then .ok (Expr.putEntry entries key v) else .error .yamlValue

mutual

def node : Nat → List Char → Read (Value × List Char)
  | 0, _ => .error .yamlText
  | fuel + 1, cs =>
    match cs with
    | [] => .error .yamlText
    | c :: rest =>
      if c == '[' then do
        let (items, rest) ← items fuel (skip false rest)
        .ok (.list items, rest)
      else if c == '\x7b' then do
        let (entries, rest) ← entries fuel [] (skip false rest)
        .ok (.dict entries, rest)
      else if isQuote c then do
        let (s, rest) ← readQuoted cs
        .ok (.text s, rest)
      else if startsPlain true cs then do
        let (word, rest) ← readPlain (cs.length + 1) [] cs
        .ok (← Scalar.value word, rest)
      else if c == '*' then .error .yamlNode
      else .error (unexpected cs)

def afterColon : Nat → List Char → Read (Value × List Char)
  | 0, _ => .error .yamlText
  | fuel + 1, cs =>
    match skip false cs with
    | ',' :: rest => .ok (.null, ',' :: rest)
    | ']' :: rest => .ok (.null, ']' :: rest)
    | '\x7d' :: rest => .ok (.null, '\x7d' :: rest)
    | cs => node fuel cs

def items : Nat → List Char → Read (List Value × List Char)
  | 0, _ => .error .yamlText
  | _, ']' :: rest => .ok ([], rest)
  | fuel + 1, cs => do
    let (v, rest) ← node fuel cs
    let (v, rest) ← match skip false rest with
      | ':' :: rest => do
        let (w, rest) ← afterColon fuel rest
        .ok (.dict (← put [] v w), skip false rest)
      | rest => .ok (v, rest)
    match rest with
    | ']' :: rest => .ok ([v], rest)
    | ',' :: rest => do
      let (more, rest) ← items fuel (skip false rest)
      .ok (v :: more, rest)
    | _ => .error (unexpected rest)

def entries : Nat → List (Value × Value) → List Char → Read (List (Value × Value) × List Char)
  | 0, _, _ => .error .yamlText
  | _, done, '\x7d' :: rest => .ok (done, rest)
  | fuel + 1, done, cs => do
    let (k, rest) ← node fuel cs
    let (v, rest) ← match skip false rest with
      | ':' :: rest => afterColon fuel rest
      | rest => .ok (.null, rest)
    let done ← put done k v
    match skip false rest with
    | '\x7d' :: rest => .ok (done, rest)
    | ',' :: rest => entries fuel done (skip false rest)
    | rest => .error (unexpected rest)

end

end Brackets

def readBrackets (cs : List Char) : Read (Value × List Char) :=
  Brackets.node (2 * cs.length + 2) cs

end SheetTemplate.Data.Yaml
