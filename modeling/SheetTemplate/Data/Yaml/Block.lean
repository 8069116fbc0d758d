import SheetTemplate.Data.Yaml.Inline

namespace SheetTemplate.Data

namespace Yaml

open Text

structure Line where
  indent : Int
  body : List Char

namespace Line

def ofChars (cs : List Char) : Line :=
  let (front, body) := cs.span (· == ' ')
  ⟨front.length, body⟩

def ofText (cs : List Char) : List Line := (splitOnChar '\n' cs).map ofChars

def fromIndent (l : Line) (indent : Int) : List Char :=
  List.replicate (l.indent - indent).toNat ' ' ++ l.body

def chars (l : Line) : List Char := l.fromIndent 0

def isComment (l : Line) : Bool := l.body.head? == some '#'

def isEntry (l : Line) : Bool :=
  match l.body with
  | '-' :: rest => (rest.head?.map Quoted.isGap).getD true
  | _ => false

def after (l : Line) (count : Nat) : Line :=
  let (gap, body) := (l.body.drop count).span (· == ' ')
  ⟨l.indent + count + gap.length, body⟩

def isVoid (l : Line) : Bool := l.body.isEmpty || l.isComment

end Line

def skipVoid (lines : List Line) : List Line := lines.dropWhile Line.isVoid

def joined (l : Line) (below : List Line) : List Char :=
  joinWith ['\n'] (l.body :: below.map Line.chars)

namespace Folded

def line : List Char → List Char → Read (List Char × Bool)
  | done, [] => .ok ((done.dropWhile (· == ' ')).reverse, false)
  | done, c :: cs =>
    if c == '\t' then .error .yamlToken
    else if c == '#' && done.head? == some ' ' then
      .ok ((done.dropWhile (· == ' ')).reverse, true)
    else if c == ':' && (cs.head?.map Quoted.isGap).getD true then .error .yamlToken
    else line (c :: done) cs

def more (parent : Int) : Nat → List Line → Read (List Char × List Line)
  | _, [] => .ok ([], [])
  | empty, l :: below =>
    if l.body.isEmpty then more parent (empty + 1) below
    else if l.indent ≤ parent || l.isComment then .ok ([], l :: below)
    else do
      let gap := if empty = 0 then [' '] else List.replicate empty '\n'
      let (words, ended) ← line [] l.body
      if ended then .ok (gap ++ words, below)
      else
        let (rest, below) ← more parent 0 below
        .ok (gap ++ words ++ rest, below)

def text (parent : Int) (l : Line) (below : List Line) : Read (List Char × List Line) := do
  let (words, ended) ← line [] l.body
  if ended then .ok (words, below)
  else
    let (rest, below) ← more parent 0 below
    .ok (words ++ rest, below)

end Folded

structure BlockStyle where
  folded : Bool
  keepsEnds : Option Bool := none
  further : Option Nat := none

namespace BlockStyle

def ofHeader (style : BlockStyle) : List Char → Read BlockStyle
  | [] => .ok style
  | c :: cs =>
    if c == '+' then ofHeader { style with keepsEnds := some true } cs
    else if c == '-' then ofHeader { style with keepsEnds := some false } cs
    else if '1' ≤ c && c ≤ '9' then ofHeader { style with further := some (c.toNat - 48) } cs
    else if c == ' ' && (Line.ofChars cs).isVoid then .ok style
    else .error .yamlToken

def body (style : BlockStyle) : List (List Char) → List Char
  | [] => []
  | [l] => l
  | l :: next :: rest =>
    let isText (cs : List Char) : Bool := !cs.isEmpty && cs.head? != some ' '
    let rest' := body style (next :: rest)
    if !style.folded || !isText l then l ++ '\n' :: rest'
    else if isText next then l ++ ' ' :: rest'
    else
      match (next :: rest).dropWhile List.isEmpty with
      | following :: _ => if isText following then l ++ rest' else l ++ '\n' :: rest'
      | [] => l ++ '\n' :: rest'

def read (style : BlockStyle) (parent : Int) (lines : List Line) : List Char × List Line :=
  let first := (lines.dropWhile fun l => l.body.isEmpty).head?
  let indent : Int := match style.further, first with
    | some n, _ => max parent 0 + n
    | none, some l => max l.indent (max parent 0 + 1)
    | none, none => max parent 0 + 1
  let isWithin (l : Line) : Bool := indent ≤ l.indent || l.body.isEmpty
  let (inside, below) := lines.span isWithin
  let content := inside.map (Line.fromIndent · indent)
  let tail := content.reverse.takeWhile List.isEmpty
  let content := content.take (content.length - tail.length)
  let ends := if below.isEmpty then tail.length else tail.length + 1
  let count := match style.keepsEnds with
    | some true => ends
    | some false => 0
    | none => if content.isEmpty then 0 else min ends 1
  (body style content ++ List.replicate count '\n', below)

end BlockStyle

def key? (l : Line) : Read (Option (Value × Nat)) :=
  match l.body with
  | [] => .ok none
  | c :: _ =>
    if isQuote c then
      if l.body.count c < 2 then .ok none
      else
        match readQuoted l.body with
        | .error _ => .ok none
        | .ok (s, rest) =>
          let rest' := rest.dropWhile (· == ' ')
          match rest' with
          | ':' :: more =>
            if (more.head?.map Quoted.isGap).getD true then
              .ok (some (.text s, l.body.length - more.length))
            else .ok none
          | _ => .ok none
    else if startsPlain false l.body then
      match cut [] l.body with
      | some (word, count) => (Scalar.value word).map fun k => some (k, count)
      | none => .ok none
    else .ok none
where
  cut : List Char → List Char → Option (List Char × Nat)
    | _, [] => none
    | done, c :: cs =>
      if c == ':' && (cs.head?.map Quoted.isGap).getD true then
        some ((done.dropWhile (· == ' ')).reverse, done.length + 1)
      else if c == '\t' || (c == '#' && done.head? == some ' ') then none
      else cut (c :: done) cs

def linesAfter (rest : List Char) : Read (List Line) :=
  match Line.ofText rest with
  | [] => .ok []
  | l :: below =>
    match l.body with
    | [] => .ok below
    | c :: _ =>
      if c == '#' && 0 < l.indent then .ok below
      else if c == ':' then .error .yamlToken
      else .error (unexpected l.body)

def leaf (parent : Int) (l : Line) (below : List Line) : Read (Value × List Line) :=
  match l.body with
  | [] => .ok (.null, below)
  | c :: rest =>
    if c == '|' || c == '>' then do
      let style ← BlockStyle.ofHeader { folded := c == '>' } rest
      let (s, below) := style.read parent below
      .ok (.text (String.ofList s), below)
    else if isQuote c then do
      let (s, rest) ← readQuoted (joined l below)
      .ok (.text s, ← linesAfter rest)
    else if c == '[' || c == '\x7b' then do
      let (v, rest) ← readBrackets (joined l below)
      .ok (v, ← linesAfter rest)
    else if startsPlain false l.body then do
      let (word, below) ← Folded.text parent l below
      .ok (← Scalar.value word, below)
    else if c == '*' then .error .yamlNode
    else if c == '!' then .error .yamlValue
    else .error (unexpected l.body)

mutual

def block : Nat → Int → List Line → Read (Value × List Line)
  | 0, _, _ => .error .yamlText
  | fuel + 1, parent, lines =>
    match skipVoid lines with
    | [] => .ok (.null, [])
    | l :: below =>
      if l.indent ≤ parent then .ok (.null, l :: below)
      else if l.isEntry then do
        let (items, below) ← blockItems fuel l.indent (l :: below)
        .ok (.list items, below)
      else do
        match ← key? l with
        | some _ =>
          let (entries, below) ← blockEntries fuel l.indent [] (l :: below)
          .ok (.dict entries, below)
        | none => leaf parent l below

def blockItems : Nat → Int → List Line → Read (List Value × List Line)
  | 0, _, _ => .error .yamlText
  | fuel + 1, indent, lines =>
    match skipVoid lines with
    | [] => .ok ([], [])
    | l :: below =>
      if l.indent < indent then .ok ([], l :: below)
      else if indent < l.indent then .error .yamlText
      else if !l.isEntry then .ok ([], l :: below)
      else do
        let (v, below) ← block fuel indent (l.after 1 :: below)
        let (items, below) ← blockItems fuel indent below
        .ok (v :: items, below)

def blockEntries : Nat → Int → List (Value × Value) → List Line →
    Read (List (Value × Value) × List Line)
  | 0, _, _, _ => .error .yamlText
  | fuel + 1, indent, done, lines =>
    match skipVoid lines with
    | [] => .ok (done, [])
    | l :: below =>
      if l.indent < indent then .ok (done, l :: below)
      else if indent < l.indent || l.isEntry then .error .yamlText
      else do
        match ← key? l with
        | none => .error .yamlToken
        | some (k, count) =>
          let (v, below) ← afterKey fuel indent (l.after count) below
          blockEntries fuel indent (← Brackets.put done k v) below

def afterKey : Nat → Int → Line → List Line → Read (Value × List Line)
  | 0, _, _, _ => .error .yamlText
  | fuel + 1, indent, l, below =>
    if l.isVoid then
      match skipVoid below with
      | [] => .ok (.null, [])
      | next :: rest =>
        if next.indent = indent && next.isEntry then do
          let (items, below) ← blockItems fuel indent (next :: rest)
          .ok (.list items, below)
        else block fuel indent (next :: rest)
    else if l.isEntry then .error .yamlToken
    else leaf indent l below

end

def marker? (l : Line) : Option Bool :=
  if l.indent ≠ 0 then none
  else
    let word := l.body.takeWhile fun c => !Quoted.isGap c
    if word == "---".toList then some true
    else if word == "...".toList then some false
    else none

def document (lines : List Line) : Read (List Line) :=
  let start := (lines.dropWhile fun l => l.isVoid || (l.indent = 0 && l.body.head? == some '%'))
  let body := match start with
    | l :: below => if marker? l == some true then l.after 3 :: below else lines
    | [] => []
  let (body, rest) := body.span fun l => (marker? l).isNone
  match rest with
  | [] => .ok body
  | l :: below =>
    if marker? l == some true then .error .yamlNode
    else
      match skipVoid below with
      | [] => .ok body
      | next :: _ => .error (if marker? next == some true then .yamlNode else .yamlText)

end Yaml

open Text

def readYaml (s : String) : Except Failure Value :=
  let cs := unifyLines s.toList
  let work : Yaml.Read Value := do
    let lines ← Yaml.document (Yaml.Line.ofText cs)
    let (v, rest) ← Yaml.block (2 * cs.length + 4) (-1) lines
    if (Yaml.skipVoid rest).isEmpty then .ok v else .error .yamlText
  match work with
  | .ok v => .ok v
  | .error kind => .error (.library kind)

end SheetTemplate.Data
