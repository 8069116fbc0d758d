import SheetTemplate.Expr.Access
import SheetTemplate.Text.Casing
import SheetTemplate.Text.Identifier

namespace SheetTemplate.Expr

open Number Text Value

structure Call where
  args : List Value := []
  named : List (String × Value) := []

def ofChars (cs : List Char) : Value := .text (String.ofList cs)

def plural (n : Nat) (word : String) : String := if n = 1 then word else word ++ "s"

def tooFew (name : String) (least given : Nat) : Fault :=
  .badType (name ++ " expected at least " ++ toString least ++ " " ++ plural least "argument" ++
    ", got " ++ toString given)

def tooMany (name : String) (most given : Nat) : Fault :=
  .badType (name ++ " expected at most " ++ toString most ++ " " ++ plural most "argument" ++
    ", got " ++ toString given)

def takesNone (name : String) (given : Nat) : Fault :=
  .badType (name ++ "() takes no arguments (" ++ toString given ++ " given)")

def takesOne (name : String) (given : Nat) : Fault :=
  .badType (name ++ "() takes exactly one argument (" ++ toString given ++ " given)")

def noNames (name : String) : Fault := .badType (name ++ "() takes no keyword arguments")

def notWhole (v : Value) : Fault :=
  .badType ("'" ++ v.typeName ++ "' object cannot be interpreted as an integer")

def mustBeText (v : Value) : Fault := .badType ("must be str, not " ++ v.typeName)

def whole (v : Value) : Except Fault Int :=
  match wholeIndex? v with
  | some n => .ok n
  | none => .error (notWhole v)

def replaceIn (cs old new : List Char) (count : Option Nat) : List Char :=
  let limit := count.getD (cs.length + 1)
  if old.isEmpty then
    let rec weave : Nat → List Char → List Char
      | 0, rest => rest
      | _ + 1, [] => new
      | n + 1, c :: rest => new ++ c :: weave n rest
    weave limit cs
  else replaceText old new limit cs

def countIn (cs sub : List Char) : Nat :=
  if sub.isEmpty then cs.length + 1 else (splitOnText sub cs.length cs).length - 1

def findIn (cs sub : List Char) : Option Nat := (splitFirst? sub cs).map (·.1.length)

def findLastIn (cs sub : List Char) : Option Nat :=
  (splitFirst? sub.reverse cs.reverse).map fun (after, _) => cs.length - after.length - sub.length

def splitBlanks (limit : Nat) (cs : List Char) : List (List Char) :=
  let cs := trimLeft isBlank cs
  if cs.isEmpty then []
  else
    match limit with
    | 0 => [trimRight isBlank cs]
    | n + 1 =>
      let (word, rest) := cs.span fun c => !isBlank c
      word :: splitBlanks n rest

def isLineEnd (c : Char) : Bool :=
  let n := c.toNat
  (10 ≤ n && n ≤ 13) || (28 ≤ n && n ≤ 30) || n == 0x85 || n == 0x2028 || n == 0x2029

def lines : List Char → List Char → List (List Char)
  | [], [] => []
  | [], line => [line.reverse]
  | '\r' :: '\n' :: cs, line => line.reverse :: lines cs []
  | c :: cs, line => if isLineEnd c then line.reverse :: lines cs [] else lines cs (c :: line)

def alignText (cs : List Char) (width : Int) (fill : Char) (left : Nat → Nat) : List Char :=
  let missing := width.toNat - cs.length
  let l := left missing
  List.replicate l fill ++ cs ++ List.replicate (missing - l) fill

def centred (cs : List Char) (width : Int) (fill : Char) : List Char :=
  alignText cs width fill fun missing => missing / 2 + (missing % 2) * (width.toNat % 2)

def expandTabs (size column : Nat) : List Char → List Char
  | [] => []
  | c :: cs =>
    if c == '\t' then
      let missing := if size = 0 then 0 else size - column % size
      List.replicate missing ' ' ++ expandTabs size (column + missing) cs
    else if c == '\n' || c == '\r' then c :: expandTabs size 0 cs
    else c :: expandTabs size (column + 1) cs

def swapCase (cs : List Char) : List Char :=
  cs.flatMap fun c => if upperChar c == [c] then lowerChar c else upperChar c

def isUpperText (cs : List Char) : Bool :=
  cs.any isCased && lower cs != cs && upper cs == cs

def isLowerText (cs : List Char) : Bool :=
  cs.any isCased && upper cs != cs && lower cs == cs

def nonEmptyAll (p : Char → Bool) (cs : List Char) : Bool := !cs.isEmpty && cs.all p

def fillChar : List Value → Except Fault Char
  | [] => .ok ' '
  | v :: _ =>
    match v.text? with
    | some s =>
      match s.toList with
      | [c] => .ok c
      | _ => .error (.badType "The fill character must be exactly one character long")
    | none =>
      .error (.badType ("The fill character must be a unicode character, not " ++ v.typeName))

def withText (v : Value) (f : List Char → Except Fault Value) : Except Fault Value :=
  match v.text? with
  | some s => f s.toList
  | none => .error (mustBeText v)

def stripWith (name : String) (args : List Value) (cut : (Char → Bool) → List Char) :
    Except Fault Value :=
  match args with
  | [] | [.null] => .ok (ofChars (cut isBlank))
  | [v] =>
    match v.text? with
    | some s => .ok (ofChars (cut fun c => s.toList.contains c))
    | none => .error (.badType (name ++ " arg must be None or str"))
  | _ => .error (tooMany name 1 args.length)

def affixed (name : String) (cs : List Char) (test : List Char → List Char → Bool) (v : Value) :
    Except Fault Value :=
  match v with
  | .tuple items => .ok (.bool (items.any fun x => match x.text? with
      | some s => test s.toList cs
      | none => false))
  | _ =>
    match v.text? with
    | some s => .ok (.bool (test s.toList cs))
    | none =>
      .error (.badType (name ++ " first arg must be str or a tuple of str, not " ++ v.typeName))

def splitLimit (c : Call) (position : Nat) : Except Fault (Option Nat) :=
  let given := match c.args[position]? with
    | some v => some v
    | none => (c.named.find? fun f => f.1 == "maxsplit").map (·.2)
  match given with
  | none => .ok none
  | some v => do
    let n ← whole v
    .ok (if n < 0 then none else some n.toNat)

def splitMethod (cs : List Char) (c : Call) (fromRight : Bool) : Except Fault Value := do
  let sep : Value := match c.args with
    | v :: _ => v
    | [] => ((c.named.find? fun f => f.1 == "sep").map (·.2)).getD .null
  let limit ← splitLimit c 1
  let limit := limit.getD cs.length
  let toValue (parts : List (List Char)) : Value := .list (parts.map ofChars)
  match sep with
  | .null =>
    if fromRight then
      .ok (toValue ((splitBlanks limit cs.reverse).map List.reverse).reverse)
    else
      let parts := splitBlanks limit cs
      .ok (toValue parts)
  | _ =>
    match sep.text? with
    | none => .error (.badType ("must be str or None, not " ++ sep.typeName))
    | some s =>
      if s.isEmpty then .error (.badValue "empty separator")
      else if fromRight then
        .ok (toValue ((splitOnText s.toList.reverse limit cs.reverse).map List.reverse).reverse)
      else .ok (toValue (splitOnText s.toList limit cs))

def joinValues (sep : String) (items : List Value) : Except Fault Value :=
  let rec go (i : Nat) : List Value → Except Fault (List String)
    | [] => .ok []
    | v :: rest =>
      match v.text? with
      | some s => (go (i + 1) rest).map (s :: ·)
      | none =>
        .error (.badType ("sequence item " ++ toString i ++ ": expected str instance, " ++
          v.typeName ++ " found"))
  (go 0 items).map fun parts => .text (joinText sep parts)

def plainTextMethod? (cs : List Char) (name : String) : Option Value :=
  if name == "upper" then some (ofChars (upper cs))
  else if name == "lower" then some (ofChars (lower cs))
  else if name == "casefold" then some (ofChars (lower cs))
  else if name == "capitalize" then some (ofChars (capitalize cs))
  else if name == "title" then some (ofChars (title cs))
  else if name == "swapcase" then some (ofChars (swapCase cs))
  else if name == "isdigit" then some (.bool (nonEmptyAll isDigit cs))
  else if name == "isdecimal" then some (.bool (nonEmptyAll isDecimal cs))
  else if name == "isnumeric" then some (.bool (nonEmptyAll (fun c => isWord c && !isLetter c && c != '_') cs))
  else if name == "isalpha" then some (.bool (nonEmptyAll isLetter cs))
  else if name == "isalnum" then some (.bool (nonEmptyAll (fun c => isWord c && c != '_') cs))
  else if name == "isspace" then some (.bool (nonEmptyAll isBlank cs))
  else if name == "isascii" then some (.bool (cs.all fun c => c.toNat < 128))
  else if name == "isprintable" then some (.bool (cs.all isPrintable))
  else if name == "isupper" then some (.bool (isUpperText cs))
  else if name == "islower" then some (.bool (isLowerText cs))
  else if name == "istitle" then some (.bool (cs.any isCased && title cs == cs))
  else if name == "isidentifier" then some (.bool (isIdentifier cs))
  else none

def textMethod (cs : List Char) (name : String) (c : Call) : EvalM Value := do
  let given := c.args.length
  match plainTextMethod? cs name with
  | some v =>
    if !c.named.isEmpty then EvalM.fault (noNames ("str." ++ name))
    else if given ≠ 0 then EvalM.fault (takesNone ("str." ++ name) given)
    else return v
  | none =>
    if name == "join" then
      match c.args with
      | [v] =>
        match v.length?, v with
        | none, .stream _ _ => EvalM.ofFault (joinValues (String.ofList cs) (← iterate v))
        | none, _ => EvalM.fault (.badType "can only join an iterable")
        | some _, _ => EvalM.ofFault (joinValues (String.ofList cs) (← iterate v))
      | _ => EvalM.fault (takesOne "str.join" given)
    else EvalM.ofFault (pureMethod given)
where
  pureMethod (given : Nat) : Except Fault Value :=
    if name == "strip" then stripWith name c.args fun p => trim p cs
    else if name == "lstrip" then stripWith name c.args fun p => trimLeft p cs
    else if name == "rstrip" then stripWith name c.args fun p => trimRight p cs
    else if name == "split" then splitMethod cs c false
    else if name == "rsplit" then splitMethod cs c true
    else if name == "splitlines" then .ok (.list ((lines cs []).map ofChars))
    else if name == "replace" then
      match c.args with
      | old :: new :: rest =>
        match old.text?, new.text? with
        | some o, some n => do
          let count ← match rest with
            | [] => .ok none
            | v :: _ => do
              let k ← whole v
              .ok (if k < 0 then none else some k.toNat)
          .ok (ofChars (replaceIn cs o.toList n.toList count))
        | none, _ =>
          .error (.badType ("replace() argument 1 must be str, not " ++ old.typeName))
        | _, none =>
          .error (.badType ("replace() argument 2 must be str, not " ++ new.typeName))
      | _ => .error (tooFew name 2 given)
    else if name == "startswith" || name == "endswith" then
      match c.args with
      | v :: _ => affixed name cs (if name == "startswith" then startsWith else endsWith) v
      | [] => .error (.badType (name ++ "() takes at least 1 argument (0 given)"))
    else if name == "find" || name == "rfind" || name == "index" || name == "rindex" then
      match c.args with
      | v :: _ =>
        withText v fun sub =>
          let at? := if name == "find" || name == "index" then findIn cs sub else findLastIn cs sub
          match at? with
          | some k => .ok (.int k)
          | none =>
            if name == "find" || name == "rfind" then .ok (.int (-1))
            else .error (.badValue "substring not found")
      | [] => .error (.badType (name ++ "() takes at least 1 argument (0 given)"))
    else if name == "count" then
      match c.args with
      | v :: _ => withText v fun sub => .ok (.int (countIn cs sub))
      | [] => .error (.badType "count() takes at least 1 argument (0 given)")
    else if name == "zfill" then
      match c.args with
      | [v] => do
        let n ← whole v
        let (sign, body) := match cs with
          | '-' :: rest => (['-'], rest)
          | '+' :: rest => (['+'], rest)
          | _ => ([], cs)
        .ok (ofChars (sign ++ zeros (n.toNat - cs.length) ++ body))
      | _ => .error (takesOne "str.zfill" given)
    else if name == "center" || name == "ljust" || name == "rjust" then
      match c.args with
      | v :: rest => do
        let n ← whole v
        let fill ← fillChar rest
        .ok (ofChars
          (if name == "center" then centred cs n fill
           else if name == "ljust" then alignText cs n fill fun _ => 0
           else alignText cs n fill id))
      | [] => .error (tooFew name 1 0)
    else if name == "partition" || name == "rpartition" then
      match c.args with
      | [v] =>
        withText v fun sep =>
          if sep.isEmpty then .error (.badValue "empty separator")
          else if name == "partition" then
            match splitFirst? sep cs with
            | some (a, b) => .ok (.tuple [ofChars a, ofChars sep, ofChars b])
            | none => .ok (.tuple [ofChars cs, ofChars [], ofChars []])
          else
            match findLastIn cs sep with
            | some k =>
              .ok (.tuple [ofChars (cs.take k), ofChars sep, ofChars (cs.drop (k + sep.length))])
            | none => .ok (.tuple [ofChars [], ofChars [], ofChars cs])
      | _ => .error (takesOne ("str." ++ name) given)
    else if name == "removeprefix" then
      match c.args with
      | [v] => withText v fun pre => .ok (ofChars ((dropPrefix? pre cs).getD cs))
      | _ => .error (takesOne ("str." ++ name) given)
    else if name == "removesuffix" then
      match c.args with
      | [v] =>
        withText v fun post =>
          .ok (ofChars (((dropPrefix? post.reverse cs.reverse).map List.reverse).getD cs))
      | _ => .error (takesOne ("str." ++ name) given)
    else if name == "encode" then .ok (.bytes (String.ofList cs).toUTF8.toList)
    else if name == "expandtabs" then do
      let size ← match c.args with
        | [] => .ok 8
        | v :: _ => whole v
      .ok (ofChars (expandTabs size.toNat 0 cs))
    else if name == "format" || name == "format_map" then fillBraces
    else .ok .null
  fillBraces : Except Fault Value :=
    let rec go (next : Nat) : Nat → List Char → Except Fault (List Char)
      | 0, _ => .ok []
      | _, [] => .ok []
      | fuel + 1, '\x7b' :: '\x7b' :: cs => (go next fuel cs).map ('\x7b' :: ·)
      | fuel + 1, '\x7d' :: '\x7d' :: cs => (go next fuel cs).map ('\x7d' :: ·)
      | fuel + 1, '\x7b' :: cs =>
        let (field, rest) := cs.span (· != '\x7d')
        let (key, spec) := field.span fun ch => ch != ':' && ch != '!'
        let found : Option Value :=
          if key.isEmpty then c.args[next]?
          else if key.all Char.isDigit then c.args[(readNat key).1]?
          else (c.named.find? fun f => f.1 == String.ofList key).map (·.2)
        match found with
        | none =>
          if key.isEmpty || key.all Char.isDigit then
            .error ⟨.index, "Replacement index " ++
              (if key.isEmpty then toString next else String.ofList key) ++
              " out of range for positional args tuple"⟩
          else .error ⟨.key, quoted (String.ofList key)⟩
        | some v => do
          let out ← match spec with
            | ['!', 'r'] => .ok v.inner.toList
            | ':' :: '.' :: more =>
              let (n, kind) := readNat more
              fieldText { places := some n } (kind.headD 'g') v
            | _ => .ok v.shown.toList
          (go (if key.isEmpty then next + 1 else next) fuel (rest.drop 1)).map (out ++ ·)
      | fuel + 1, ch :: cs => (go next fuel cs).map (ch :: ·)
    (go 0 cs.length cs).map ofChars

def weekdayNames : List String :=
  ["Monday", "Tuesday", "Wednesday", "Thursday", "Friday", "Saturday", "Sunday"]

def monthNames : List String :=
  ["January", "February", "March", "April", "May", "June", "July", "August", "September",
    "October", "November", "December"]

def formatMoment (m : Moment) : List Char → List Char
  | [] => []
  | '%' :: k :: cs =>
    let d := m.date
    let c := m.clock
    let hour12 := if c.hour % 12 = 0 then 12 else c.hour % 12
    let out : List Char :=
      if k == 'Y' then natDigits d.year
      else if k == 'm' then padded 2 d.month
      else if k == 'd' then padded 2 d.day
      else if k == 'H' then padded 2 c.hour
      else if k == 'I' then padded 2 hour12
      else if k == 'M' then padded 2 c.minute
      else if k == 'S' then padded 2 c.second
      else if k == 'f' then padded 6 c.micro
      else if k == 'y' then padded 2 (d.year % 100)
      else if k == 'B' then (monthNames.getD (d.month - 1) "").toList
      else if k == 'b' || k == 'h' then ((monthNames.getD (d.month - 1) "").toList).take 3
      else if k == 'A' then (weekdayNames.getD d.weekday "").toList
      else if k == 'a' then ((weekdayNames.getD d.weekday "").toList).take 3
      else if k == 'j' then padded 3 (daysBeforeMonth d.year d.month + d.day)
      else if k == 'w' then natDigits ((d.weekday + 1) % 7)
      else if k == 'u' then natDigits (d.weekday + 1)
      else if k == 'p' then (if c.hour < 12 then ['A', 'M'] else ['P', 'M'])
      else if k == '%' then ['%']
      else ['%', k]
    out ++ formatMoment m cs
  | c :: cs => c :: formatMoment m cs

def dateMethod (m : Moment) (onlyDate : Bool) (name : String) (c : Call) : Except Fault Value :=
  let part (key : String) (position old : Nat) : Nat :=
    match (c.named.find? fun f => f.1 == key) with
    | some (_, .int n) => n.toNat
    | _ =>
      match c.args[position]? with
      | some (.int n) => n.toNat
      | _ => old
  if name == "isoformat" then
    .ok (.text (if onlyDate then m.date.iso else
      match c.args with
      | v :: _ => m.date.iso ++ v.shown ++ m.clock.iso
      | [] => m.iso))
  else if name == "weekday" then .ok (.int m.date.weekday)
  else if name == "isoweekday" then .ok (.int (m.date.weekday + 1))
  else if name == "toordinal" then .ok (.int m.date.ordinal)
  else if name == "date" then .ok (.date m.date)
  else if name == "time" then .ok (.clock m.clock)
  else if name == "strftime" then
    match c.args with
    | [.text p] => .ok (ofChars (formatMoment m p.toList))
    | [v] => .error (.badType ("strftime() argument 1 must be str, not " ++ v.typeName))
    | _ =>
      .error (.badType ("strftime() takes exactly 1 argument (" ++ toString c.args.length ++
        " given)"))
  else if name == "replace" then
    let d : Date := ⟨part "year" 0 m.date.year, part "month" 1 m.date.month, part "day" 2 m.date.day⟩
    if !d.valid then
      .error (.badValue (if d.hasMonth then "day is out of range for month"
        else "month must be in 1..12"))
    else if onlyDate then .ok (.date d)
    else
      .ok (.moment ⟨d, ⟨part "hour" 3 m.clock.hour, part "minute" 4 m.clock.minute,
        part "second" 5 m.clock.second, part "microsecond" 6 m.clock.micro⟩⟩)
  else .ok .null

def indexOf (items : List Value) (v : Value) : Option Nat := items.findIdx? fun x => v.eq x

def listMethod (owner : String) (items : List Value) (name : String) (c : Call) :
    Except Fault Value :=
  if name == "count" then
    match c.args with
    | [v] => .ok (.int (items.countP fun x => v.eq x))
    | _ => .error (takesOne (owner ++ ".count") c.args.length)
  else if name == "index" then
    match c.args with
    | v :: _ =>
      match indexOf items v with
      | some k => .ok (.int k)
      | none =>
        .error (.badValue (if owner == "tuple" then "tuple.index(x): x not in tuple"
          else v.inner ++ " is not in list"))
    | [] => .error (tooFew "index" 1 0)
  else if name == "copy" then .ok (.list items)
  else if name == "pop" then
    match items.getLast? with
    | some v => .ok v
    | none => .error ⟨.index, "pop from empty list"⟩
  else .ok .null

def dictMethod (entries : List (Value × Value)) (name : String) (c : Call) : Except Fault Value :=
  let given := c.args.length
  let view (kind : ViewKind) : Except Fault Value :=
    if !c.named.isEmpty then .error (noNames ("dict." ++ name))
    else if given ≠ 0 then .error (takesNone ("dict." ++ name) given)
    else .ok (.view kind entries)
  if name == "keys" then view .keys
  else if name == "values" then view .values
  else if name == "items" then view .items
  else if name == "copy" then .ok (.dict entries)
  else if name == "get" || name == "pop" || name == "setdefault" then
    if !c.named.isEmpty then .error (noNames ("dict." ++ name))
    else
      match c.args with
      | [] => .error (tooFew name 1 0)
      | k :: rest =>
        if !k.isHashable then .error (.badType ("unhashable type: '" ++ k.typeName ++ "'"))
        else
          match lookup? entries k with
          | some v => .ok v
          | none =>
            match rest with
            | [] => if name == "pop" then .error ⟨.key, k.inner⟩ else .ok .null
            | v :: _ => .ok v
  else .ok .null

def callMethod (owner : Value) (name : String) (c : Call) : EvalM Value :=
  match owner with
  | .text s | .scalar (.text s) => textMethod s.toList name c
  | .list items => EvalM.ofFault (listMethod "list" items name c)
  | .tuple items => EvalM.ofFault (listMethod "tuple" items name c)
  | .dict entries => EvalM.ofFault (dictMethod entries name c)
  | .date d => EvalM.ofFault (dateMethod ⟨d, .midnight⟩ true name c)
  | .moment m | .timestamp m => EvalM.ofFault (dateMethod m false name c)
  | .clock k =>
    if name == "isoformat" then return .text k.iso
    else EvalM.ofFault (dateMethod ⟨⟨1900, 1, 1⟩, k⟩ false name c)
  | .duration n => return .float (floatOfRatio (n < 0) n.natAbs 1000000)
  | .float x =>
    if name == "is_integer" then
      return .bool (match truncate? x with
        | some n => floatOfInt n == x
        | none => false)
    else return .float x
  | .bool b => return .int (if b then 1 else 0)
  | .int n =>
    if name == "bit_length" then return .int (if n = 0 then 0 else n.natAbs.log2 + 1)
    else if name == "as_integer_ratio" then return .tuple [.int n, .int 1]
    else return .int n
  | .bytes b =>
    if name == "hex" then
      return ofChars (b.flatMap fun x => hexDigits 2 x.toNat)
    else if name == "decode" then
      return .text ((String.fromUTF8? ⟨b.toArray⟩).getD "")
    else return .null
  | .scalar s => return Scalar.plain s
  | .array items =>
    if name == "tolist" then return .list items else return .null
  | .series items =>
    if name == "tolist" then return .list items else return .null
  | .range a b k => EvalM.ofFault (listMethod "range" (rangeItems a b k) name c)
  | _ => return .null

end SheetTemplate.Expr
