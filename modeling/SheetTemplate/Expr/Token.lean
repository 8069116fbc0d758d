import SheetTemplate.Number.Read
import SheetTemplate.Text.Identifier
import SheetTemplate.Text.Quoted

namespace SheetTemplate.Expr

open Text Number

inductive Token where
  | name (n : String)
  | text (s : String)
  | integer (n : Nat)
  | float (x : Float)
  | symbol (s : String)
  | close
  | data
  | bad (reason : String)

def Token.described : Token → String
  | name n => n
  | text _ => "string"
  | integer _ => "integer"
  | float _ => "float"
  | symbol s => s
  | close => "end of print statement"
  | data => "template data / text"
  | bad r => r

structure Placed where
  line : Nat
  token : Token

def escapeWide (cs : List Char) : List Char :=
  cs.flatMap fun c =>
    if c.toNat < 128 then [c]
    else if c.toNat < 256 then '\\' :: 'x' :: hexDigits 2 c.toNat
    else if c.toNat < 65536 then '\\' :: 'u' :: hexDigits 4 c.toNat
    else '\\' :: 'U' :: hexDigits 8 c.toNat

def isHex (c : Char) : Bool :=
  c.isDigit || ('a' ≤ c && c ≤ 'f') || ('A' ≤ c && c ≤ 'F')

def isOctal (c : Char) : Bool := '0' ≤ c && c ≤ '7'

def charOf (n : Nat) : Char :=
  if 0xd800 ≤ n && n < 0xe000 then Char.ofNat 0xfffd else Char.ofNat n

def unescape : Nat → List Char → Except String (List Char)
  | 0, _ => .ok []
  | _, [] => .ok []
  | fuel + 1, '\\' :: c :: cs =>
    let plain (out : List Char) : Except String (List Char) :=
      (unescape fuel cs).map (out ++ ·)
    let coded (count : Nat) (shape : String) : Except String (List Char) :=
      let digits := cs.take count
      if digits.length = count ∧ digits.all isHex then
        let n := readHex digits
        if 0x10ffff < n then .error "illegal Unicode character"
        else (unescape fuel (cs.drop count)).map (charOf n :: ·)
      else .error ("truncated \\" ++ shape ++ " escape")
    match c with
    | '\n' => plain []
    | '\\' => plain ['\\']
    | '\'' => plain ['\'']
    | '"' => plain ['"']
    | 'a' => plain [Char.ofNat 7]
    | 'b' => plain [Char.ofNat 8]
    | 't' => plain ['\t']
    | 'n' => plain ['\n']
    | 'v' => plain [Char.ofNat 11]
    | 'f' => plain [Char.ofNat 12]
    | 'r' => plain ['\r']
    | 'x' => coded 2 "xXX"
    | 'u' => coded 4 "uXXXX"
    | 'U' => coded 8 "UXXXXXXXX"
    | 'N' =>
      match cs with
      | '\x7b' :: _ => .error "unknown Unicode character name"
      | _ => .error "malformed \\N character escape"
    | _ =>
      if isOctal c then
        let more := (cs.take 2).takeWhile isOctal
        let n := (c :: more).foldl (fun n d => 8 * n + (d.toNat - 48)) 0
        (unescape fuel (cs.drop more.length)).map (Char.ofNat n :: ·)
      else plain ['\\', c]
  | fuel + 1, c :: cs => (unescape fuel cs).map (c :: ·)

def stringBody? (quote : Char) : List Char → Option (List Char × List Char)
  | [] => none
  | '\\' :: c :: cs => (stringBody? quote cs).map fun (b, r) => ('\\' :: c :: b, r)
  | c :: cs =>
    if c == quote then some ([], cs)
    else if c == '\\' then none
    else (stringBody? quote cs).map fun (b, r) => (c :: b, r)

def digitSpan (ok : Char → Bool) : List Char → List Char × List Char
  | [] => ([], [])
  | c :: cs =>
    if ok c then
      let (front, rest) := digitSpan ok cs
      (c :: front, rest)
    else if c == '_' then
      match cs with
      | d :: _ =>
        if ok d then
          let (front, rest) := digitSpan ok cs
          (c :: front, rest)
        else ([], c :: cs)
      | [] => ([], c :: cs)
    else ([], c :: cs)

def digitFront (ok : Char → Bool) : List Char → List Char × List Char
  | '_' :: cs => ([], '_' :: cs)
  | cs => digitSpan ok cs

def exponentFront? : List Char → Option (List Char × List Char)
  | e :: cs =>
    if e == 'e' || e == 'E' then
      let (sign, body) := match cs with
        | '+' :: more => (['+'], more)
        | '-' :: more => (['-'], more)
        | _ => ([], cs)
      let (digits, rest) := digitFront isDecimal body
      if digits.isEmpty then none else some (e :: sign ++ digits, rest)
    else none
  | [] => none

def floatFront? (cs : List Char) : Option (List Char × List Char) :=
  let (whole, rest) := digitFront isDecimal cs
  if whole.isEmpty then none
  else
    let fraction : Option (List Char × List Char) := match rest with
      | '.' :: more =>
        let (digits, after) := digitFront isDecimal more
        if digits.isEmpty then none else some ('.' :: digits, after)
      | _ => none
    match fraction with
    | some (f, after) =>
      match exponentFront? after with
      | some (e, rest) => some (whole ++ f ++ e, rest)
      | none => some (whole ++ f, after)
    | none => (exponentFront? rest).map fun (e, rest) => (whole ++ e, rest)

def markedDigits? (ok : Char → Bool) (cs : List Char) : Option (List Char × List Char) :=
  let (digits, rest) := match cs with
    | '_' :: more =>
      let (d, r) := digitFront ok more
      if d.isEmpty then ([], cs) else ('_' :: d, r)
    | _ => digitFront ok cs
  if digits.isEmpty then none else some (digits, rest)

def integerFront? (cs : List Char) : Option (Nat × List Char) :=
  let value (base : Nat) (digits : List Char) : Nat :=
    (digits.filter (· != '_')).foldl (fun n c => base * n + (baseDigit? c).getD 0) 0
  let marked : Option (Nat × List Char) := match cs with
    | '0' :: m :: more =>
      if m == 'b' || m == 'B' then
        (markedDigits? (fun c => c == '0' || c == '1') more).map fun (d, r) => (value 2 d, r)
      else if m == 'o' || m == 'O' then
        (markedDigits? isOctal more).map fun (d, r) => (value 8 d, r)
      else if m == 'x' || m == 'X' then
        (markedDigits? isHex more).map fun (d, r) => (value 16 d, r)
      else none
    | _ => none
  match marked with
  | some r => some r
  | none =>
    match cs with
    | '0' :: _ => some (0, (digitSpan (· == '0') cs).2)
    | c :: _ =>
      if '1' ≤ c && c ≤ '9' then
        let (digits, rest) := digitSpan isDecimal cs
        some (value 10 digits, rest)
      else none
    | [] => none

def isNameChar (c : Char) : Bool := isWord c || isIdentifierContinue c

def pairSymbols : List String := ["//", "**", "==", "!=", ">=", "<="]

def singleSymbols : List Char :=
  ['+', '-', '/', '*', '%', '~', '[', ']', '(', ')', '\x7b', '\x7d', '>', '<', '=', '.', ':', '|',
    ',', ';']

def symbolFront? (cs : List Char) : Option (String × List Char) :=
  match cs with
  | c :: d :: rest =>
    let pair := String.ofList [c, d]
    if pairSymbols.contains pair then some (pair, rest)
    else if singleSymbols.contains c then some (String.ofList [c], d :: rest)
    else none
  | [c] => if singleSymbols.contains c then some (String.ofList [c], []) else none
  | [] => none

def balance (stack : List String) (s : String) : Except String (List String) :=
  if s == "\x7b" then .ok ("\x7d" :: stack)
  else if s == "(" then .ok (")" :: stack)
  else if s == "[" then .ok ("]" :: stack)
  else if s == "\x7d" || s == ")" || s == "]" then
    match stack with
    | [] => .error ("unexpected '" ++ s ++ "'")
    | top :: rest =>
      if top == s then .ok rest
      else .error ("unexpected '" ++ s ++ "', expected '" ++ top ++ "'")
  else .ok stack

def closeFront? : List Char → Option (List Char)
  | '-' :: '\x7d' :: '\x7d' :: cs => some (cs.dropWhile isBlank)
  | '\x7d' :: '\x7d' :: cs => some cs
  | _ => none

structure Cursor where
  position : Nat := 0
  line : Nat := 1
  afterPoint : Bool := false
  stack : List String := []

def Cursor.past (at' : Cursor) (cs rest : List Char) : Cursor :=
  let taken := cs.take (cs.length - rest.length)
  { at' with
    position := at'.position + taken.length
    line := at'.line + taken.count '\n'
    afterPoint := taken.getLast? == some '.' }

inductive Step where
  | stop (tokens : List Token)
  | skip (rest : List Char)
  | token (t : Token) (rest : List Char)
  | bracket (t : Token) (stack : List String) (rest : List Char)

def step (at' : Cursor) (cs : List Char) : Step :=
  match (if at'.stack.isEmpty then closeFront? cs else none) with
  | some rest => .stop (if rest.isEmpty then [.close] else [.close, .data])
  | none =>
    let (blanks, rest) := cs.span isBlank
    if !blanks.isEmpty then .skip rest
    else
      match (if at'.afterPoint then none else floatFront? cs) with
      | some (digits, rest) =>
        .token (.float ((readFloat? digits).getD notANumber)) rest
      | none =>
        match integerFront? cs with
        | some (n, rest) => .token (.integer n) rest
        | none =>
          let (word, rest) := cs.span isNameChar
          if !word.isEmpty then
            if isIdentifier word then .token (.name (String.ofList word)) rest
            else .stop [.bad "Invalid character in identifier"]
          else
            let string : Option (List Char × List Char) := match cs with
              | '\'' :: body => stringBody? '\'' body
              | '"' :: body => stringBody? '"' body
              | _ => none
            match string with
            | some (body, rest) =>
              let plain := escapeWide body
              match unescape plain.length plain with
              | .ok s => .token (.text (String.ofList s)) rest
              | .error reason => .stop [.bad reason]
            | none =>
              match symbolFront? cs with
              | some (s, rest) =>
                match balance at'.stack s with
                | .ok stack => .bracket (.symbol s) stack rest
                | .error reason => .stop [.bad reason]
              | none =>
                let c := String.ofList (cs.take 1)
                .stop [.bad ("unexpected char " ++ quoted c ++ " at " ++ toString at'.position)]

def scanFrom : Nat → Cursor → List Char → List Placed
  | 0, _, _ => []
  | _, _, [] => []
  | fuel + 1, at', cs =>
    match step at' cs with
    | .stop tokens => tokens.map fun t => ⟨at'.line, t⟩
    | .skip rest => scanFrom fuel (at'.past cs rest) rest
    | .token t rest => ⟨at'.line, t⟩ :: scanFrom fuel (at'.past cs rest) rest
    | .bracket t stack rest =>
      ⟨at'.line, t⟩ :: scanFrom fuel { at'.past cs rest with stack := stack } rest

def scan (s : String) : List Placed :=
  let cs := unifyLines s.toList
  scanFrom cs.length {} cs

end SheetTemplate.Expr
