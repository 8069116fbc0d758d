import SheetTemplate.Text.Ranges
import SheetTemplate.Text.Scan

namespace SheetTemplate.CommandLine

open Text

structure Arguments where
  template? : Option String := none
  data? : Option String := none
  dataName : String := "items"
  output? : Option String := none
  config : String := "config.yaml"
  logLevel? : Option String := none
  validate : Bool := false
  describe : Bool := false
  noClear : Bool := false
  recalculate : Bool := false
  extra : List String := []
  deriving DecidableEq, Repr

inductive Choice where
  | help | data | dataName | output | config | validate | describe | noClear | recalculate
  | logLevel
  deriving DecidableEq, Repr

def Choice.takesValue : Choice → Bool
  | data | dataName | output | config | logLevel => true
  | _ => false

def choices : List (String × Choice) :=
  [("-h", .help), ("--help", .help), ("--data", .data), ("-d", .data), ("--data-name", .dataName),
    ("--output", .output), ("-o", .output), ("--config", .config), ("--validate", .validate),
    ("--describe", .describe), ("--no-clear", .noClear), ("--recalculate", .recalculate),
    ("--log-level", .logLevel)]

namespace Arguments

inductive Item where
  | word (s : String)
  | choice (c : Choice) (isShort : Bool) (value? : Option String)
  | unknown (s : String)
  | dashes

def cutValue (cs : List Char) : String × Option String :=
  match splitFirst? ['='] cs with
  | some (name, v) => (String.ofList name, some (String.ofList v))
  | none => (String.ofList cs, none)

def candidates (cs : List Char) : List Item :=
  match cs with
  | '-' :: '-' :: _ =>
    let (name, value?) := cutValue cs
    (choices.filter fun (n, _) => startsWith name.toList n.toList).map fun (_, c) =>
      .choice c false value?
  | _ =>
    choices.filterMap fun (n, c) =>
      if n.toList == cs.take 2 then some (.choice c true (some (String.ofList (cs.drop 2))))
      else if startsWith cs n.toList then some (.choice c false none)
      else none

def isNegativeNumber (cs : List Char) : Bool :=
  match cs with
  | '-' :: rest =>
    let (whole, more) := rest.span Char.isDigit
    match more with
    | [] => !whole.isEmpty
    | '.' :: places => !places.isEmpty && places.all Char.isDigit
    | _ => false
  | _ => false

def item? (s : String) : Option Item :=
  let cs := s.toList
  let (name, value?) := cutValue cs
  let isShort (n : String) : Bool := n.length == 2
  match List.lookup s choices, value?.bind fun _ => List.lookup name choices with
  | some c, _ => some (.choice c (isShort s) none)
  | none, some c => if cs.head? == some '-' then some (.choice c (isShort name) value?) else none
  | none, none =>
    if cs.head? != some '-' || cs.length < 2 then some (.word s)
    else
      match candidates cs with
      | [found] => some found
      | _ :: _ => none
      | [] =>
        if isNegativeNumber cs || cs.contains ' ' then some (.word s) else some (.unknown s)

def items? : List String → Option (List Item)
  | [] => some []
  | "--" :: rest => some (.dashes :: rest.map .word)
  | s :: rest => do
    let item ← item? s
    let items ← items? rest
    some (item :: items)

def addWord (a : Arguments) (s : String) : Arguments :=
  match a.template? with
  | none => { a with template? := some s }
  | some _ => { a with extra := a.extra ++ [s] }

def set (a : Arguments) (value : String) : Choice → Arguments
  | .data => { a with data? := some value }
  | .dataName => { a with dataName := value }
  | .output => { a with output? := some value }
  | .config => { a with config := value }
  | .logLevel => { a with logLevel? := some value }
  | .validate => { a with validate := true }
  | .describe => { a with describe := true }
  | .noClear => { a with noClear := true }
  | .recalculate => { a with recalculate := true }
  | .help => a

end Arguments

inductive Request where
  | run (a : Arguments)
  | help
  | unfit

namespace Arguments

def read (a : Arguments) : List Item → Request
  | [] => if a.extra.isEmpty then .run a else .unfit
  | .word s :: .dashes :: rest => if a.template?.isSome then .unfit else read (a.addWord s) rest
  | .word s :: rest => read (a.addWord s) rest
  | .unknown s :: rest => read { a with extra := a.extra ++ [s] } rest
  | .dashes :: rest => if a.template?.isSome then .unfit else read a rest
  | .choice .help _ none :: _ => .help
  | .choice .help isShort (some s) :: _ =>
    if isShort && ['h', 'd', 'o'].contains (s.toList.headD ' ') then .help else .unfit
  | .choice c _ (some v) :: rest => if c.takesValue then read (a.set v c) rest else .unfit
  | .choice c _ none :: rest =>
    if c.takesValue then
      match rest with
      | .word v :: rest => read (a.set v c) rest
      | _ => .unfit
    else read (a.set "" c) rest

def parse (args : List String) : Request :=
  match items? args with
  | some items => read {} items
  | none => .unfit

end Arguments

end SheetTemplate.CommandLine
