import SheetTemplate.Value.Compare

namespace SheetTemplate

open Value

namespace Expr

inductive Unary where
  | neg | pos
  deriving DecidableEq, Repr

inductive Binary where
  | add | sub | mul | div | floorDiv | mod | pow
  deriving DecidableEq, Repr

def Binary.symbol : Binary → String
  | add => "+"
  | sub => "-"
  | mul => "*"
  | div => "/"
  | floorDiv => "//"
  | mod => "%"
  | pow => "** or pow()"

inductive Comparison where
  | eq | ne | order (o : Value.Ordering) | within | notWithin
  deriving DecidableEq, Repr

end Expr

mutual

inductive Expr where
  | const (v : Value)
  | name (n : String)
  | list (items : List Expr)
  | tuple (items : List Expr)
  | dict (entries : List (Expr × Expr))
  | property (holder : Expr) (name : String)
  | item (holder key : Expr)
  | slice (holder : Expr) (start stop step : Option Expr)
  | call (function : Expr) (arguments : List Argument)
  | filter (subject : Expr) (name : String) (arguments : List Argument)
  | test (subject : Expr) (name : String) (arguments : List Argument)
  | unary (op : Expr.Unary) (operand : Expr)
  | binary (op : Expr.Binary) (left right : Expr)
  | concat (parts : List Expr)
  | compare (first : Expr) (rest : List (Expr.Comparison × Expr))
  | and (left right : Expr)
  | or (left right : Expr)
  | not (operand : Expr)
  | cond (test yes : Expr) (no : Option Expr) (line : Nat)

inductive Argument where
  | positional (e : Expr)
  | named (name : String) (e : Expr)
  | spread (e : Expr)
  | spreadNamed (e : Expr)

end

instance : Inhabited Expr := ⟨.const .null⟩

end SheetTemplate
