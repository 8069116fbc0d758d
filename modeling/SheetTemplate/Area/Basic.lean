import SheetTemplate.Command.Basic
import SheetTemplate.Directive.Basic
import SheetTemplate.Ref.Order

namespace SheetTemplate

open Number Text

mutual

structure Area where
  start : CellRef
  size : Size
  bindings : List Binding := []
  listeners : List Nat := []
  bound : Bool := true

structure Binding where
  command : Command
  start : CellRef
  size : Size
  areas : List Area := []

end

namespace Area

def ref (a : Area) : AreaRef := .ofSize a.start a.size

def lastCell (a : Area) : CellRef := a.ref.last

def contains (a : Area) (r : CellRef) : Bool := r.sheet == a.start.sheet && a.size.covers a.start r

def cells (a : Area) : List CellRef := a.size.cellsFrom a.start

def shown (a : Area) : String :=
  "Area(" ++ a.ref.label ++ " " ++ a.size.text ++ ", " ++ showInt a.bindings.length ++ " commands)"

def before (b c : Binding) : Bool :=
  b.start.row < c.start.row || (b.start.row == c.start.row && b.start.col ≤ c.start.col)

def sorted (a : Area) : Area := { a with bindings := a.bindings.mergeSort before }

mutual

def walk (depth : Nat) : Area → List (Area × Nat)
  | ⟨start, size, bindings, listeners, bound⟩ =>
    (⟨start, size, bindings, listeners, bound⟩, depth) :: walkBindings (depth + 1) bindings

def walkBindings (depth : Nat) : List Binding → List (Area × Nat)
  | [] => []
  | ⟨_, _, _, areas⟩ :: rest => walkAll depth areas ++ walkBindings depth rest

def walkAll (depth : Nat) : List Area → List (Area × Nat)
  | [] => []
  | a :: rest => walk depth a ++ walkAll depth rest

end

end Area

end SheetTemplate
