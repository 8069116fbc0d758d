import SheetTemplate.Fill.Run

namespace SheetTemplate

open Text

namespace Outline

def indent (n : Nat) : String := String.ofList (List.replicate (2 * n) ' ')

def isCovered (bindings : List Binding) (r : CellRef) : Bool :=
  bindings.any fun b => b.size.covers b.start r

def expressionLines (m : Marks) (front : String) (info : CellInfo) : List String :=
  let name := (info.ref.name).toOption.getD ""
  let line (sign text : String) : List String :=
    if Segment.isMarked m text.toList then [front ++ "    " ++ name ++ ": " ++ sign ++ text]
    else []
  let value := match info.value with
    | .text s => line "" s
    | _ => []
  value ++ ((info.formula?.map (line "=")).getD [])

def attributesText (c : Command) : String :=
  joinText "" (c.shownAttributes.map fun (k, v) => " " ++ k ++ "=\"" ++ v ++ "\"")

def expressions (t : Template) (m : Marks) (level : Nat) (a : Area) : List String :=
  let cells := a.cells.filter fun r => !isCovered a.bindings r
  let lines := (cells.filterMap t.cell?).flatMap (expressionLines m (indent level))
  if lines.isEmpty then [] else (indent level ++ "  Expressions:") :: lines

mutual

def ofArea (t : Template) (m : Marks) (level : Nat) : Area → List String
  | ⟨start, size, bindings, listeners, bound⟩ =>
    let a : Area := ⟨start, size, bindings, listeners, bound⟩
    (indent level ++ a.ref.label ++ " area " ++ size.text) :: expressions t m level a ++
      (if bindings.isEmpty then [] else [indent level ++ "  Commands:"]) ++
      ofBindings t m level bindings

def ofBindings (t : Template) (m : Marks) (level : Nat) : List Binding → List String
  | [] => []
  | ⟨command, start, size, areas⟩ :: rest =>
    (indent level ++ "    " ++ start.label ++ " " ++ command.name ++ " " ++ size.text ++
      attributesText command) :: ofAreas t m (level + 3) areas ++ ofBindings t m level rest

def ofAreas (t : Template) (m : Marks) (level : Nat) : List Area → List String
  | [] => []
  | a :: rest => ofArea t m level a ++ ofAreas t m level rest

end

end Outline

namespace FillOptions

def outline (o : FillOptions) (name : String) (book : Workbook) :
    Except Failure String × FillState :=
  let (r, s) := o.areas.run (o.opened name book)
  let lines (areas : List Area) : List String :=
    ("Template: " ++ name) :: areas.flatMap (Outline.ofArea s.template o.host.marks 0)
  (r.map fun areas => joinText "" ((lines areas).map (· ++ "\n")), s)

end FillOptions

end SheetTemplate
