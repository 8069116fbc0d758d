import SheetTemplate.Area.Basic
import SheetTemplate.Fill.Write
import SheetTemplate.Formula.Reference

/-!
Moving the references of copied formulas to where the cells they name were copied. Copies in an
unbroken row or column become a range, others a list; a cell of the area that was not copied
becomes the default of the formula's cell.
-/

namespace SheetTemplate

open Number Text

namespace Formula

def defaultText : String := "0"

def mostArguments : Nat := 255

/-- What a formula is moved for: the area, the copies of each cell, the copy it is in, the
strategy, and the text for cells that were not copied. -/
structure Move where
  area : Area
  targets : CellRef → List CellRef
  target : CellRef
  strategy : FormulaStrategy
  absent : String

def unseen (seen : Std.TreeMap CellRef Unit CellRef.order) : List CellRef → List CellRef
  | [] => []
  | r :: rest =>
    if seen.contains r then unseen seen rest else r :: unseen (seen.insert r ()) rest

theorem contains_insert_eq (seen : Std.TreeMap CellRef Unit CellRef.order) (r x : CellRef) :
    (seen.insert r ()).contains x = (x == r || seen.contains x) := by
  rw [Std.TreeMap.contains_insert]
  by_cases hx : x = r
  · simp [hx]
  · have hc : CellRef.order r x ≠ .eq := fun he => hx (Std.LawfulEqCmp.eq_of_compare he).symm
    rw [beq_eq_false_iff_ne.2 hx, beq_eq_false_iff_ne.2 hc]

theorem unseen_eq_eraseDups (seen : Std.TreeMap CellRef Unit CellRef.order)
    (refs : List CellRef) :
    unseen seen refs = (refs.filter fun r => !seen.contains r).eraseDups := by
  induction refs generalizing seen with
  | nil => rfl
  | cons r rest ih =>
    rw [unseen]
    cases h : seen.contains r with
    | true => simp [h, ih]
    | false =>
      have hf : (fun x => !(seen.insert r ()).contains x) = fun x => !x == r && !seen.contains x := by
        funext x
        simp [contains_insert_eq, -Std.TreeMap.contains_insert]
      simp [h, ih, hf, List.eraseDups_cons, List.filter_filter, -Std.TreeMap.contains_insert]

def distinct (refs : List CellRef) : List CellRef := unseen ∅ refs

theorem distinct_eq_eraseDups (refs : List CellRef) : distinct refs = refs.eraseDups := by
  rw [distinct, unseen_eq_eraseDups, List.filter_eq_self.2]
  simp

namespace Move

variable (m : Move)

/-- The copies that the strategy allows; those on the sheet of the formula come before others. -/
def allowed (refs : List CellRef) : List CellRef :=
  -- Copies on other sheets count only when there is none on the sheet of the formula.
  let near := refs.filter fun r => r.sheet == m.target.sheet
  let refs := if near.isEmpty then refs else near
  match m.strategy with
  | .default => refs
  | .byColumn => refs.filter fun r => r.col == m.target.col
  | .byRow => refs.filter fun r => r.row == m.target.row

def front (qualified : Bool) (r : CellRef) : String :=
  if qualified || r.sheet != m.target.sheet then SheetTitle.quoteIfNeeded r.sheet ++ "!" else ""

def least (l : List Int) (n : Int) : Int := l.foldl min n

def greatest (l : List Int) (n : Int) : Int := l.foldl max n

def bounds (r : CellRef) (refs : List CellRef) : CellRef × CellRef :=
  let rows := refs.map (·.row)
  let cols := refs.map (·.col)
  (⟨r.sheet, least rows r.row, least cols r.col⟩,
    ⟨r.sheet, greatest rows r.row, greatest cols r.col⟩)

def run? (refs : List CellRef) : Option (CellRef × CellRef) :=
  match refs with
  | [] => none
  | r :: rest =>
    let (first, last) := bounds r rest
    if rest.any fun x => x.sheet != r.sheet then none
    else if first.col = last.col && last.row - first.row + 1 = refs.length then some (first, last)
    else if first.row = last.row && last.col - first.col + 1 = refs.length then some (first, last)
    else none

def render (qualified : Bool) (refs : List CellRef) : Except Failure String := do
  match refs with
  | [r] => return m.front qualified r ++ (← r.name)
  | _ =>
    match run? refs with
    | some (first, last) =>
      return m.front qualified first ++ (← first.name) ++ ":" ++ (← last.name)
    | none =>
      let parts ← refs.mapM fun r => do return m.front qualified r ++ (← r.name)
      return joinText (if mostArguments < parts.length then "+" else ",") parts

/-- The range around cells on the sheet of the first. -/
def renderBounds (qualified : Bool) (refs : List CellRef) : Except Failure String := do
  match refs with
  | [] => return ""
  | r :: rest =>
    let (first, last) := bounds r (rest.filter fun x => x.sheet == r.sheet)
    return m.front qualified r ++ (← first.name) ++ ":" ++ (← last.name)

def relocateRef (r : FormulaRef) (written : String) : Except Failure String :=
  let home := m.area.start.sheet
  let sheet := (r.sheet?.map String.ofList).getD home
  let qualified := r.sheet?.isSome && sheet != home
  let sources := (r.first :: r.last?.toList).map fun p => CellRef.ofPos sheet p
  let history := sources.flatMap m.targets
  if history.isEmpty then .ok (if sources.any m.area.contains then m.absent else written)
  else
    let copies := m.allowed (distinct history)
    if copies.isEmpty then .ok m.absent
    else if r.last?.isSome then
      -- An endpoint outside of the area that was not copied stays where it is.
      let fixed := sources.filter fun s => (m.targets s).isEmpty && !m.area.contains s
      m.renderBounds qualified (copies ++ fixed)
    else m.render qualified copies

def relocatePiece : FormulaPiece → Except Failure String
  | .char c => .ok (String.ofList [c])
  | .reference r written => m.relocateRef r (String.ofList written)

def relocate (formula : String) : Except Failure String := do
  return joinText "" (← (split formula.toList).mapM m.relocatePiece)

end Move

def moveFor (area : Area) (history : History) (info : CellInfo) (target : CellRef) : Move where
  area := area
  targets := history.targets
  target := target
  strategy := info.strategy
  absent := (info.default?.filter fun s => !s.isEmpty).getD defaultText

def relocateCopy (area : Area) (history : History) (info : CellInfo) (target : CellRef) :
    Except Failure String :=
  let formula := (((history.of info.ref).formulas.lookup target).or info.formula?).getD ""
  (moveFor area history info target).relocate formula

/-- What becomes of all copies of the formula cells of an area. -/
def relocations (area : Area) (t : Template) (history : History) :
    List (CellRef × Except Failure String) :=
  (t.formulas.filter fun i => area.contains i.ref).flatMap fun i =>
    (history.targets i.ref).map fun target => (target, relocateCopy area history i target)

def putCopy (c : CellRef × Except Failure String) : FillM Unit := do
  FillM.setFormula c.1 (← FillM.ofExcept c.2)

def relocateArea (area : Area) : FillM Unit := do
  let s ← get
  let copies := relocations area s.template s.history
  copies.forM putCopy
  FillM.log .info "formula" ("Processed " ++ showInt copies.length ++ " formulas in " ++
    area.ref.label)

end Formula

end SheetTemplate
