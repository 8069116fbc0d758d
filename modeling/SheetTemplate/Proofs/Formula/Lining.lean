import SheetTemplate.Proofs.Formula.Summing

namespace SheetTemplate

open Number Text

namespace Formula.Move

variable {m : Move} {refs : List CellRef}

def inLine (m : Move) (r : CellRef) : Bool :=
  match m.strategy with
  | .default => true
  | .byColumn => r.col == m.target.col
  | .byRow => r.row == m.target.row

theorem allowed_of_near (h : ∀ r ∈ refs, r.sheet = m.target.sheet) :
    m.allowed refs = refs.filter m.inLine := by
  have hnear : (refs.filter fun r => r.sheet == m.target.sheet) = refs :=
    List.filter_eq_self.2 fun r hr => beq_iff_eq.2 (h r hr)
  have hall : refs.filter (fun _ => true) = refs := List.filter_true refs
  simp only [allowed, hnear, ite_self]
  unfold inLine
  cases m.strategy with
  | default => exact hall.symm
  | byColumn => rfl
  | byRow => rfl

theorem relocateRef_inLine {r : FormulaRef} (hr : r.sheet? = none) (hlast : r.last? = none)
    {x y : CellRef} (hx : CellRef.ofPos m.area.start.sheet r.first = x)
    (hnodup : (m.targets x).Nodup) (hnear : ∀ z ∈ m.targets x, z.sheet = m.target.sheet)
    (hy : y ∈ m.targets x) (hline : ∀ z ∈ m.targets x, m.inLine z = true ↔ z = y)
    (hnamed : y.pos.Named) (written : String) : m.relocateRef r written = .ok y.shown := by
  have hhistory : ([x] : List CellRef).flatMap m.targets = m.targets x := List.flatMap_singleton _ _
  have hsome : (m.targets x).isEmpty = false := by
    rw [List.isEmpty_eq_false_iff]
    exact List.ne_nil_of_mem hy
  have honly : (m.targets x).filter m.inLine = [y] := by
    have hsame : (m.targets x).filter m.inLine = (m.targets x).filter fun z => z == y && true := by
      refine List.filter_congr fun z hz => ?_
      rw [Bool.and_true, Bool.eq_iff_iff, hline z hz, beq_iff_eq]
    rw [hsame, filter_self hnodup, if_pos ⟨hy, rfl⟩]
  have hfront : m.front false y = "" := by
    rw [front, hnear y hy]
    simp
  simp only [relocateRef, hr, hlast, Option.map_none, Option.getD_none, Option.isSome_none,
    Option.toList_none, List.map_cons, List.map_nil, hx, hhistory, hsome, Bool.false_and,
    Bool.false_eq_true, if_false, distinct_of_nodup hnodup, allowed_of_near hnear, honly,
    List.isEmpty_cons, render, hfront, CellRef.name_shown hnamed]
  simp [bind, Except.bind, pure, Except.pure]

end Formula.Move

end SheetTemplate
