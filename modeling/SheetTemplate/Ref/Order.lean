import SheetTemplate.Ref.Cell
import Std.Data.TreeMap

namespace SheetTemplate

structure Pos where
  row : Int
  col : Int
  deriving DecidableEq, Repr, Inhabited

namespace Pos

def order (a b : Pos) : Ordering := (compare a.row b.row).then (compare a.col b.col)

instance : Std.TransCmp order :=
  inferInstanceAs (Std.TransCmp (compareLex (compareOn Pos.row) (compareOn Pos.col)))

instance : Std.LawfulEqCmp order where
  eq_of_compare {a b} h := by
    cases a
    cases b
    simp only [order, Ordering.then_eq_eq, Std.LawfulEqCmp.compare_eq_iff_eq] at h
    simp [h]

def offset (p : Pos) (rows cols : Int) : Pos := ⟨p.row + rows, p.col + cols⟩

end Pos

namespace CellRef

def pos (r : CellRef) : Pos := ⟨r.row, r.col⟩

def ofPos (sheet : String) (p : Pos) : CellRef := ⟨sheet, p.row, p.col⟩

def order (a b : CellRef) : Ordering :=
  (compare a.sheet b.sheet).then ((compare a.row b.row).then (compare a.col b.col))

instance : Std.TransCmp order :=
  inferInstanceAs (Std.TransCmp (compareLex (compareOn CellRef.sheet)
    (compareLex (compareOn CellRef.row) (compareOn CellRef.col))))

instance : Std.LawfulEqCmp order where
  eq_of_compare {a b} h := by
    cases a
    cases b
    simp only [order, Ordering.then_eq_eq, Std.LawfulEqCmp.compare_eq_iff_eq] at h
    simp [h]

end CellRef

end SheetTemplate
