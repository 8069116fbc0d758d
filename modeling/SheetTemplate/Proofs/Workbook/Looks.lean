import SheetTemplate.Proofs.Workbook.Faces

namespace SheetTemplate

def Cell.settled (c : Cell) : Cell := { c with font? := some c.font }

def Slot.look? : Slot → Option Cell
  | .cell c => some c.settled
  | .covered => none

namespace Sheet

variable {s t : Sheet} {p q : Pos}

def look? (s : Sheet) (p : Pos) : Option Cell :=
  (s.slots[p]?.map Slot.look?).getD (some (Cell.settled {}))

theorem look?_congr (h : t.slots[p]? = s.slots[p]?) : t.look? p = s.look? p := by
  rw [look?, look?, h]

theorem look?_of_cell? {c : Cell} (h : s.cell? p = some c) : s.look? p = some c.settled := by
  rw [look?, (s.cell?_eq_some p).1 h]
  rfl

theorem look?_eq_none : s.look? p = none ↔ s.slots[p]? = some .covered := by
  rw [look?]
  cases hp : s.slots[p]? with
  | none => simp
  | some slot => cases slot <;> simp [Slot.look?]

theorem look?_setCell (c : Cell) :
    (s.setCell p c).look? q = if q = p then some c.settled else s.look? q := by
  rw [look?, slot_setCell]
  by_cases hq : q = p
  · rw [if_pos hq, if_pos hq]
    rfl
  · rw [if_neg hq, if_neg hq, look?]

theorem look?_touch : (s.touch p).look? q = s.look? q := by
  rw [look?, slot_touch, look?]
  by_cases hq : q = p
  · rw [hq, if_pos rfl]
    cases s.slots[p]? <;> rfl
  · rw [if_neg hq]

theorem look?_touchFont : (s.touchFont p).look? q = s.look? q := by
  simp only [touchFont]
  split
  · next c hc =>
    rw [look?_setCell]
    split
    · next h =>
      rw [h, ← look?_touch, look?_of_cell? hc]
      rfl
    · exact look?_touch
  · exact look?_touch

theorem look?_merge? {b : Block} (h : s.merge? b = some t) :
    t.look? q = none ∨ t.look? q = s.look? q := by
  rw [merge?] at h
  split at h
  · cases h
    by_cases hq : q ∈ b.hidden
    · refine .inl (look?_eq_none.2 ?_)
      rw [slot_insertAll, if_pos hq]
    · have hslot : (s.touchFont b.first).look? q = s.look? q := look?_touchFont
      refine .inr (Eq.trans (look?_congr ?_) hslot)
      rw [slot_insertAll, if_neg hq]
  · cases h

theorem look?_duplicate (title : String) :
    (s.duplicate title).look? p = some ((s.look? p).getD (Cell.settled {})) := by
  rw [look?, look?, duplicate, Std.TreeMap.getElem?_map]
  cases s.slots[p]? with
  | none => rfl
  | some slot => cases slot <;> rfl

end Sheet

namespace Workbook

variable {w : Workbook} {r : CellRef} {title : String} {f : Sheet → Sheet} {x : Sheet}

def look? (w : Workbook) (r : CellRef) : Option Cell := (w.find? r.sheet).bind fun s => s.look? r.pos

theorem look?_of_find? (h : w.find? r.sheet = some x) : w.look? r = x.look? r.pos := by
  rw [look?, h]
  rfl

theorem look?_modify (hf : ∀ s, (f s).title = s.title) (hx : w.find? title = some x) :
    (w.modify title f).look? r = if r.sheet = title then (f x).look? r.pos else w.look? r := by
  rw [look?, find?_modify w hf]
  split
  · next h =>
    rw [h, hx]
    rfl
  · rfl

end Workbook

end SheetTemplate
