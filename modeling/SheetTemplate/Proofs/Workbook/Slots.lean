import SheetTemplate.Workbook.Basic

namespace SheetTemplate

structure Content where
  value : Value := .null
  type : StoredType := .number

def Cell.content (c : Cell) : Content :=
  match c.value with
  | .null => {}
  | v => ⟨v, c.type⟩

def Slot.content : Slot → Content
  | .cell c => c.content
  | .covered => {}

theorem CellRef.eq_iff {x r : CellRef} : x = r ↔ x.sheet = r.sheet ∧ x.pos = r.pos := by
  cases x
  cases r
  simp only [CellRef.pos, Pos.mk.injEq, CellRef.mk.injEq]

theorem order_eq_iff {p q : Pos} : Pos.order p q = .eq ↔ q = p :=
  Std.LawfulEqCmp.compare_eq_iff_eq.trans eq_comm

namespace Sheet

variable (s : Sheet) (p q : Pos)

theorem slot_setCell (c : Cell) :
    (s.setCell p c).slots[q]? = if q = p then some (.cell c) else s.slots[q]? := by
  simp only [setCell, Std.TreeMap.getElem?_insert, order_eq_iff]

theorem covered_setCell (c : Cell) :
    (s.setCell p c).slots[q]? = some .covered ↔ q ≠ p ∧ s.slots[q]? = some .covered := by
  rw [slot_setCell]
  split
  · next h => simp [h]
  · next h => simp [h]

theorem slot_touch :
    (s.touch p).slots[q]? = if q = p then some (s.slots[p]?.getD (.cell {})) else s.slots[q]? := by
  rw [touch, Std.TreeMap.contains_eq_isSome_getElem?]
  cases hp : s.slots[p]? with
  | none => exact s.slot_setCell p q {}
  | some slot =>
    rw [Option.isSome_some, if_pos rfl]
    split
    · next h => rw [h, hp, Option.getD_some]
    · rfl

theorem covered_touch : (s.touch p).slots[q]? = some .covered ↔ s.slots[q]? = some .covered := by
  rw [slot_touch]
  split
  · next h =>
    rw [h]
    cases s.slots[p]? <;> simp
  · rfl

theorem content_touch :
    ((s.touch p).slots[q]?.map Slot.content).getD {} = (s.slots[q]?.map Slot.content).getD {} := by
  rw [slot_touch]
  split
  · next h =>
    rw [h]
    cases s.slots[p]? <;> rfl
  · rfl

theorem cell?_eq_some {c : Cell} : s.cell? p = some c ↔ s.slots[p]? = some (.cell c) := by
  rw [cell?, Option.bind_eq_some_iff]
  constructor
  · rintro ⟨slot, hslot, hc⟩
    cases slot with
    | cell d =>
      cases hc
      exact hslot
    | covered => cases hc
  · intro h
    exact ⟨_, h, rfl⟩

theorem cell?_eq_none : s.cell? p = none ↔ s.slots[p]? = none ∨ s.slots[p]? = some .covered := by
  rw [cell?, Option.bind_eq_none_iff]
  cases hp : s.slots[p]? with
  | none => simp
  | some slot => cases slot <;> simp [Slot.cell?]

theorem cell?_touch : (s.touch p).cell? p = (s.slots[p]?.getD (.cell {})).cell? := by
  rw [cell?, slot_touch, if_pos rfl]
  rfl

theorem cell?_touch_of_free (h : s.slots[p]? ≠ some .covered) :
    (s.touch p).cell? p = some ((s.cell? p).getD {}) := by
  rw [cell?_touch, cell?]
  cases hp : s.slots[p]? with
  | none => rfl
  | some slot =>
    cases slot with
    | cell c => rfl
    | covered => exact absurd hp h

theorem touch_title : (s.touch p).title = s.title := by
  rw [touch]
  split <;> rfl

theorem touch_merged : (s.touch p).merged = s.merged := by
  rw [touch]
  split <;> rfl

theorem slot_foldl_touch (ps : List Pos) :
    (ps.foldl touch s).slots[q]? =
      if q ∈ ps then some (s.slots[q]?.getD (.cell {})) else s.slots[q]? := by
  induction ps generalizing s with
  | nil => rfl
  | cons p ps ih =>
    rw [List.foldl_cons, ih, slot_touch]
    by_cases hp : q = p
    · subst hp
      simp
    · simp [hp]

theorem foldl_touch_title (ps : List Pos) : (ps.foldl touch s).title = s.title := by
  induction ps generalizing s with
  | nil => rfl
  | cons p ps ih => rw [List.foldl_cons, ih, touch_title]

theorem foldl_touch_merged (ps : List Pos) : (ps.foldl touch s).merged = s.merged := by
  induction ps generalizing s with
  | nil => rfl
  | cons p ps ih => rw [List.foldl_cons, ih, touch_merged]

theorem filled_title : s.filled.title = s.title := s.foldl_touch_title _

theorem filled_merged : s.filled.merged = s.merged := s.foldl_touch_merged _

theorem slot_filled :
    s.filled.slots[q]? = s.slots[q]? ∨ s.slots[q]? = none ∧ s.filled.slots[q]? = some (.cell {}) := by
  rw [filled, slot_foldl_touch]
  split
  · cases hq : s.slots[q]? with
    | none => exact .inr ⟨rfl, rfl⟩
    | some slot => exact .inl rfl
  · exact .inl rfl

theorem covered_filled : s.filled.slots[q]? = some .covered ↔ s.slots[q]? = some .covered := by
  rcases s.slot_filled q with h | ⟨hnone, h⟩
  · rw [h]
  · simp [hnone, h]

theorem content_filled :
    (s.filled.slots[q]?.map Slot.content).getD {} = (s.slots[q]?.map Slot.content).getD {} := by
  rcases s.slot_filled q with h | ⟨hnone, h⟩
  · rw [h]
  · rw [hnone, h]
    rfl

theorem covered_touchFont (h : (s.touchFont p).slots[q]? = some .covered) :
    s.slots[q]? = some .covered := by
  simp only [touchFont] at h
  split at h
  · rw [slot_setCell] at h
    split at h
    · cases h
    · exact (s.covered_touch p q).1 h
  · exact (s.covered_touch p q).1 h

theorem slot_insertAll (slots : Slots) (ps : List Pos) (slot : Slot) :
    (ps.foldl (fun slots p => slots.insert p slot) slots)[q]? =
      if q ∈ ps then some slot else slots[q]? := by
  induction ps generalizing slots with
  | nil => rfl
  | cons p ps ih =>
    rw [List.foldl_cons, ih, Std.TreeMap.getElem?_insert]
    simp only [order_eq_iff, List.mem_cons]
    by_cases hp : q = p
    · simp [hp]
    · simp [hp]

theorem merge?_title {b : Block} {t : Sheet} (h : s.merge? b = some t) : t.title = s.title := by
  rw [merge?] at h
  split at h
  · cases h
    simp only [touchFont]
    split <;> simp [setCell, touch_title]
  · cases h

theorem covered_merge? {b : Block} {t : Sheet} (h : s.merge? b = some t) {q : Pos}
    (hq : t.slots[q]? = some .covered) : q ∈ b.hidden ∨ s.slots[q]? = some .covered := by
  rw [merge?] at h
  split at h
  · cases h
    simp only [slot_insertAll] at hq
    split at hq
    · next hmem => exact .inl hmem
    · exact .inr (s.covered_touchFont b.first q hq)
  · cases h

theorem slot_removeAll (slots : Slots) (ps : List Pos) :
    (removeAll slots ps).1[q]? = slots[q]? ∨ (removeAll slots ps).1[q]? = none := by
  induction ps generalizing slots with
  | nil => exact .inl rfl
  | cons p ps ih =>
    rw [removeAll]
    split
    · rcases ih (slots.erase p) with h | h
      · rw [h, Std.TreeMap.getElem?_erase]
        split
        · exact .inr rfl
        · exact .inl rfl
      · exact .inr h
    · exact .inl rfl

theorem covered_unmerge {b : Block} {q : Pos}
    (hq : (s.unmerge b).1.slots[q]? = some .covered) : s.slots[q]? = some .covered := by
  rcases slot_removeAll q s.slots b.hidden with h | h
  · exact h.symm.trans hq
  · have : (removeAll s.slots b.hidden).1[q]? = some .covered := hq
    rw [h] at this
    cases this

end Sheet

namespace Workbook

variable (w : Workbook) {title : String} {f g : Sheet → Sheet}

def slot? (r : CellRef) : Option Slot := (w.find? r.sheet).bind fun s => s.slots[r.pos]?

def content (r : CellRef) : Content := ((w.slot? r).map Slot.content).getD {}

def Covers (r : CellRef) : Prop := w.slot? r = some .covered

theorem mem_titles {w : Workbook} {title : String} : title ∈ w.titles ↔ (w.find? title).isSome = true := by
  rw [titles, find?, List.find?_isSome, List.mem_map]
  simp only [beq_iff_eq]

theorem find?_title {s : Sheet} (h : w.find? title = some s) : s.title = title := by
  have := List.find?_some h
  exact eq_of_beq this

theorem find?_change (l : List Sheet) (hf : ∀ s, (f s).title = s.title) (t : String) :
    (modify.change title f l).find? (·.title == t) =
      if t = title then (l.find? (·.title == t)).map f else l.find? (·.title == t) := by
  induction l with
  | nil =>
    rw [modify.change]
    split <;> rfl
  | cons s rest ih =>
    rw [modify.change]
    by_cases hs : s.title = title
    · rw [if_pos (beq_iff_eq.2 hs), List.find?_cons, List.find?_cons, hf]
      by_cases ht : t = title
      · rw [if_pos ht, beq_iff_eq.2 (hs.trans ht.symm)]
        rfl
      · rw [if_neg ht, beq_false_of_ne fun h => ht (h.symm.trans hs)]
    · rw [if_neg (by simpa using hs), List.find?_cons, List.find?_cons, ih]
      by_cases hst : s.title = t
      · have ht : t ≠ title := fun h => hs (hst.trans h)
        rw [beq_iff_eq.2 hst, if_neg ht, if_neg ht]
      · rw [beq_false_of_ne hst]

theorem find?_modify (hf : ∀ s, (f s).title = s.title) (t : String) :
    (w.modify title f).find? t = if t = title then (w.find? t).map f else w.find? t :=
  find?_change w.sheets hf t

theorem titles_modify (hf : ∀ s, (f s).title = s.title) : (w.modify title f).titles = w.titles := by
  have : ∀ l, (modify.change title f l).map (·.title) = l.map (·.title) := by
    intro l
    induction l with
    | nil => rfl
    | cons s rest ih =>
      rw [modify.change]
      split
      · rw [List.map_cons, List.map_cons, hf]
      · rw [List.map_cons, List.map_cons, ih]
  exact this w.sheets

theorem modify_congr {s : Sheet} (hs : w.find? title = some s) (h : f s = g s) :
    w.modify title f = w.modify title g := by
  have : ∀ l, List.find? (·.title == title) l = some s →
      modify.change title f l = modify.change title g l := by
    intro l hl
    induction l with
    | nil => rfl
    | cons x rest ih =>
      rw [modify.change, modify.change]
      by_cases hx : x.title = title
      · rw [List.find?_cons, beq_iff_eq.2 hx] at hl
        cases hl
        rw [if_pos (beq_iff_eq.2 hx), if_pos (beq_iff_eq.2 hx), h]
      · rw [List.find?_cons, beq_false_of_ne hx] at hl
        rw [if_neg (by simpa using hx), if_neg (by simpa using hx), ih hl]
  rw [modify, modify, this w.sheets hs]

theorem modify_of_none (h : w.find? title = none) : w.modify title f = w := by
  have : ∀ l, List.find? (·.title == title) l = none → modify.change title f l = l := by
    intro l hl
    induction l with
    | nil => rfl
    | cons x rest ih =>
      rw [List.find?_eq_none] at hl
      rw [modify.change, if_neg (hl x List.mem_cons_self), ih]
      rw [List.find?_eq_none]
      exact fun y hy => hl y (List.mem_cons_of_mem x hy)
  rw [modify, this w.sheets h]

theorem find?_map {g : Sheet → Sheet} (hg : ∀ s, (g s).title = s.title) (title : String) :
    find? { w with sheets := w.sheets.map g } title = (w.find? title).map g := by
  have htitle : ((fun s : Sheet => s.title == title) ∘ g) = fun s => s.title == title := by
    funext s
    rw [Function.comp_apply, hg]
  rw [find?, List.find?_map, htitle]
  rfl

theorem slot?_modify (hf : ∀ s, (f s).title = s.title) (r : CellRef) :
    (w.modify title f).slot? r =
      if r.sheet = title then (w.find? title).bind fun s => (f s).slots[r.pos]? else w.slot? r := by
  rw [slot?, find?_modify w hf]
  split
  · next h =>
    rw [h]
    cases w.find? title <;> rfl
  · rfl

theorem modify_const {s u : Sheet} (hs : w.find? title = some s) (hu : u.title = s.title) :
    w.modify title (fun _ => u) = w.modify title fun x => { u with title := x.title } := by
  refine w.modify_congr hs ?_
  rw [← hu]

theorem slot?_const {s u : Sheet} (hs : w.find? title = some s) (hu : u.title = s.title)
    (r : CellRef) :
    (w.modify title fun _ => u).slot? r =
      if r.sheet = title then u.slots[r.pos]? else w.slot? r := by
  have hf : ∀ x : Sheet, { u with title := x.title }.title = x.title := fun _ => rfl
  rw [w.modify_const hs hu, slot?_modify w hf, hs]
  rfl

theorem titles_const {s u : Sheet} (hs : w.find? title = some s) (hu : u.title = s.title) :
    (w.modify title fun _ => u).titles = w.titles := by
  have hf : ∀ x : Sheet, { u with title := x.title }.title = x.title := fun _ => rfl
  rw [w.modify_const hs hu, titles_modify w hf]

theorem slot?_of_find? {r : CellRef} {s : Sheet} (h : w.find? r.sheet = some s) :
    w.slot? r = s.slots[r.pos]? := by
  rw [slot?, h]
  rfl

end Workbook

end SheetTemplate
