import SheetTemplate.Proofs.Area.Rows
import SheetTemplate.Proofs.Workbook.Slots

/-!
What a sheet looks like: what its positions show, which of them are covered, and by which blocks.
-/

namespace SheetTemplate

namespace Block

structure Has (b : Block) (p : Pos) : Prop where
  top : b.first.row ≤ p.row
  bottom : p.row ≤ b.last.row
  left : b.first.col ≤ p.col
  right : p.col ≤ b.last.col

theorem has_of_within {b outer : Block} (h : b.within outer = true) {p : Pos} (hp : b.Has p) :
    outer.Has p := by
  simp only [within, Bool.and_eq_true, decide_eq_true_eq] at h
  obtain ⟨htop, hbottom, hleft, hright⟩ := hp
  constructor
  all_goals omega

theorem Has.first {b : Block} {p : Pos} (h : b.Has p) : b.Has b.first := by
  obtain ⟨htop, hbottom, hleft, hright⟩ := h
  exact ⟨Int.le_refl _, Int.le_trans htop hbottom, Int.le_refl _, Int.le_trans hleft hright⟩

theorem within_self (b : Block) : b.within b = true := by
  simp [within]

theorem mem_rectangle {start p : Pos} {size : Size} : p ∈ rectangle start size ↔
    start.row ≤ p.row ∧ p.row < start.row + size.height ∧
      start.col ≤ p.col ∧ p.col < start.col + size.width := by
  have hcells : CellRef.ofPos "" p ∈ size.cellsFrom (.ofPos "" start) ↔ p ∈ rectangle start size := by
    rw [← Size.map_rectangle, List.mem_map]
    constructor
    · rintro ⟨q, hq, hqp⟩
      rwa [← show q = p from congrArg CellRef.pos hqp]
    · exact fun hp => ⟨p, hp, rfl⟩
  rw [← hcells, Size.mem_cellsFrom]
  constructor
  · rintro ⟨-, htop, hbottom, hleft, hright⟩
    exact ⟨htop, hbottom, hleft, hright⟩
  · rintro ⟨htop, hbottom, hleft, hright⟩
    exact ⟨rfl, htop, hbottom, hleft, hright⟩

theorem nodup_rectangle (start : Pos) (size : Size) : (rectangle start size).Nodup := by
  have hcols : ∀ r : Nat, ((List.range size.width.toNat).map fun (c : Nat) => start.offset r c).Nodup := by
    intro r
    apply List.nodup_range.map
    intro c c' h
    simp only [Pos.offset, Pos.mk.injEq] at h
    omega
  rw [rectangle, List.nodup_flatMap]
  refine ⟨fun r _ => hcols r, List.nodup_range.imp fun hne p hp hp' => hne ?_⟩
  obtain ⟨c, -, rfl⟩ := List.mem_map.1 hp
  obtain ⟨c', -, h⟩ := List.mem_map.1 hp'
  simp only [Pos.offset, Pos.mk.injEq] at h
  omega

theorem head?_rectangle {start p : Pos} {size : Size} (h : (rectangle start size).head? = some p) :
    p = start := by
  have hmem := mem_rectangle.1 (List.mem_of_mem_head? h)
  obtain ⟨m, hh⟩ : ∃ m, size.height.toNat = m + 1 := ⟨size.height.toNat - 1, by omega⟩
  obtain ⟨n, hw⟩ : ∃ n, size.width.toNat = n + 1 := ⟨size.width.toNat - 1, by omega⟩
  simp [rectangle, hh, hw, List.range_succ_eq_map, Pos.offset] at h
  exact h.symm

theorem mem_hidden {b : Block} {p : Pos} : p ∈ b.hidden ↔ b.Has p ∧ p ≠ b.first := by
  have hmem : p ∈ rectangle b.first b.size ↔ b.Has p := by
    rw [mem_rectangle]
    simp only [size]
    constructor
    · rintro ⟨htop, hbottom, hleft, hright⟩
      exact ⟨htop, by omega, hleft, by omega⟩
    · rintro ⟨htop, hbottom, hleft, hright⟩
      omega
  have hnodup := nodup_rectangle b.first b.size
  rw [hidden, ← hmem]
  cases hl : rectangle b.first b.size with
  | nil => simp
  | cons q rest =>
    have hq : q = b.first := head?_rectangle (by rw [hl]; rfl)
    rw [hl, List.nodup_cons] at hnodup
    subst hq
    rw [List.tail_cons, List.mem_cons]
    constructor
    · intro hp
      refine ⟨.inr hp, ?_⟩
      rintro rfl
      exact hnodup.1 hp
    · rintro ⟨hp, hne⟩
      exact hp.resolve_left hne

theorem hidden_of_within {b outer : Block} (h : b.within outer = true) {p : Pos}
    (hp : p ∈ b.hidden) : p ∈ outer.hidden := by
  obtain ⟨hhas, hne⟩ := mem_hidden.1 hp
  refine mem_hidden.2 ⟨has_of_within h hhas, ?_⟩
  rintro rfl
  apply hne
  simp only [within, Bool.and_eq_true, decide_eq_true_eq] at h
  obtain ⟨htop, hbottom, hleft, hright⟩ := hhas
  cases hb : b.first
  cases ho : outer.first
  simp only [hb, ho, Pos.mk.injEq] at *
  omega

def Respects (b : Block) (title : String) (a : Area) : Prop :=
  (∀ p, b.Has p → a.contains (.ofPos title p) = true) ∨
    ∀ p, b.Has p → a.contains (.ofPos title p) = false

theorem Respects.mono {b outer : Block} {title : String} {a : Area}
    (h : outer.Respects title a) (hb : b.within outer = true) : b.Respects title a :=
  h.imp (fun h p hp => h p (has_of_within hb hp)) fun h p hp => h p (has_of_within hb hp)

theorem Respects.contains_first {b : Block} {title : String} {a : Area} {p : Pos}
    (h : b.Respects title a) (hp : b.Has p) :
    a.contains (.ofPos title b.first) = a.contains (.ofPos title p) := by
  rcases h with hin | hout
  · rw [hin p hp, hin b.first hp.first]
  · rw [hout p hp, hout b.first hp.first]

end Block

def Slot.face? : Slot → Option Content
  | .cell c => some c.content
  | .covered => none

namespace Sheet

variable {s t : Sheet} {b : Block} {p q : Pos}

def face? (s : Sheet) (p : Pos) : Option Content := (s.slots[p]?.map Slot.face?).getD (some {})

theorem face?_congr (h : t.slots[q]? = s.slots[q]?) : t.face? q = s.face? q := by
  rw [face?, face?, h]

theorem face?_eq_none : s.face? p = none ↔ s.slots[p]? = some .covered := by
  rw [face?]
  cases hp : s.slots[p]? with
  | none => simp
  | some slot => cases slot <;> simp [Slot.face?]

theorem face?_of_cell? {c : Cell} (h : s.cell? p = some c) : s.face? p = some c.content := by
  rw [face?, (s.cell?_eq_some p).1 h]
  rfl

theorem face?_of_none (h : s.cell? p = none) : s.face? p = none ∨ s.face? p = some {} := by
  rcases (s.cell?_eq_none p).1 h with h | h
  · exact .inr (by rw [face?, h]; rfl)
  · exact .inl (by rw [face?, h]; rfl)

theorem face?_setCell (c : Cell) :
    (s.setCell p c).face? q = if q = p then some c.content else s.face? q := by
  rw [face?, slot_setCell]
  by_cases hq : q = p
  · simp [hq, Slot.face?]
  · simp [hq, face?]

theorem face?_touch : (s.touch p).face? q = s.face? q := by
  rw [face?, slot_touch, face?]
  by_cases hq : q = p
  · rw [hq, if_pos rfl]
    cases s.slots[p]? <;> rfl
  · rw [if_neg hq]

theorem face?_filled : s.filled.face? q = s.face? q := by
  rcases s.slot_filled q with h | ⟨hnone, h⟩
  · exact face?_congr h
  · rw [face?, h, face?, hnone]
    rfl

theorem face?_touchFont : (s.touchFont p).face? q = s.face? q := by
  simp only [touchFont]
  split
  · next c hc =>
    rw [face?_setCell]
    split
    · next h =>
      rw [h, ← face?_touch, face?_of_cell? hc]
      rfl
    · exact face?_touch
  · exact face?_touch

theorem touchFont_merged (s : Sheet) (p : Pos) : (s.touchFont p).merged = s.merged := by
  simp only [touchFont]
  split
  · exact s.touch_merged p
  · exact s.touch_merged p

theorem touch_images (s : Sheet) (p : Pos) : (s.touch p).images = s.images := by
  rw [touch]
  split <;> rfl

theorem touchFont_images (s : Sheet) (p : Pos) : (s.touchFont p).images = s.images := by
  simp only [touchFont]
  split
  · exact s.touch_images p
  · exact s.touch_images p

section Merging

variable (h : s.merge? b = some t)

include h

theorem valid_merge? : b.isValid = true := by
  rw [merge?] at h
  by_contra hb
  rw [if_neg hb] at h
  cases h

theorem face?_merge? : t.face? q = if q ∈ b.hidden then none else s.face? q := by
  rw [merge?] at h
  split at h
  · cases h
    rw [face?]
    simp only [slot_insertAll]
    by_cases hq : q ∈ b.hidden
    · simp [hq, Slot.face?]
    · simp only [hq, if_false]
      exact face?_touchFont
  · cases h

theorem merged_merge? : t.merged = if s.merged.any b.within then s.merged else s.merged ++ [b] := by
  rw [merge?] at h
  split at h
  · cases h
    simp only [touchFont_merged]
  · cases h

theorem images_merge? : t.images = s.images := by
  rw [merge?] at h
  split at h
  · cases h
    exact s.touchFont_images _
  · cases h

end Merging

theorem removeAll_complete {slots : Slots} {ps : List Pos} (h : (removeAll slots ps).2 = true) :
    (removeAll slots ps).1[q]? = if q ∈ ps then none else slots[q]? := by
  induction ps generalizing slots with
  | nil => rfl
  | cons p rest ih =>
    rw [removeAll] at h ⊢
    by_cases hp : slots.contains p = true
    · rw [if_pos hp] at h ⊢
      rw [ih h, Std.TreeMap.getElem?_erase]
      simp only [order_eq_iff, List.mem_cons]
      by_cases hq : q = p
      · simp [hq]
      · simp [hq]
    · rw [if_neg hp] at h
      cases h

theorem slot_unmerge (h : (s.unmerge b).2 = true) :
    (s.unmerge b).1.slots[q]? = if q ∈ b.hidden then none else s.slots[q]? :=
  removeAll_complete h

end Sheet

namespace Workbook

variable {w : Workbook} {title : String} {f : Sheet → Sheet} {x : Sheet} {r : CellRef}

def face? (w : Workbook) (r : CellRef) : Option Content :=
  (w.find? r.sheet).bind fun s => s.face? r.pos

def blocks (w : Workbook) (title : String) : List Block := ((w.find? title).map Sheet.merged).getD []

def images (w : Workbook) (title : String) : List Image :=
  ((w.find? title).map Sheet.images).getD []

theorem face?_of_find? (h : w.find? r.sheet = some x) : w.face? r = x.face? r.pos := by
  rw [face?, h]
  rfl

theorem blocks_of_find? (h : w.find? title = some x) : w.blocks title = x.merged := by
  rw [blocks, h]
  rfl

theorem images_of_find? (h : w.find? title = some x) : w.images title = x.images := by
  rw [images, h]
  rfl

theorem content_eq_face? (w : Workbook) (r : CellRef) : w.content r = (w.face? r).getD {} := by
  rw [content, slot?, face?]
  cases w.find? r.sheet with
  | none => rfl
  | some s =>
    simp only [Option.bind_some, Sheet.face?]
    cases s.slots[r.pos]? with
    | none => rfl
    | some slot => cases slot <;> rfl

theorem content_congr {v : Workbook} (h : v.face? r = w.face? r) : v.content r = w.content r := by
  rw [content_eq_face?, h, ← content_eq_face?]

section Modify

variable (hf : ∀ s, (f s).title = s.title) (hx : w.find? title = some x)

include hf hx

theorem face?_modify : (w.modify title f).face? r =
    if r.sheet = title then (f x).face? r.pos else w.face? r := by
  rw [face?, find?_modify w hf]
  split
  · next h =>
    rw [h, hx]
    rfl
  · rfl

theorem blocks_modify (t : String) : (w.modify title f).blocks t =
    if t = title then (f x).merged else w.blocks t := by
  rw [blocks, find?_modify w hf]
  split
  · next h =>
    rw [h, hx]
    rfl
  · rfl

theorem images_modify (t : String) : (w.modify title f).images t =
    if t = title then (f x).images else w.images t := by
  rw [images, find?_modify w hf]
  split
  · next h =>
    rw [h, hx]
    rfl
  · rfl

end Modify

theorem find?_isSome_iff {w v : Workbook} (h : v.titles = w.titles) (title : String) :
    (v.find? title).isSome = (w.find? title).isSome := by
  rw [Bool.eq_iff_iff, ← mem_titles, ← mem_titles, h]

theorem content_of_missing {w v : Workbook} (h : v.titles = w.titles)
    (hr : (w.find? r.sheet).isSome = false) : v.content r = {} := by
  rw [← find?_isSome_iff h, Option.isSome_eq_false_iff, Option.isNone_iff_eq_none] at hr
  rw [content_eq_face?, face?, hr]
  rfl

/-- What is covered lies under a block that is listed. -/
def Tucked (w : Workbook) : Prop :=
  ∀ r, (w.find? r.sheet).isSome = true → w.face? r = none → ∃ b ∈ w.blocks r.sheet, r.pos ∈ b.hidden

def Respects (w : Workbook) (areas : List Area) : Prop :=
  ∀ title, ∀ b ∈ w.blocks title, ∀ a ∈ areas, b.Respects title a

theorem Tucked.face?_eq_none (hw : w.Tucked) (hfree : ∀ b ∈ w.blocks r.sheet, r.pos ∉ b.hidden) :
    w.face? r = none ↔ (w.find? r.sheet).isSome = false := by
  cases hr : (w.find? r.sheet).isSome with
  | true =>
    simp only [Bool.true_eq_false, iff_false]
    intro hface
    obtain ⟨b, hb, hp⟩ := hw r hr hface
    exact hfree b hb hp
  | false =>
    rw [Option.isSome_eq_false_iff, Option.isNone_iff_eq_none] at hr
    rw [face?, hr]
    simp

theorem Tucked.mono {v : Workbook} (hw : w.Tucked) (htitles : v.titles = w.titles)
    (hface : ∀ r, (w.find? r.sheet).isSome = true → v.face? r = none → w.face? r = none)
    (hblocks : ∀ title, w.blocks title ⊆ v.blocks title) : v.Tucked := by
  intro r hr hcovered
  rw [find?_isSome_iff htitles] at hr
  obtain ⟨b, hb, hp⟩ := hw r hr (hface r hr hcovered)
  exact ⟨b, hblocks _ hb, hp⟩

end Workbook

end SheetTemplate
