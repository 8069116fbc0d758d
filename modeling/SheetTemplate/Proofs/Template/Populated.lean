import Mathlib.Data.List.Nodup
import SheetTemplate.Template.Snapshot
import SheetTemplate.Proofs.Workbook.Slots

namespace SheetTemplate

theorem CellInfo.ref_ofTemplate (ref : CellRef) (c : Cell) : (CellInfo.ofTemplate ref c).ref = ref := by
  simp only [ofTemplate]
  split <;> rfl

namespace Template

variable {T : Template}

def Hides (t : Template) (r : CellRef) : Prop :=
  ∃ s, t.sheet? r.sheet = some s ∧ ∃ b ∈ s.merged, r.pos ∈ b.hidden

structure Keyed (T : Template) : Prop where
  titles : (T.sheets.map (·.title)).Nodup
  refs : ∀ s ∈ T.sheets, ∀ (p : Pos) info, s.cells[p]? = some info → info.ref = .ofPos s.title p

theorem sheet?_ofWorkbook (w : Workbook) (title : String) :
    (ofWorkbook w).sheet? title = (w.find? title).map .ofSheet := by
  rw [sheet?, ofWorkbook, Workbook.find?, List.find?_map]
  rfl

theorem cell?_ofWorkbook (w : Workbook) (r : CellRef) :
    (ofWorkbook w).cell? r = (w.slot? r).bind fun slot =>
      match slot with
      | .cell c => if SheetSnapshot.isKept c then some (.ofTemplate r c) else none
      | .covered => none := by
  rw [cell?, sheet?_ofWorkbook, Workbook.slot?]
  cases hfind : w.find? r.sheet with
  | none => rfl
  | some s =>
    simp only [Option.map_some, Option.bind_some, SheetSnapshot.ofSheet,
      Std.TreeMap.getElem?_filterMap', Workbook.find?_title w hfind]
    rfl

theorem keyed_ofWorkbook {w : Workbook} (h : w.titles.Nodup) : (ofWorkbook w).Keyed := by
  refine ⟨?_, ?_⟩
  · rw [ofWorkbook, List.map_map]
    exact h
  · intro s hs p info hinfo
    obtain ⟨sheet, -, rfl⟩ := List.mem_map.1 hs
    simp only [SheetSnapshot.ofSheet, Std.TreeMap.getElem?_filterMap',
      Option.bind_eq_some_iff] at hinfo
    obtain ⟨slot, -, hslot⟩ := hinfo
    split at hslot
    · split at hslot
      · cases hslot
        exact CellInfo.ref_ofTemplate _ _
      · cases hslot
    · cases hslot

theorem hides_ofWorkbook {w : Workbook} {r : CellRef} :
    (ofWorkbook w).Hides r ↔ ∃ s, w.find? r.sheet = some s ∧ ∃ b ∈ s.merged, r.pos ∈ b.hidden := by
  rw [Hides, sheet?_ofWorkbook]
  constructor
  · rintro ⟨_, hs, hb⟩
    obtain ⟨s, hfind, rfl⟩ := Option.map_eq_some_iff.1 hs
    exact ⟨s, hfind, hb⟩
  · rintro ⟨s, hs, hb⟩
    exact ⟨.ofSheet s, by rw [hs]; rfl, hb⟩

theorem Keyed.cell?_eq (hT : T.Keyed) {s : SheetSnapshot} (hs : s ∈ T.sheets) (p : Pos) :
    T.cell? (.ofPos s.title p) = s.cells[p]? := by
  have hfind : T.sheet? s.title = some s := by
    rw [sheet?, List.find?_eq_some_iff_append]
    obtain ⟨as, bs, happ⟩ := List.append_of_mem hs
    refine ⟨beq_self_eq_true _, as, bs, happ, fun a ha => ?_⟩
    have hnodup := hT.titles
    rw [happ, List.map_append, List.map_cons, List.nodup_append] at hnodup
    have hne := hnodup.2.2 a.title (List.mem_map_of_mem ha) s.title List.mem_cons_self
    simp [hne]
  rw [cell?]
  change ((T.sheet? s.title).bind fun s => s.cells[p]?) = _
  rw [hfind, Option.bind_some]

theorem Keyed.cell?_ref (hT : T.Keyed) {info : CellInfo} (h : info ∈ T.cells) :
    T.cell? info.ref = some info := by
  obtain ⟨s, hs, h⟩ := List.mem_flatMap.1 h
  obtain ⟨⟨p, _⟩, hmem, rfl⟩ := List.mem_map.1 h
  have hinfo := Std.TreeMap.mem_toList_iff_getElem?_eq_some.1 hmem
  rw [hT.refs s hs p _ hinfo, hT.cell?_eq hs, hinfo]

theorem mem_cells_of_cell? {r : CellRef} {info : CellInfo} (h : T.cell? r = some info) :
    info ∈ T.cells := by
  obtain ⟨s, hs, hinfo⟩ := Option.bind_eq_some_iff.1 h
  refine List.mem_flatMap.2 ⟨s, List.mem_of_find?_eq_some hs, List.mem_map.2 ⟨(r.pos, info), ?_, rfl⟩⟩
  exact Std.TreeMap.mem_toList_iff_getElem?_eq_some.2 hinfo

theorem Keyed.ref_of_cell? (hT : T.Keyed) {r : CellRef} {info : CellInfo}
    (h : T.cell? r = some info) : info.ref = r := by
  obtain ⟨s, hs, hinfo⟩ := Option.bind_eq_some_iff.1 h
  have htitle := List.find?_some hs
  rw [hT.refs s (List.mem_of_find?_eq_some hs) _ _ hinfo, eq_of_beq htitle]
  rfl

theorem Keyed.nodup_refs (hT : T.Keyed) : (T.cells.map CellInfo.ref).Nodup := by
  rw [cells, List.map_flatMap]
  refine List.nodup_flatMap.2 ⟨fun s hs => ?_, ?_⟩
  · rw [List.map_map]
    have hkeys := s.cells.distinct_keys_toList
    refine List.Nodup.map_on ?_ ?_
    · rintro ⟨p, x⟩ hx ⟨q, y⟩ hy hxy
      have hp := hT.refs s hs p x (Std.TreeMap.mem_toList_iff_getElem?_eq_some.1 hx)
      have hq := hT.refs s hs q y (Std.TreeMap.mem_toList_iff_getElem?_eq_some.1 hy)
      simp only [Function.comp_apply] at hxy
      rw [hp, hq] at hxy
      have hpq : p = q := by
        cases p
        cases q
        simp only [CellRef.ofPos, CellRef.mk.injEq, true_and] at hxy
        rw [hxy.1, hxy.2]
      subst hpq
      rw [Std.TreeMap.mem_toList_iff_getElem?_eq_some] at hx hy
      rw [hx] at hy
      cases hy
      rfl
    · refine hkeys.imp fun {a b} hab heq => ?_
      rw [heq] at hab
      exact hab Std.ReflCmp.compare_self
  · refine List.Pairwise.imp_of_mem ?_ (List.pairwise_map.1 hT.titles)
    intro s t hs ht hne
    simp only [Function.onFun, List.disjoint_left, List.mem_map]
    rintro _ ⟨_, ⟨⟨p, x⟩, hx, rfl⟩, rfl⟩ ⟨_, ⟨⟨q, y⟩, hy, rfl⟩, hxy⟩
    have hp := hT.refs s hs p x (Std.TreeMap.mem_toList_iff_getElem?_eq_some.1 hx)
    have hq := hT.refs t ht q y (Std.TreeMap.mem_toList_iff_getElem?_eq_some.1 hy)
    rw [hp, hq] at hxy
    exact hne (congrArg CellRef.sheet hxy).symm

theorem sheet?_modify (r : CellRef) (f : CellInfo → CellInfo) (title : String) :
    (T.modify r f).sheet? title = (T.sheet? title).map fun s =>
      if s.title == r.sheet then { s with cells := s.cells.modify r.pos f } else s := by
  have htitle : ((fun s : SheetSnapshot => s.title == title) ∘ fun s =>
      if s.title == r.sheet then { s with cells := s.cells.modify r.pos f } else s) =
        fun s => s.title == title := by
    funext s
    simp only [Function.comp_apply]
    split <;> rfl
  rw [sheet?, modify, sheet?, List.find?_map, htitle]

theorem merged_modify (r : CellRef) (f : CellInfo → CellInfo) (title : String) :
    ((T.modify r f).sheet? title).map (·.merged) = (T.sheet? title).map (·.merged) := by
  rw [sheet?_modify, Option.map_map]
  congr 1
  funext s
  rw [Function.comp_apply]
  split <;> rfl

theorem hides_congr {U : Template} {r : CellRef}
    (h : (T.sheet? r.sheet).map (·.merged) = (U.sheet? r.sheet).map (·.merged)) :
    T.Hides r ↔ U.Hides r := by
  have hhides : ∀ V : Template, V.Hides r ↔
      ∃ merged, (V.sheet? r.sheet).map (·.merged) = some merged ∧ ∃ b ∈ merged, r.pos ∈ b.hidden := by
    intro V
    simp only [Hides, Option.map_eq_some_iff, exists_exists_and_eq_and]
  rw [hhides, hhides, h]

theorem cell?_modify (r : CellRef) (f : CellInfo → CellInfo) (x : CellRef) :
    (T.modify r f).cell? x = if x = r then (T.cell? x).map f else T.cell? x := by
  rw [cell?, sheet?_modify, cell?]
  cases hs : T.sheet? x.sheet with
  | none => split <;> rfl
  | some s =>
    have htitle : s.title = x.sheet := eq_of_beq (by simpa using List.find?_some hs)
    simp only [Option.map_some, Option.bind_some]
    by_cases hsheet : x.sheet = r.sheet
    · rw [if_pos (by rw [htitle, hsheet, beq_self_eq_true])]
      simp only [Std.TreeMap.getElem?_modify, order_eq_iff]
      by_cases hpos : x.pos = r.pos
      · have hx : x = r := by
          cases x
          cases r
          simp only [CellRef.pos, Pos.mk.injEq, CellRef.mk.injEq] at *
          exact ⟨hsheet, hpos⟩
        rw [if_pos hpos, if_pos hx, hpos]
      · rw [if_neg hpos, if_neg fun h => hpos (congrArg CellRef.pos h)]
    · rw [if_neg (by rw [htitle]; simpa using hsheet), if_neg fun h => hsheet (congrArg CellRef.sheet h)]

theorem Keyed.modify (hT : T.Keyed) (r : CellRef) {f : CellInfo → CellInfo}
    (hf : ∀ i, (f i).ref = i.ref) : (T.modify r f).Keyed := by
  refine ⟨?_, ?_⟩
  · have : ∀ s : SheetSnapshot, (if s.title == r.sheet then
        { s with cells := s.cells.modify r.pos f } else s).title = s.title := by
      intro s
      split <;> rfl
    rw [Template.modify, List.map_map]
    simpa only [Function.comp_def, this] using hT.titles
  · intro s hs p info hinfo
    obtain ⟨t, ht, rfl⟩ := List.mem_map.1 hs
    split at hinfo
    · next htitle =>
      rw [if_pos htitle]
      simp only [Std.TreeMap.getElem?_modify, order_eq_iff] at hinfo
      split at hinfo
      · next hp =>
        obtain ⟨i, hi, rfl⟩ := Option.map_eq_some_iff.1 hinfo
        rw [hf, hp]
        exact hT.refs t ht _ i hi
      · exact hT.refs t ht p info hinfo
    · next htitle =>
      rw [if_neg htitle]
      exact hT.refs t ht p info hinfo

end Template

end SheetTemplate
