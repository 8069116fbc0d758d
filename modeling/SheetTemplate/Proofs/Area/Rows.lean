import Mathlib.Data.List.Nodup
import SheetTemplate.Area.Replay

namespace SheetTemplate

namespace Size

structure Within (s t : Size) : Prop where
  width : s.width ≤ t.width
  height : s.height ≤ t.height

theorem Within.refl (s : Size) : s.Within s := ⟨Int.le_refl _, Int.le_refl _⟩

theorem Within.trans {s t u : Size} (h : s.Within t) (h' : t.Within u) : s.Within u :=
  ⟨Int.le_trans h.width h'.width, Int.le_trans h.height h'.height⟩

structure Holds (s : Size) (start r : CellRef) : Prop where
  sheet : r.sheet = start.sheet
  top : start.row ≤ r.row
  bottom : r.row < start.row + s.height
  left : start.col ≤ r.col
  right : r.col < start.col + s.width

theorem Holds.mono {s t : Size} {start r : CellRef} (h : s.Holds start r) (hst : s.Within t) :
    t.Holds start r := by
  obtain ⟨hs, htop, hbottom, hleft, hright⟩ := h
  obtain ⟨hw, hh⟩ := hst
  exact ⟨hs, htop, by omega, hleft, by omega⟩

theorem holds_iff {s : Size} {start r : CellRef} :
    s.Holds start r ↔ r.sheet = start.sheet ∧ s.covers start r = true := by
  simp only [covers, Bool.and_eq_true, decide_eq_true_eq]
  constructor
  · intro h
    exact ⟨h.sheet, ⟨⟨h.top, h.bottom⟩, h.left⟩, h.right⟩
  · rintro ⟨hs, ⟨⟨ht, hb⟩, hl⟩, hr⟩
    exact ⟨hs, ht, hb, hl, hr⟩

instance (s : Size) (start r : CellRef) : Decidable (s.Holds start r) :=
  decidable_of_iff _ holds_iff.symm

theorem mem_cellsFrom {s : Size} {start r : CellRef} :
    r ∈ s.cellsFrom start ↔ s.Holds start r := by
  simp only [cellsFrom, List.mem_flatMap, List.mem_map, List.mem_range, CellRef.offset]
  constructor
  · rintro ⟨i, hi, j, hj, rfl⟩
    refine ⟨rfl, ?_, ?_, ?_, ?_⟩ <;> dsimp only <;> omega
  · intro h
    obtain ⟨hs, ht, hb, hl, hr⟩ := h
    refine ⟨(r.row - start.row).toNat, by omega, (r.col - start.col).toNat, by omega, ?_⟩
    cases r
    simp only [CellRef.mk.injEq] at *
    exact ⟨hs.symm, by omega, by omega⟩

theorem map_rectangle (start : CellRef) (size : Size) :
    (Block.rectangle start.pos size).map (CellRef.ofPos start.sheet) = size.cellsFrom start := by
  simp only [Block.rectangle, cellsFrom, List.map_flatMap, List.map_map]
  rfl

end Size

theorem AreaRef.size_ofSize (start : CellRef) (size : Size) : (ofSize start size).size = size := by
  simp only [AreaRef.size, ofSize, CellRef.offset]
  cases size
  simp only [Size.mk.injEq]
  omega

theorem Area.contains_iff (a : Area) (r : CellRef) :
    a.contains r = true ↔ a.size.Holds a.start r := by
  rw [Area.contains, Bool.and_eq_true, beq_iff_eq, Size.holds_iff]

theorem Frame.mem_rows {f : Frame} {first count down : Int} {skip : Int → Bool} {c : CellCopy} :
    c ∈ f.rows first count down skip ↔
      ∃ r col : Nat, r < count.toNat ∧ col < f.size.width.toNat ∧ skip col = false ∧
        c = ⟨⟨f.start.sheet, first + r, f.start.col + col⟩,
          ⟨f.target.sheet, f.target.row + down + r, f.target.col + col⟩⟩ := by
  simp only [rows, List.mem_flatMap, List.mem_map, List.mem_filter, List.mem_range,
    Bool.not_eq_true']
  constructor
  · rintro ⟨r, hr, col, ⟨hcol, hskip⟩, rfl⟩
    exact ⟨r, col, hr, hcol, hskip, rfl⟩
  · rintro ⟨r, col, hr, hcol, hskip, rfl⟩
    exact ⟨r, hr, col, ⟨hcol, hskip⟩, rfl⟩

theorem Frame.nodup_rows (f : Frame) (first count down : Int) (skip : Int → Bool) :
    ((f.rows first count down skip).map CellCopy.origin).Nodup := by
  simp only [Frame.rows, List.map_flatMap, List.map_map]
  refine List.nodup_flatMap.2 ⟨fun r _ => ?_, ?_⟩
  · refine (List.nodup_range.filter _).map_on fun c _ d _ hcd => ?_
    simp only [Function.comp_apply, CellRef.mk.injEq, true_and] at hcd
    omega
  · refine List.nodup_range.imp fun {q r} hqr => ?_
    simp only [Function.onFun, List.disjoint_left, List.mem_map, Function.comp_apply]
    rintro x ⟨c, -, rfl⟩ ⟨d, -, hd⟩
    simp only [CellRef.mk.injEq] at hd
    omega

namespace Progress

def size (p : Progress) : Size := ⟨p.width, p.height⟩

variable {f : Frame} {p : Progress} {b : Binding} {c : CellCopy}

theorem above_holds (hh : 0 ≤ p.height) (hw : f.size.width ≤ p.width) (hc : c ∈ p.above f b) :
    (p.atBinding b).size.Holds f.target c.target := by
  obtain ⟨r, col, hr, hcol, -, rfl⟩ := Frame.mem_rows.1 hc
  refine ⟨rfl, ?_, ?_, ?_, ?_⟩ <;> simp only [size, atBinding] <;> omega

theorem beside_holds {filled : Size} (hh : 0 ≤ p.height) (hw : f.size.width ≤ p.width)
    (hc : c ∈ p.beside f b) : (p.afterCommand f b filled).size.Holds f.target c.target := by
  obtain ⟨r, col, hr, hcol, hskip, rfl⟩ := Frame.mem_rows.1 hc
  have hpartly : 0 < left f b ∨ right f b < f.size.width := by
    simp only [Bool.and_eq_false_iff, decide_eq_false_iff_not] at hskip
    omega
  have hrows : b.size.height ≤ (p.afterCommand f b filled).height - p.height := by
    simp only [afterCommand, Bool.and_eq_true, Bool.or_eq_true, decide_eq_true_eq]
    split <;> omega
  refine ⟨rfl, ?_, ?_, ?_, ?_⟩
  · simp only
    omega
  · simp only [size]
    omega
  · simp only
    omega
  · simp only [size, afterCommand]
    omega

theorem filled_le_afterCommand (f : Frame) (p : Progress) (b : Binding) (filled : Size) :
    p.height + filled.height ≤ (p.afterCommand f b filled).height := by
  simp only [afterCommand, Bool.and_eq_true, decide_eq_true_eq]
  split <;> omega

theorem size_within_atBinding (p : Progress) (b : Binding) :
    p.size.Within (p.atBinding b).size := by
  refine ⟨Int.le_refl _, ?_⟩
  simp only [size, atBinding]
  omega

theorem size_within_afterCommand (f : Frame) (p : Progress) (b : Binding) {filled : Size}
    (h : 0 ≤ filled.height) : p.size.Within (p.afterCommand f b filled).size := by
  have hrows := filled_le_afterCommand f p b filled
  refine ⟨?_, ?_⟩
  · simp only [size, afterCommand]
    omega
  · simp only [size]
    omega

theorem size_within_finish (f : Frame) (p : Progress) : p.size.Within (p.finish f) := by
  refine ⟨Int.le_refl _, ?_⟩
  simp only [size, finish]
  omega

theorem command_holds {filled : Size} {r : CellRef} (hh : 0 ≤ p.height) (hl : 0 ≤ left f b)
    (hr : filled.Holds (p.commandTarget f b) r) :
    (p.afterCommand f b filled).size.Holds f.target r := by
  have hrows := filled_le_afterCommand f p b filled
  obtain ⟨hs, ht, hb, hleft, hright⟩ := hr
  simp only [commandTarget, CellRef.offset] at *
  refine ⟨hs, by omega, ?_, by omega, ?_⟩
  · simp only [size]
    omega
  · simp only [size, afterCommand]
    omega

theorem below_holds (hh : 0 ≤ p.height) (hw : f.size.width ≤ p.width) (hc : c ∈ p.below f) :
    (p.finish f).Holds f.target c.target := by
  obtain ⟨r, col, hr, hcol, -, rfl⟩ := Frame.mem_rows.1 hc
  refine ⟨rfl, ?_, ?_, ?_, ?_⟩ <;> simp only [finish] <;> omega

end Progress

end SheetTemplate
