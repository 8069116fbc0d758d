import SheetTemplate.Proofs.Area.Looped
import SheetTemplate.Proofs.Fill.Refilling
import SheetTemplate.Proofs.Fill.Repeating
import SheetTemplate.Proofs.Fill.Unmoved
import SheetTemplate.Proofs.Formula.Lining
import SheetTemplate.Proofs.Formula.Overruling

namespace SheetTemplate

open FillM FillState Text

namespace EachSpec

def lineStrategy (e : EachSpec) : FormulaStrategy :=
  if e.direction == right then .byColumn else .byRow

def InLine (e : EachSpec) (x y : CellRef) : Prop :=
  if e.direction == right then y.col = x.col else y.row = x.row

end EachSpec

namespace Area

variable {root inner : Area} {e : EachSpec} {x y : CellRef} {n i : Nat} {c : CellCopy}

theorem filter_origin {copies : List CellCopy} (hnodup : (copies.map CellCopy.origin).Nodup)
    (hc : c ∈ copies) {p : CellRef → Bool} (hp : p c.origin = true) :
    (copies.filter fun d => d.origin == c.origin && p d.origin) = [c] := by
  have hmap : ((copies.map CellCopy.origin).filter fun r => r == c.origin && p r) =
      (copies.filter fun d => d.origin == c.origin && p d.origin).map CellCopy.origin :=
    List.filter_map
  rw [filter_self hnodup, if_pos ⟨List.mem_map_of_mem hc, hp⟩] at hmap
  obtain ⟨d, hd, -⟩ := List.map_eq_singleton_iff.1 hmap.symm
  have hmem : c ∈ copies.filter fun d => d.origin == c.origin && p d.origin := by
    refine List.mem_filter.2 ⟨hc, ?_⟩
    rw [hp, beq_self_eq_true]
    rfl
  rw [hd] at hmem ⊢
  rw [List.mem_singleton.1 hmem]

theorem targets_of_block (root : Area) (hx : inner.contains x = true) {p : CellRef → Bool}
    (hp : p x = true) :
    ((root.loopCopies inner e n).filter fun c => c.origin == x && p c.origin).map CellCopy.target =
      (List.range n).map fun i => e.copyOf inner.size i x := by
  have hin := (contains_iff _ _).1 hx
  have htop := hin.top
  have hbottom := hin.bottom
  have hhead : ∀ c ∈ Frame.rows ⟨root.start, root.size, root.listeners, root.start⟩ root.start.row
      (inner.start.row - root.start.row) 0 (fun _ => false), ¬ (c.origin == x && p c.origin) = true := by
    rintro c hc horigin
    obtain ⟨r, col, hr, -, -, rfl⟩ := Frame.mem_rows.1 hc
    have hrow := congrArg CellRef.row (eq_of_beq (Bool.and_eq_true_iff.1 horigin).1)
    simp only at hrow
    omega
  have hfoot : ∀ c ∈ Frame.rows ⟨root.start, root.size, root.listeners, root.start⟩
      (inner.start.row + inner.size.height)
      (root.start.row + root.size.height - (inner.start.row + inner.size.height))
      (inner.start.row - root.start.row + (e.roomFor inner.size n).height) (fun _ => false),
      ¬ (c.origin == x && p c.origin) = true := by
    rintro c hc horigin
    obtain ⟨r, col, -, -, -, rfl⟩ := Frame.mem_rows.1 hc
    have hrow := congrArg CellRef.row (eq_of_beq (Bool.and_eq_true_iff.1 horigin).1)
    simp only at hrow
    omega
  have hpass : ∀ i, (inner.copiesTo (e.copyOf inner.size i inner.start)).filter
      (fun c => c.origin == x && p c.origin) = [⟨x, e.copyOf inner.size i x⟩] := fun i =>
    filter_origin (nodup_copiesTo _ _) (c := ⟨x, e.copyOf inner.size i x⟩)
      (mem_copiesTo_copyOf.2 ⟨hx, rfl⟩) hp
  rw [loopCopies, List.filter_append, List.filter_append, List.filter_eq_nil_iff.2 hhead,
    List.filter_eq_nil_iff.2 hfoot, List.nil_append, List.append_nil, List.filter_flatMap,
    List.map_flatMap, List.map_eq_flatMap]
  refine List.flatMap_congr fun i _ => ?_
  rw [hpass]
  rfl

theorem Loops.origin_of_target (hl : root.Loops inner e) (hx : inner.contains x = true) (hi : i < n)
    (hc : c ∈ root.loopCopies inner e n) (ht : c.target = e.copyOf inner.size i x) :
    c.origin = x := by
  have hin := (contains_iff _ _).1 hx
  have htop := hin.top
  have hbottom := hin.bottom
  have hhigh := hl.high
  have hstrides : (i : Int) * inner.size.height + inner.size.height ≤ n * inner.size.height := by
    have hle : ((i : Int) + 1) * inner.size.height ≤ n * inner.size.height :=
      Int.mul_le_mul_of_nonneg_right (by omega) (by omega)
    rwa [Int.add_mul, Int.one_mul] at hle
  have hstride : 0 ≤ (i : Int) * inner.size.height := Int.mul_nonneg (by omega) (by omega)
  have hroom : (e.copyOf inner.size i x).row < inner.start.row + (e.roomFor inner.size n).height ∧
      inner.start.row ≤ (e.copyOf inner.size i x).row := by
    rw [EachSpec.roomFor_eq (Int.le_of_lt hl.wide) (Int.le_of_lt hhigh), EachSpec.copyOf]
    split
    · simp only [CellRef.offset, if_neg (show n ≠ 0 by omega)]
      omega
    · simp only [CellRef.offset]
      omega
  rw [loopCopies, List.mem_append, List.mem_append] at hc
  rcases hc with (hc | hc) | hc
  · obtain ⟨r, col, hr, -, -, rfl⟩ := Frame.mem_rows.1 hc
    have hrow := congrArg CellRef.row ht
    simp only at hrow
    omega
  · obtain ⟨j, -, hc⟩ := List.mem_flatMap.1 hc
    obtain ⟨horigin, htarget⟩ := mem_copiesTo_copyOf.1 hc
    exact (EachSpec.copyOf_inj ((contains_iff _ _).1 horigin) hin (htarget.symm.trans ht)).1
  · obtain ⟨r, col, -, -, -, rfl⟩ := Frame.mem_rows.1 hc
    have hrow := congrArg CellRef.row ht
    simp only at hrow
    omega

structure LoopFits (root inner : Area) (e : EachSpec) (n : Nat) : Prop where
  top : 0 ≤ root.start.row
  left : 0 ≤ root.start.col
  right : root.start.col + root.size.width ≤ Column.last + 1
  across : (e.direction == EachSpec.right) = true →
    root.start.col + n * inner.size.width ≤ Column.last + 1

theorem Loops.named (hl : root.Loops inner e) (hfits : root.LoopFits inner e n)
    (hc : c ∈ root.loopCopies inner e n) : c.target.pos.Named := by
  have htop := hfits.top
  have hleft := hfits.left
  have hright := hfits.right
  have hfirst := hl.top
  have hhigh := hl.high
  have hheight := congrArg Size.height (EachSpec.roomFor_eq (e := e) (Int.le_of_lt hl.wide)
    (Int.le_of_lt hhigh) n)
  have hroom : 0 ≤ (e.roomFor inner.size n).height := by
    rw [hheight]
    have hmul : 0 ≤ (n : Int) * inner.size.height := Int.mul_nonneg (by omega) (by omega)
    split
    · simp only
      split <;> omega
    · exact hmul
  rw [loopCopies, List.mem_append, List.mem_append] at hc
  rcases hc with (hc | hc) | hc
  · obtain ⟨r, col, -, hcol, -, rfl⟩ := Frame.mem_rows.1 hc
    refine ⟨?_, ?_, ?_⟩ <;> simp only [CellRef.pos] at * <;> omega
  · obtain ⟨i, hi, hc⟩ := List.mem_flatMap.1 hc
    have hi : i < n := List.mem_range.1 hi
    obtain ⟨hin, htarget⟩ := mem_copiesTo_copyOf.1 hc
    have hin := (contains_iff _ _).1 hin
    have hbounds := hin.top
    have hl' := hin.left
    have hr' := hin.right
    have hcol := hl.left
    have hwidth := hl.width
    rw [htarget, EachSpec.copyOf]
    split
    · next hdirection =>
      have hacross := hfits.across hdirection
      have hle : ((i : Int) + 1) * inner.size.width ≤ n * inner.size.width :=
        Int.mul_le_mul_of_nonneg_right (by omega) (Int.le_of_lt hl.wide)
      rw [Int.add_mul, Int.one_mul] at hle
      have hmul : 0 ≤ (i : Int) * inner.size.width := Int.mul_nonneg (by omega) (by omega)
      refine ⟨?_, ?_, ?_⟩ <;> simp only [CellRef.pos, CellRef.offset] <;> omega
    · have hmul : 0 ≤ (i : Int) * inner.size.height := Int.mul_nonneg (by omega) (by omega)
      refine ⟨?_, ?_, ?_⟩ <;> simp only [CellRef.pos, CellRef.offset] <;> omega
  · obtain ⟨r, col, -, hcol, -, rfl⟩ := Frame.mem_rows.1 hc
    refine ⟨?_, ?_, ?_⟩ <;> simp only [CellRef.pos] at * <;> omega

end Area

structure FillState.Iterated (h : FillHost) (root inner : Area) (e : EachSpec) (n : Nat)
    (s : FillState) : Prop where
  free : ∀ r : CellRef, r.sheet = root.start.sheet → s.Free r
  keyed : s.template.Keyed
  targets : ∀ x, s.history.targets x = ((root.loopCopies inner e n).filter fun c =>
    c.origin == x && (s.template.cell? c.origin).isSome).map CellCopy.target
  formulas : ∀ x, h.Plain s.template x → (s.history.of x).formulas = []

namespace Area

variable {h : FillHost} {root inner : Area} {e : EachSpec} {s t u : FillState} {size : Size}

theorem iterated (hp : h.Passive) (hl : root.Loops inner e) (hs : s.Bare root.start.sheet)
    (hkeyed : s.template.Keyed) (hhistory : s.history = ∅)
    (hclear : exec (clearArea root.ref) s = (.ok (), t))
    (hreplay : exec (root.replay h root.start) t = (.ok size, u)) :
    ∃ items, Resolves h root inner e t items ∧ Settled s u ∧
      u.Iterated h root inner e items.length := by
  have hcleared : Settled s t := (leads_settled_clearArea _).apply hclear
  have hquiet : Leads (Placed h s.template []) (clearArea root.ref) :=
    leads_clearArea (fun _ _ => placed_nil_of_eq rfl) (fun _ _ => placed_nil_of_eq rfl) _
  obtain ⟨items, hresolves, hsettled, hplaced⟩ := replay_loops hp hl (hs.mono hcleared) hreplay
  rw [hcleared.template] at hplaced
  have hall := (hquiet.apply hclear).append hplaced
  have hfinal := trans_of Settled hcleared hsettled
  have hempty : ∀ x, s.history.of x = {} := by
    intro x
    rw [hhistory]
    rfl
  refine ⟨items, hresolves, hfinal, (hs.mono hfinal).free, hfinal.template ▸ hkeyed, fun x => ?_,
    fun x hx => ?_⟩
  · rw [hall.targets x, History.targets, hempty, hfinal.template]
    rfl
  · rw [hfinal.template] at hx
    rw [hall.formulas x hx, hempty]

end Area

namespace Formula

variable {h : FillHost} {root inner : Area} {e : EachSpec} {s t : FillState} {x y : CellRef}
  {info : CellInfo} {formula : String} {n i : Nat}

/-- What becomes of a piece of a formula in the copy for an item: a reference without a title to one
populated cell of the line that the formula cell has in the block becomes the name of the copy of this
cell for the same item. Characters stay. -/
def KeepsItem (T : Template) (inner : Area) (e : EachSpec) (i : Nat) (x : CellRef) :
    FormulaPiece → String → Prop
  | .char c, text => text = String.ofList [c]
  | .reference r _, text => r.sheet? = none → r.last? = none →
    ∀ y, y = CellRef.ofPos inner.start.sheet r.first → inner.contains y = true →
      (T.cell? y).isSome = true → e.InLine x y → (e.copyOf inner.size i y).name = .ok text

theorem targets_iterated (hs : s.Iterated h root inner e n) (hy : inner.contains y = true)
    (hpopulated : (s.template.cell? y).isSome = true) :
    s.history.targets y = (List.range n).map fun i => e.copyOf inner.size i y := by
  rw [hs.targets y]
  exact Area.targets_of_block root hy (p := fun r => (s.template.cell? r).isSome) hpopulated

theorem inLine_copyOf (hx : inner.contains x = true) (hy : inner.contains y = true)
    (hline : e.InLine x y) {m : Move} (hstrategy : m.strategy = e.lineStrategy)
    (htarget : m.target = e.copyOf inner.size i x) {j : Nat} :
    m.inLine (e.copyOf inner.size j y) = true ↔ e.copyOf inner.size j y = e.copyOf inner.size i y := by
  have hiny := (Area.contains_iff _ _).1 hy
  have hcopy : e.copyOf inner.size j y = e.copyOf inner.size i y ↔ j = i :=
    ⟨fun heq => (EachSpec.copyOf_inj hiny hiny heq).2, fun heq => by rw [heq]⟩
  obtain ⟨-, htop, hbottom, hleft, hright⟩ := (Area.contains_iff _ _).1 hx
  rw [hcopy]
  unfold EachSpec.lineStrategy at hstrategy
  unfold EachSpec.InLine at hline
  unfold EachSpec.copyOf at htarget ⊢
  by_cases hdirection : (e.direction == EachSpec.right) = true
  · rw [if_pos hdirection] at hstrategy hline htarget ⊢
    rw [Move.inLine, hstrategy, htarget]
    simp only [CellRef.offset, hline, beq_iff_eq]
    constructor
    · intro heq
      exact (EachSpec.stride_inj (Int.le_refl 0) (by omega) (Int.le_refl 0) (by omega)
        (show 0 + (j : Int) * inner.size.width = 0 + i * inner.size.width by omega)).2
    · rintro rfl
      rfl
  · rw [if_neg hdirection] at hstrategy hline htarget ⊢
    rw [Move.inLine, hstrategy, htarget]
    simp only [CellRef.offset, hline, beq_iff_eq]
    constructor
    · intro heq
      exact (EachSpec.stride_inj (Int.le_refl 0) (by omega) (Int.le_refl 0) (by omega)
        (show 0 + (j : Int) * inner.size.height = 0 + i * inner.size.height by omega)).2
    · rintro rfl
      rfl

variable {s t : FillState}

theorem relocateRef_iterated (hs : s.Iterated h root inner e n) (hl : root.Loops inner e)
    (hfits : root.LoopFits inner e n) (hx : inner.contains x = true) (hi : i < n)
    (hstrategy : info.strategy = e.lineStrategy) {r : FormulaRef} (hr : r.sheet? = none)
    (hlast : r.last? = none) (hyr : y = CellRef.ofPos inner.start.sheet r.first)
    (hy : inner.contains y = true) (hpopulated : (s.template.cell? y).isSome = true)
    (hline : e.InLine x y) (written : String) :
    ∃ text, (e.copyOf inner.size i y).name = .ok text ∧
      (moveFor root s.history info (e.copyOf inner.size i x)).relocateRef r written = .ok text := by
  let m := moveFor root s.history info (e.copyOf inner.size i x)
  have hiny := (Area.contains_iff _ _).1 hy
  have htargets : m.targets y = (List.range n).map fun j => e.copyOf inner.size j y :=
    targets_iterated hs hy hpopulated
  have hmem : ∀ z ∈ m.targets y, ∃ j, z = e.copyOf inner.size j y := by
    intro z hz
    rw [htargets] at hz
    obtain ⟨j, -, rfl⟩ := List.mem_map.1 hz
    exact ⟨j, rfl⟩
  have hown : e.copyOf inner.size i y ∈ m.targets y := by
    rw [htargets]
    exact List.mem_map.2 ⟨i, List.mem_range.2 hi, rfl⟩
  have hnamed : (e.copyOf inner.size i y).pos.Named := by
    have hmade : e.copyOf inner.size i y ∈ s.history.targets y := hown
    rw [hs.targets y] at hmade
    obtain ⟨c, hc, hcopy⟩ := List.mem_map.1 hmade
    rw [← hcopy]
    exact hl.named hfits (List.mem_filter.1 hc).1
  have hsource : CellRef.ofPos m.area.start.sheet r.first = y := by
    rw [hyr, hl.sheet]
    rfl
  have hnodup : (m.targets y).Nodup := by
    rw [htargets]
    refine List.nodup_range.map_on fun j _ k _ hjk => ?_
    exact (EachSpec.copyOf_inj hiny hiny hjk).2
  have hnear : ∀ z ∈ m.targets y, z.sheet = m.target.sheet := by
    intro z hz
    obtain ⟨j, rfl⟩ := hmem z hz
    have hsame : m.target.sheet = x.sheet := EachSpec.copyOf_sheet i x
    rw [EachSpec.copyOf_sheet, hsame, hiny.sheet, ((Area.contains_iff _ _).1 hx).sheet]
  refine ⟨_, CellRef.name_shown hnamed, ?_⟩
  refine Move.relocateRef_inLine hr hlast hsource hnodup hnear hown (fun z hz => ?_) hnamed written
  obtain ⟨j, rfl⟩ := hmem z hz
  exact inLine_copyOf hx hy hline hstrategy rfl

theorem relocateCopy_iterated (hs : s.Iterated h root inner e n) (hl : root.Loops inner e)
    (hfits : root.LoopFits inner e n) (hx : inner.contains x = true) (hi : i < n)
    (hinfo : s.template.cell? x = some info) (hactive : info.activeFormula? = some formula)
    (hplain : h.expressionText? (.text formula) = none) (hstrategy : info.strategy = e.lineStrategy) :
    ∃ texts, List.Forall₂ (KeepsItem s.template inner e i x) (split formula.toList) texts ∧
      relocateCopy root s.history info (e.copyOf inner.size i x) = .ok (joinText "" texts) := by
  have href := hs.keyed.ref_of_cell? hinfo
  have hnone : (s.history.of info.ref).formulas = [] := by
    refine hs.formulas _ fun j f hj hf => ?_
    rw [href, hinfo] at hj
    cases hj
    rw [hactive] at hf
    cases hf
    exact hplain
  have hformula : info.formula? = some formula := (Option.filter_eq_some_iff.1 hactive).1
  let m := moveFor root s.history info (e.copyOf inner.size i x)
  have hcopy : relocateCopy root s.history info (e.copyOf inner.size i x) = m.relocate formula := by
    simp only [relocateCopy, hnone, hformula, List.lookup_nil, Option.none_or, Option.getD_some, m]
  have hnamed : ∀ z, ∀ w ∈ m.targets z, w.pos.Named := by
    intro z w hw
    have hw : w ∈ s.history.targets z := hw
    rw [hs.targets z] at hw
    obtain ⟨c, hc, rfl⟩ := List.mem_map.1 hw
    exact hl.named hfits (List.mem_filter.1 hc).1
  obtain ⟨text, htext⟩ := Move.relocate_ok hnamed formula
  obtain ⟨texts, hpieces, rfl⟩ := Move.relocate_pieces htext
  refine ⟨texts, hpieces.imp fun piece text hpiece => ?_, hcopy.trans htext⟩
  cases piece with
  | char c =>
    cases hpiece
    rfl
  | reference r written =>
    intro hr hlast y hyr hy hpopulated hline
    obtain ⟨name, hname, hmoved⟩ := relocateRef_iterated hs hl hfits hx hi hstrategy hr hlast hyr hy
      hpopulated hline (String.ofList written)
    have hpiece : m.relocateRef r (String.ofList written) = .ok text := hpiece
    rw [hmoved] at hpiece
    cases hpiece
    exact hname

theorem mem_relocations_iterated (hs : s.Iterated h root inner e n) (hl : root.Loops inner e)
    (hx : inner.contains x = true) (hi : i < n) (hinfo : s.template.cell? x = some info)
    (hactive : info.activeFormula? = some formula) :
    (e.copyOf inner.size i x, relocateCopy root s.history info (e.copyOf inner.size i x)) ∈
      relocations root s.template s.history := by
  have href := hs.keyed.ref_of_cell? hinfo
  have hroot : root.contains x = true := by
    obtain ⟨hsheet, htop, hbottom, hleft, hright⟩ := (Area.contains_iff _ _).1 hx
    have := hl.top
    have := hl.bottom
    have := hl.left
    have := hl.width
    exact (Area.contains_iff _ _).2 ⟨hsheet.trans hl.sheet, by omega, by omega, by omega, by omega⟩
  refine List.mem_flatMap.2 ⟨info, List.mem_filter.2 ⟨List.mem_filter.2 ⟨?_, ?_⟩, ?_⟩, ?_⟩
  · exact Template.mem_cells_of_cell? hinfo
  · rw [CellInfo.hasFormula, hactive]
    rfl
  · rwa [href]
  · refine List.mem_map.2 ⟨e.copyOf inner.size i x, ?_, rfl⟩
    rw [href, targets_iterated hs hx (by rw [hinfo]; rfl)]
    exact List.mem_map.2 ⟨i, List.mem_range.2 hi, rfl⟩

theorem snd_of_mem_relocations (hs : s.Iterated h root inner e n) (hl : root.Loops inner e)
    (hx : inner.contains x = true) (hi : i < n) (hinfo : s.template.cell? x = some info)
    {c : CellRef × Except Failure String} (hc : c ∈ relocations root s.template s.history)
    (htarget : c.1 = e.copyOf inner.size i x) :
    c.2 = relocateCopy root s.history info (e.copyOf inner.size i x) := by
  obtain ⟨j, hj, hc⟩ := List.mem_flatMap.1 hc
  obtain ⟨z, hz, rfl⟩ := List.mem_map.1 hc
  have hz' : z = e.copyOf inner.size i x := htarget
  have hcell := hs.keyed.cell?_ref (List.mem_of_mem_filter (List.mem_of_mem_filter hj))
  rw [hs.targets] at hz
  obtain ⟨d, hd, hdz⟩ := List.mem_map.1 hz
  obtain ⟨hd, horigin⟩ := List.mem_filter.1 hd
  have hsame : j.ref = x := by
    rw [← eq_of_beq (Bool.and_eq_true_iff.1 horigin).1]
    exact hl.origin_of_target hx hi hd (hdz.trans hz')
  rw [hsame, hinfo] at hcell
  cases hcell
  rw [hz']

theorem relocateArea_iterated (hs : s.Iterated h root inner e n) (hl : root.Loops inner e)
    (hx : inner.contains x = true) (hi : i < n) (hinfo : s.template.cell? x = some info)
    (hactive : info.activeFormula? = some formula)
    (hmove : exec (relocateArea root) s = (.ok (), t)) :
    ∃ moved held, relocateCopy root s.history info (e.copyOf inner.size i x) = .ok moved ∧
      Cell.heldText? (formulaText moved) = some held ∧
      t.book.content (e.copyOf inner.size i x) = ⟨.text held, Cell.textType held⟩ := by
  let target := e.copyOf inner.size i x
  have hmem := mem_relocations_iterated hs hl hx hi hinfo hactive
  -- Of several formulas that are put in one cell the last would stay; here all are of one cell.
  cases hlast : (relocations root s.template s.history).reverse.find? fun c => c.1 == target with
  | none =>
    have := List.find?_eq_none.1 hlast _ (List.mem_reverse.2 hmem)
    rw [beq_self_eq_true] at this
    exact absurd rfl this
  | some c =>
    have htarget : c.1 = target := by
      have hfound := List.find?_some hlast
      exact eq_of_beq hfound
    have hsnd := snd_of_mem_relocations hs hl hx hi hinfo
      (List.mem_reverse.1 (List.mem_of_find?_eq_some hlast)) htarget
    have hfree : s.Free target := by
      refine hs.free target ?_
      rw [EachSpec.copyOf_sheet, ((Area.contains_iff _ _).1 hx).sheet, hl.sheet]
    obtain ⟨moved, held, hmoved, hheld, hcontent⟩ :=
      (relocateArea_overruled hmove).moved target _ hlast hfree.takes
    exact ⟨moved, held, hsnd.symm.trans hmoved, hheld, hcontent⟩

end Formula

namespace FillOptions

variable {o : FillOptions} {name : String} {c : Context} {streams : Streams} {book : Workbook}
  {root inner : Area} {e : EachSpec} {s t : FillState}

theorem bare_built {title : String} {r : Except Failure (List Area)} (hsheet : book.Unmerged title)
    (hbuild : exec (o.build c streams) (o.opened name book) = (r, s)) : s.Bare title := by
  obtain ⟨⟨sheet, hfound, -⟩, hcovers, hblocks⟩ := unmerged_built hsheet hbuild
  refine ⟨fun x hx => ⟨by rw [hx, hfound]; rfl, hcovers x hx, ?_⟩, hblocks⟩
  rintro ⟨snapshot, hsnapshot, block, hblock, -⟩
  rw [hx] at hsnapshot
  rw [hblocks snapshot hsnapshot] at hblock
  cases hblock

/-- When the area of a loop across its width has been filled, each populated cell of its block has one
copy for each item. If there are no more items than the columns have room for, each formula of the
block without expressions, with the strategy for the direction of the loop, can be moved for each item;
its references to single populated cells of its line of the block then name the copies of these cells
for the same item, and what it comes to is held, unless it shows the notation that the template has at
its place and goes with what is left of the template. -/
theorem process_keeps_items (hp : o.host.Passive) (hwrite : Leads Unseen o.beforeWrite)
    (hbook : book.Regular) (hsheet : book.Unmerged root.start.sheet) (hl : root.Loops inner e)
    (hbuild : exec (o.build c streams) (o.opened name book) = (.ok [root], s))
    (hfill : exec (o.fillArea root) s = (.ok (), t)) :
    ∃ cleared items, exec (clearArea root.ref) s = (.ok (), cleared) ∧
      Area.Resolves o.host root inner e cleared items ∧
      (∀ y, inner.contains y = true → (s.template.cell? y).isSome = true →
        t.history.targets y = (List.range items.length).map fun i => e.copyOf inner.size i y) ∧
      (root.LoopFits inner e items.length → ∀ i < items.length, ∀ x info formula,
        inner.contains x = true → s.template.cell? x = some info →
        info.activeFormula? = some formula → o.host.expressionText? (.text formula) = none →
        info.strategy = e.lineStrategy → ∃ texts,
          List.Forall₂ (Formula.KeepsItem s.template inner e i x) (Formula.split formula.toList)
            texts ∧
          Formula.relocateCopy root t.history info (e.copyOf inner.size i x) =
            .ok (joinText "" texts) ∧
          ∀ state, o.process name c streams book = (.ok (), state, some ⟨state, [root]⟩) →
            ∃ held, Cell.heldText? (formulaText (joinText "" texts)) = some held ∧
              o.Spares s.template (e.copyOf inner.size i x) ⟨.text held, Cell.textType held⟩
                (state.book.content (e.copyOf inner.size i x))) := by
  have hbuilt := build_annotated hbuild
  have hkeyed := hbuilt.keyed (keyed_ofWorkbook hbook)
  obtain ⟨cleared, replayed, size, context, log, hclear, hreplay, rfl, -⟩ := fillArea_eq_ok hfill
  obtain ⟨items, hresolves, hsettled, hiterated⟩ := Area.iterated hp hl (bare_built hsheet hbuild)
    hkeyed hbuilt.history hclear hreplay
  have htemplate : replayed.template = s.template := hsettled.template
  have hdeleted : replayed.deleted = [] := hsettled.deleted.trans hbuilt.deleted
  let t : FillState := { replayed with context := context, log := log }
  have ht : t.Iterated o.host root inner e items.length :=
    ⟨fun r hr => (hiterated.free r hr).mono (settled_of_eq rfl rfl rfl), hiterated.keyed, hiterated.targets, hiterated.formulas⟩
  refine ⟨cleared, items, hclear, hresolves, fun y hy hpopulated => ?_,
    fun hfits i hi x info formula hx hinfo hactive hplain hstrategy => ?_⟩
  · exact Formula.targets_iterated ht hy (htemplate ▸ hpopulated)
  · rw [← htemplate] at hinfo
    obtain ⟨texts, hpieces, hmoved⟩ :=
      Formula.relocateCopy_iterated ht hl hfits hx hi hinfo hactive hplain hstrategy
    refine ⟨texts, htemplate ▸ hpieces, hmoved, fun state hprocess => ?_⟩
    -- The fill goes through the same states, up to the formulas that are moved.
    obtain ⟨s', hbuild', hareas⟩ := process_eq_ok.1 hprocess
    rw [hbuild] at hbuild'
    cases hbuild'
    obtain ⟨_, u, hroots, hareas⟩ := bind_eq_ok.1 hareas
    obtain ⟨_, v, hmoves, hlast⟩ := bind_eq_ok.1 hareas
    obtain ⟨_, u', hfill', hnil⟩ := bind_eq_ok.1 hroots
    cases hnil
    rw [hfill] at hfill'
    cases hfill'
    obtain ⟨_, v', hmove, hnil⟩ := bind_eq_ok.1 hmoves
    cases hnil
    have hsettled' := (Formula.leads_settled_relocateArea root).apply hmove
    obtain ⟨moved, held, hmoved', hheld, hcontent⟩ :=
      Formula.relocateArea_iterated ht hl hx hi hinfo hactive hmove
    rw [hmoved] at hmoved'
    cases hmoved'
    have hkept : v.template = s.template := hsettled'.template.trans htemplate
    -- What remains may still take the formula away with what is left of the template.
    obtain ⟨_, w, hclean, hlast⟩ := bind_eq_ok.1 hlast
    have hspare := clearTemplate_content (hsettled'.deleted.trans hdeleted) (hkept ▸ hkeyed) hclean
      (e.copyOf inner.size i x)
    rw [hcontent, hkept, ← (o.leaves_finish hwrite).apply hlast _ trivial] at hspare
    exact ⟨held, hheld, hspare⟩

end FillOptions

theorem RepeatedBlock.Regular.loops {b : RepeatedBlock} (hb : b.Regular) :
    b.root.Loops b.inner b.each where
  bindings := rfl
  bare := rfl
  single := hb.single
  sheet := rfl
  left := Int.add_zero _
  width := rfl
  top := by
    change b.start.row ≤ b.start.row + b.head
    omega
  bottom := by
    change b.start.row + b.head + b.body ≤ b.start.row + (b.head + b.body + b.foot)
    omega
  wide := Int.natCast_pos.2 hb.width
  high := Int.natCast_pos.2 hb.body

namespace FillOptions

def pricing : Workbook where
  sheets :=
    [((({ title := "S" } : Sheet).setCell ⟨0, 0⟩
        { value := .text "Price", comment? := some "jx:area(lastCell=\"B2\")" }).setCell ⟨1, 0⟩
        { value := .text "${e}"
          comment? := some "jx:each(items=\"items\" var=\"e\" lastCell=\"B2\")" }).setCell ⟨1, 1⟩
      { value := .text "=A2*2", type := .formula
        comment? := some "jx:params(formulaStrategy=\"BY_ROW\")" }]

def priced : Context := { data := [("items", .list [.int 3, .int 5])] }

def pricingBlock : RepeatedBlock where
  start := ⟨"S", 0, 0⟩
  width := 2
  head := 1
  body := 1
  foot := 0
  each := { items := "items", var := "e" }

def pricingState : FillState := (exec (build {} priced []) (opened {} "prices" pricing)).2

def pricingFilled : FillState := (exec (fillArea {} pricingBlock.root) pricingState).2

theorem pricing_regular : pricing.Regular where
  titles := by decide
  merged := by
    intro s hs b hb
    rw [List.mem_singleton.1 hs] at hb
    cases hb

theorem pricing_unmerged : pricing.Unmerged "S" := by
  refine ⟨_, rfl, rfl, fun p h => ?_⟩
  rw [Sheet.covered_setCell, Sheet.covered_setCell, Sheet.covered_setCell] at h
  obtain ⟨-, -, -, h⟩ := h
  cases h

theorem pricing_built : exec (build {} priced []) (opened {} "prices" pricing) =
    (.ok [pricingBlock.root], pricingState) := by
  apply build_root
  decide +kernel

theorem pricing_keeps_items :
    ∃ info, pricingState.template.cell? ⟨"S", 1, 1⟩ = some info ∧
      info.activeFormula? = some "A2*2" ∧ info.strategy = .byRow ∧
      (∀ i < 2, ∃ texts,
        List.Forall₂ (Formula.KeepsItem pricingState.template pricingBlock.inner pricingBlock.each i
          ⟨"S", 1, 1⟩) (Formula.split "A2*2".toList) texts ∧
        Formula.relocateCopy pricingBlock.root pricingFilled.history info
          (pricingBlock.each.copyOf pricingBlock.inner.size i ⟨"S", 1, 1⟩) =
            .ok (Text.joinText "" texts)) ∧
      (([1, 2] : List Int).map fun row =>
        ((process {} "prices" priced [] pricing).2.1.book.content ⟨"S", row, 1⟩).value.text?) =
          [some "=A2*2", some "=A3*2"] := by
  have hinfo : (pricingState.template.cell? ⟨"S", 1, 1⟩).map (fun i =>
      (i.activeFormula?, i.strategy)) = some (some "A2*2", .byRow) := by decide +kernel
  obtain ⟨info, hinfo, hformula⟩ := Option.map_eq_some_iff.1 hinfo
  simp only [Prod.mk.injEq] at hformula
  have hregular : pricingBlock.Regular := ⟨by decide, by decide, by decide, rfl⟩
  have hfill : exec (fillArea {} pricingBlock.root) pricingState = (.ok (), pricingFilled) :=
    eq_ok_of_toOption (by decide +kernel)
  obtain ⟨cleared, items, -, -, htargets, hkeeps⟩ :=
    process_keeps_items (o := {}) (c := priced) passive_default (leads_pure _) pricing_regular
      pricing_unmerged hregular.loops pricing_built hfill
  have hlength : items.length = 2 := by
    have hcopies := congrArg List.length (htargets ⟨"S", 1, 1⟩ (by decide) (by rw [hinfo]; rfl))
    rw [List.length_map, List.length_range] at hcopies
    rw [← hcopies]
    decide +kernel
  have hfits : pricingBlock.root.LoopFits pricingBlock.inner pricingBlock.each items.length := by
    rw [hlength]
    exact ⟨by decide, by decide, by decide, by decide⟩
  refine ⟨info, hinfo, hformula.1, hformula.2, fun i hi => ?_, by decide +kernel⟩
  obtain ⟨texts, hpieces, hmoved, -⟩ := hkeeps hfits i (hlength ▸ hi) _ info "A2*2" (by decide) hinfo
    hformula.1 (by decide) hformula.2
  exact ⟨texts, hpieces, hmoved⟩

end FillOptions

end SheetTemplate
