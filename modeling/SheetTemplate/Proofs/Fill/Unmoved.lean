import SheetTemplate.Proofs.Fill.Stages
import SheetTemplate.Proofs.Formula.Staying

namespace SheetTemplate

open FillM FillState

namespace Area

theorem nodup_cells (a : Area) : a.cells.Nodup := by
  have h := Frame.nodup_rows ⟨a.start, a.size, [], a.start⟩ a.start.row a.size.height 0 fun _ => false
  have hmap : (a.cells.map fun r => CellCopy.mk r r).map CellCopy.origin = a.cells := by
    rw [List.map_map]
    exact List.map_id' _
  rw [rows_in_place] at h
  rwa [← hmap]

theorem mem_cells {a : Area} {r : CellRef} : r ∈ a.cells ↔ a.contains r = true := by
  rw [cells, Size.mem_cellsFrom, contains_iff]

end Area

structure FillState.Replayed (h : FillHost) (area : Area) (s : FillState) : Prop where
  sound : s.Sound
  keyed : s.template.Keyed
  targets : ∀ x, s.history.targets x =
    if area.contains x && (s.template.cell? x).isSome then [x] else []
  formulas : ∀ x, h.Plain s.template x → (s.history.of x).formulas = []

namespace Area

variable {h : FillHost} {area : Area} {s t u : FillState} {size : Size}

theorem replayed (hp : h.Passive) (hcommands : area.bindings = []) (hs : s.Sound)
    (hkeyed : s.template.Keyed) (hhistory : s.history = ∅)
    (hclear : exec (clearArea area.ref) s = (.ok (), t))
    (hreplay : exec (area.replay h area.start) t = (.ok size, u)) :
    Settled s u ∧ u.Replayed h area := by
  have hcleared : Settled s t := (leads_settled_clearArea _).apply hclear
  have hquiet : Leads (Placed h s.template []) (clearArea area.ref) :=
    leads_clearArea (fun _ _ => placed_nil_of_eq rfl) (fun _ _ => placed_nil_of_eq rfl) _
  obtain ⟨hsettled, hplaced⟩ := replay_in_place hp hcommands (hs.mono hcleared) hreplay
  rw [hcleared.template] at hplaced
  have hall := (hquiet.apply hclear).append hplaced
  have hempty : ∀ x, s.history.of x = {} := by
    intro x
    rw [hhistory]
    rfl
  have hfinal := trans_of Settled hcleared hsettled
  refine ⟨hfinal, hs.mono hfinal, hfinal.template ▸ hkeyed, fun x => ?_, fun x hx => ?_⟩
  · have htargets := hall.targets x
    have hnone : s.history.targets x = [] := by rw [History.targets, hempty]
    have hsame : (area.cells.map fun r => CellCopy.mk r r).filter
          (fun c => c.origin == x && (s.template.cell? c.origin).isSome) =
        (area.cells.filter fun r => r == x && (s.template.cell? r).isSome).map fun r => ⟨r, r⟩ :=
      List.filter_map
    rw [List.nil_append, hnone, List.nil_append, hsame,
      filter_self area.nodup_cells x fun r => (s.template.cell? r).isSome, List.map_map] at htargets
    have hplace : (CellCopy.target ∘ fun r : CellRef => CellCopy.mk r r) = id := rfl
    rw [hplace, List.map_id] at htargets
    rw [htargets, hfinal.template]
    simp only [Bool.and_eq_true, mem_cells]
  · rw [hfinal.template] at hx
    rw [hall.formulas x hx, hempty]

end Area

namespace Formula

variable {h : FillHost} {area : Area} {s t : FillState} {r : CellRef} {info : CellInfo}
  {formula : String}

theorem still_moveFor (hs : s.Replayed h area) (hr : area.contains r = true)
    (hstrategy : info.strategy = .default) :
    (moveFor area s.history info r).Still fun x => (s.template.cell? x).isSome :=
  ⟨hs.targets, hstrategy, ((Area.contains_iff _ _).1 hr).sheet⟩

theorem relocations_fst (hs : s.Replayed h area) :
    (relocations area s.template s.history).map (·.1) =
      (s.template.formulas.filter fun i => area.contains i.ref).map CellInfo.ref := by
  rw [relocations, List.map_flatMap, List.map_eq_flatMap]
  refine List.flatMap_congr fun i hi => ?_
  obtain ⟨hmem, hin⟩ := List.mem_filter.1 hi
  have hinfo := hs.keyed.cell?_ref (List.mem_of_mem_filter hmem)
  rw [hs.targets, hinfo, hin]
  rfl

theorem relocateArea_content (hs : s.Replayed h area)
    (hmove : exec (relocateArea area) s = (.ok (), t)) (hinfo : s.template.cell? r = some info)
    (hr : area.contains r = true) (hactive : info.activeFormula? = some formula)
    (hplain : h.expressionText? (.text formula) = none) :
    ∃ moved held, (moveFor area s.history info r).relocate formula = .ok moved ∧
      Cell.heldText? (formulaText moved) = some held ∧
        t.book.content r = ⟨.text held, Cell.textType held⟩ := by
  obtain ⟨_, u, hget, hmove⟩ := bind_eq_ok.1 hmove
  cases hget
  obtain ⟨_, u, hput, hlog⟩ := bind_eq_ok.1 hmove
  cases hlog
  have href := hs.keyed.ref_of_cell? hinfo
  have hnodup : ((relocations area s.template s.history).map (·.1)).Nodup := by
    rw [relocations_fst hs]
    exact hs.keyed.nodup_refs.sublist
      ((List.filter_sublist.trans List.filter_sublist).map CellInfo.ref)
  have hfree : ∀ c ∈ relocations area s.template s.history, s.Free c.1 := by
    intro c hc
    have hmem := List.mem_map_of_mem (f := (·.1)) hc
    rw [relocations_fst hs] at hmem
    obtain ⟨i, hi, hic⟩ := List.mem_map.1 hmem
    have hi := hs.keyed.cell?_ref (List.mem_of_mem_filter (List.mem_of_mem_filter hi))
    rw [← hic]
    exact hs.sound _ i hi
  have hcopy : (r, relocateCopy area s.history info r) ∈
      relocations area s.template s.history := by
    refine List.mem_flatMap.2 ⟨info, List.mem_filter.2 ⟨List.mem_filter.2 ⟨?_, ?_⟩, ?_⟩, ?_⟩
    · exact Template.mem_cells_of_cell? hinfo
    · rw [CellInfo.hasFormula, hactive]
      rfl
    · rwa [href]
    · refine List.mem_map.2 ⟨r, ?_, rfl⟩
      rw [href, hs.targets, hr, hinfo]
      exact List.mem_singleton_self r
  obtain ⟨moved, held, hmoved, hheld, hcontent⟩ := putCopies_content hnodup hfree hput _ hcopy
  refine ⟨moved, held, ?_, hheld, hcontent⟩
  -- Without expressions the formula is moved as the template has it.
  have hnone : (s.history.of info.ref).formulas = [] := by
    refine hs.formulas _ fun i f hi hf => ?_
    rw [href, hinfo] at hi
    cases hi
    rw [hactive] at hf
    cases hf
    exact hplain
  have hformula : info.formula? = some formula := (Option.filter_eq_some_iff.1 hactive).1
  simpa only [relocateCopy, hnone, hformula, List.lookup_nil, Option.none_or, Option.getD_some] using hmoved

end Formula

namespace FillOptions

variable {o : FillOptions} {name : String} {c : Context} {streams : Streams} {book : Workbook}
  {area : Area} {s t state : FillState} {r : CellRef} {info : CellInfo} {formula : String}

theorem finish_template (hwrite : Leads Unseen o.beforeWrite)
    (hlast : exec (do removeComments Directive.mark; o.markRecalculation; o.beforeWrite) t =
      (.ok (), state)) : state.template = t.template := by
  obtain ⟨_, u, hstrip, hrest⟩ := bind_eq_ok.1 hlast
  obtain ⟨_, v, hmark, hafter⟩ := bind_eq_ok.1 hrest
  have h₁ : u.template = t.template := by
    cases hstrip
    rfl
  have h₂ : v.template = u.template := by
    rw [markRecalculation] at hmark
    split at hmark
    · cases hmark
      rfl
    · cases hmark
      rfl
  rw [(hwrite.apply hafter).template, h₂, h₁]

theorem finish_content (hwrite : Leads Unseen o.beforeWrite) (hkeyed : s.template.Keyed)
    (hinfo : s.template.cell? r = some info)
    (hplain : o.host.expressionText? info.source = none)
    (hclean : exec o.clearTemplate s = (.ok (), t))
    (hlast : exec (do removeComments Directive.mark; o.markRecalculation; o.beforeWrite) t =
      (.ok (), state)) : state.book.content r = s.book.content r := by
  have hcleared : Leads (Leaves (· = r)) (s.template.cells.forM o.clearUnused) := by
    refine o.leaves_clearAll _ r fun i hi href => ?_
    have := hkeyed.cell?_ref hi
    rw [href, hinfo] at this
    cases this
    exact hplain
  have h₁ : t.book.content r = s.book.content r := by
    rw [clearTemplate] at hclean
    split at hclean
    · rw [exec_bind, exec_get] at hclean
      exact hcleared.apply hclean r rfl
    · cases hclean
      rfl
  rw [(o.leaves_finish hwrite).apply hlast r trivial, h₁]

/-- Filling a template whose only area has no commands leaves every formula without expressions as it
is, but for its references to the area: references to populated cells keep their meaning, those to
blank cells of the area become the default, and ranges with one blank end shrink to the other. The
cell holds as much of the formula as a cell can. -/
theorem process_keeps_references (hp : o.host.Passive) (hwrite : Leads Unseen o.beforeWrite)
    (hbook : book.Regular) (hcommands : area.bindings = [])
    (h : o.process name c streams book = (.ok (), state, some ⟨state, [area]⟩))
    (hinfo : state.template.cell? r = some info) (hr : area.contains r = true)
    (hactive : info.activeFormula? = some formula)
    (hplain : o.host.expressionText? (.text formula) = none)
    (hstrategy : info.strategy = .default) :
    ∃ texts held,
      List.Forall₂ (Formula.Move.KeepsPiece area (fun x => (state.template.cell? x).isSome)
          ((info.default?.filter fun s => !s.isEmpty).getD Formula.defaultText))
        (Formula.split formula.toList) texts ∧
      Cell.heldText? (formulaText (Text.joinText "" texts)) = some held ∧
      state.book.content r = ⟨.text held, Cell.textType held⟩ := by
  obtain ⟨s, hbuild, hfill⟩ := process_eq_ok.1 h
  have hbuilt := build_annotated hbuild
  obtain ⟨s₁, s₂, s₃, s₄, s₅, size, hclear, hreplay, hunseen, hmove, hclean, hlast⟩ :=
    fillAreas_singleton hfill
  have hkeyed := hbuilt.keyed (keyed_ofWorkbook hbook)
  obtain ⟨hsettled, hreplayed⟩ := Area.replayed hp hcommands (hbuilt.sound (sound_opened hbook))
    hkeyed hbuilt.history hclear hreplay
  have hreplayed' : s₃.Replayed o.host area := by
    have hsound := hreplayed.sound.mono hunseen.settled
    refine ⟨hsound, hunseen.template ▸ hreplayed.keyed, ?_, ?_⟩
    · rw [hunseen.template, hunseen.history]
      exact hreplayed.targets
    · rw [hunseen.template, hunseen.history]
      exact hreplayed.formulas
  have hmoved : Settled s₃ s₅ := trans_of Settled
    ((Formula.leads_settled_relocateArea area).apply hmove) (o.leads_settled_clearTemplate.apply hclean)
  have htemplate : state.template = s₃.template := by
    rw [finish_template hwrite hlast, hmoved.template]
  have htemplate' := ((Formula.leads_settled_relocateArea area).apply hmove).template
  rw [htemplate] at hinfo
  obtain ⟨moved, held, hformula, hheld, hcontent⟩ :=
    Formula.relocateArea_content hreplayed' hmove hinfo hr hactive hplain
  obtain ⟨texts, htexts, rfl⟩ := Formula.Move.relocate_keeps
    (Formula.still_moveFor hreplayed' hr hstrategy) hformula
  refine ⟨texts, held, htemplate ▸ htexts, hheld, ?_⟩
  rw [← hcontent]
  refine finish_content hwrite (htemplate' ▸ hreplayed'.keyed) (htemplate' ▸ hinfo) ?_ hclean hlast
  rwa [CellInfo.source, hactive]

def sparse : Workbook where
  sheets :=
    [(((({ title := "S" } : Sheet).setCell ⟨0, 0⟩
            { value := .int 1, comment? := some "jx:area(lastCell=\"B3\")" }).setCell ⟨1, 0⟩
          { value := .int 2 }).setCell ⟨0, 1⟩
        { value := .text "=SUM(A1:A3)", type := .formula }).setCell ⟨1, 1⟩
      { value := .text "=A3", type := .formula }]

theorem sparse_regular : sparse.Regular where
  titles := by decide
  merged := by
    intro s hs b hb
    rw [List.mem_singleton.1 hs] at hb
    cases hb

def sparseResult : Except Failure Unit × FillState × Option Filled :=
  process {} "sparse" { data := [] } [] sparse

theorem sparse_filled :
    ∃ area info,
      sparseResult = (.ok (), sparseResult.2.1, some ⟨sparseResult.2.1, [area]⟩) ∧
        area.start = ⟨"S", 0, 0⟩ ∧ area.size = ⟨2, 3⟩ ∧ area.bindings = [] ∧
        sparseResult.2.1.template.cell? ⟨"S", 1, 1⟩ = some info ∧
        info.activeFormula? = some "A3" ∧ info.strategy = .default := by
  have hok : ∃ roots,
      sparseResult = (.ok (), sparseResult.2.1, some ⟨sparseResult.2.1, roots⟩) :=
    process_of_toOption (by decide +kernel)
  obtain ⟨roots, hprocess⟩ := hok
  have hroots : sparseResult.2.2.map (fun f => f.areas.map fun a =>
      (a.start, a.size, a.bindings.length)) = some [(⟨"S", 0, 0⟩, ⟨2, 3⟩, 0)] := by decide +kernel
  have hinfo : (sparseResult.2.1.template.cell? ⟨"S", 1, 1⟩).map (fun i =>
      (i.activeFormula?, i.strategy)) = some (some "A3", .default) := by decide +kernel
  rw [hprocess, Option.map_some, Option.some.injEq] at hroots
  obtain ⟨area, rfl, harea⟩ := List.map_eq_singleton_iff.1 hroots
  obtain ⟨info, hinfo, hformula⟩ := Option.map_eq_some_iff.1 hinfo
  simp only [Prod.mk.injEq, List.length_eq_zero_iff] at harea hformula
  exact ⟨area, info, hprocess, harea.1, harea.2.1, harea.2.2, hinfo, hformula.1, hformula.2⟩

theorem sparse_loses_reference :
    sparse.Regular ∧ ∃ area info,
      process {} "sparse" { data := [] } [] sparse =
        (.ok (), sparseResult.2.1, some ⟨sparseResult.2.1, [area]⟩) ∧
      area.bindings = [] ∧ area.contains ⟨"S", 1, 1⟩ = true ∧
      sparseResult.2.1.template.cell? ⟨"S", 1, 1⟩ = some info ∧
      info.activeFormula? = some "A3" ∧ info.strategy = .default ∧
      Formula.split "A3".toList = [.reference ⟨none, ⟨2, 0⟩, none⟩ "A3".toList] ∧
      (sparseResult.2.1.book.content ⟨"S", 1, 1⟩).value.text? = some "=0" ∧
      Formula.split "=0".toList = [.char '=', .char '0'] := by
  obtain ⟨area, info, hprocess, hstart, hsize, hcommands, hinfo, hactive, hstrategy⟩ :=
    sparse_filled
  refine ⟨sparse_regular, area, info, hprocess, hcommands, ?_, hinfo, hactive, hstrategy,
    by decide +kernel, by decide +kernel, by decide⟩
  rw [Area.contains, hstart, hsize]
  decide

theorem passive_default : ({} : FillHost).Passive where
  permits := by
    intro l origin target s allowed t h
    cases h
    rfl
  before := fun _ _ _ => leads_pure _
  after := fun _ _ _ => leads_pure _

theorem sparse_keeps_references :
    sparse.Regular ∧ ∃ (area : Area) (info : CellInfo) (texts : List String) (held : String),
      process {} "sparse" { data := [] } [] sparse =
        (.ok (), sparseResult.2.1, some ⟨sparseResult.2.1, [area]⟩) ∧
      info.activeFormula? = some "A3" ∧
      List.Forall₂ (Formula.Move.KeepsPiece area
          (fun x => (sparseResult.2.1.template.cell? x).isSome)
          ((info.default?.filter fun s => !s.isEmpty).getD Formula.defaultText))
        (Formula.split "A3".toList) texts ∧
      Cell.heldText? (formulaText (Text.joinText "" texts)) = some held ∧
      sparseResult.2.1.book.content ⟨"S", 1, 1⟩ = ⟨.text held, Cell.textType held⟩ := by
  obtain ⟨area, info, hprocess, hstart, hsize, hcommands, hinfo, hactive, hstrategy⟩ :=
    sparse_filled
  have hcontains : area.contains ⟨"S", 1, 1⟩ = true := by
    rw [Area.contains, hstart, hsize]
    decide
  obtain ⟨texts, held, hpieces, hheld, hcontent⟩ :=
    process_keeps_references passive_default (leads_pure ()) sparse_regular hcommands hprocess hinfo
      hcontains hactive (by decide) hstrategy
  exact ⟨sparse_regular, area, info, texts, held, hprocess, hactive, hpieces, hheld, hcontent⟩

end FillOptions

end SheetTemplate
