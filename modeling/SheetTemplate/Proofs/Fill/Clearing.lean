import SheetTemplate.Proofs.Fill.Shown

namespace SheetTemplate

open FillM FillState

def Content.source (c : Content) : Value :=
  (CellInfo.ofOutput ⟨"", 0, 0⟩ { value := c.value, type := c.type }).source

theorem CellInfo.source_ofOutput (r : CellRef) (c : Cell) :
    (CellInfo.ofOutput r c).source = c.content.source := by
  have hsource : ∀ (x y : CellRef) (c d : Cell), c.value = d.value → c.type = d.type →
      (CellInfo.ofOutput x c).source = (CellInfo.ofOutput y d).source := by
    rintro x y c d hvalue htype
    have hformula : c.formula? = d.formula? := by rw [Cell.formula?, hvalue, htype, Cell.formula?]
    simp only [CellInfo.ofOutput, hformula, hvalue]
    cases d.formula? <;> rfl
  unfold Content.source
  cases hvalue : c.value with
  | null =>
    have hformula : c.formula? = none := by rw [Cell.formula?, hvalue]
    rw [CellInfo.ofOutput, hformula, Cell.content, hvalue]
    rfl
  | _ => exact hsource _ _ _ _ (by rw [Cell.content, hvalue]) (by rw [Cell.content, hvalue])

structure FillState.Emptied (rs : List CellRef) (s t : FillState) : Prop where
  settled : Settled s t
  emptied : ∀ x ∈ rs, t.book.content x = {}
  kept : ∀ x, x ∉ rs → t.book.content x = s.book.content x
  history : t.history = s.history
  context : t.context = s.context
  streams : t.streams = s.streams

namespace FillState

variable {rs rs' : List CellRef} {s t u : FillState}

theorem emptied_nil (s : FillState) : Emptied [] s s :=
  ⟨refl_of Settled s, fun _ h => (nomatch h), fun _ _ => rfl, rfl, rfl, rfl⟩

theorem Emptied.append (hst : Emptied rs s t) (htu : Emptied rs' t u) :
    Emptied (rs ++ rs') s u := by
  refine ⟨trans_of Settled hst.settled htu.settled, fun x hx => ?_, fun x hx => ?_,
    htu.history.trans hst.history, htu.context.trans hst.context, htu.streams.trans hst.streams⟩
  · by_cases hx' : x ∈ rs'
    · exact htu.emptied x hx'
    · rw [htu.kept x hx']
      exact hst.emptied x ((List.mem_append.1 hx).resolve_right hx')
  · rw [List.mem_append, not_or] at hx
    rw [htu.kept x hx.2, hst.kept x hx.1]

theorem sheet?_of_settled {title : String} (h : Settled s t)
    (hsheet : (s.sheet? title).isSome = true) : (t.sheet? title).isSome = true := by
  rw [sheet?_isSome] at hsheet ⊢
  rwa [h.deleted, h.titles]

end FillState

namespace FillM

variable {s : FillState} {r : CellRef} {title : String} {sheet : Sheet}

theorem clearCell_emptied (hsheet : (s.sheet? r.sheet).isSome = true) :
    ∃ t, exec (clearCell r) s = (.ok (), t) ∧ Emptied [r] s t := by
  obtain ⟨sheet, hsheet⟩ := Option.isSome_iff_exists.1 hsheet
  let u := { s with journal := Write.clear r :: s.journal }
  have hu : u.sheet? r.sheet = some sheet := hsheet
  have hsettled : Leads Settled (clearCell r) := leads_clearCell r fun _ => settled_of_eq rfl rfl rfl
  have hcontent : s.book.content r = ((sheet.slots[r.pos]?).map Slot.content).getD {} := by
    rw [Workbook.content, Workbook.slot?_of_find? _ (sheet?_eq_some hsheet).2]
  have hleaves := leaves_clearCell r
  suffices h : ∃ t, exec (clearCell r) s = (.ok (), t) ∧ t.book.content r = {} ∧
      t.history = s.history ∧ t.context = s.context ∧ t.streams = s.streams by
    obtain ⟨t, ht, hempty, hhistory, hcontext, hstreams⟩ := h
    refine ⟨t, ht, hsettled.apply ht, fun x hx => ?_, fun x hx => ?_, hhistory, hcontext, hstreams⟩
    · rw [List.mem_singleton.1 hx, hempty]
    · exact hleaves.apply ht x fun h => hx (List.mem_singleton.2 h)
  cases hcell : sheet.cell? r.pos with
  | some c =>
    refine ⟨u.onSheet r.sheet fun s => s.setCell r.pos c.clear, ?_, ?_, rfl, rfl, rfl⟩
    · refine bind_eq_ok.2 ⟨_, u, rfl, bind_eq_ok.2 ⟨_, u, exec_sheet? hu, ?_⟩⟩
      simp only [hcell]
      rfl
    · refine Workbook.content_setCell_self _ r ?_
      rw [(sheet?_eq_some hu).2]
      rfl
  | none =>
    refine ⟨u, ?_, ?_, rfl, rfl, rfl⟩
    · refine bind_eq_ok.2 ⟨_, u, rfl, bind_eq_ok.2 ⟨_, u, exec_sheet? hu, ?_⟩⟩
      simp only [hcell]
      rfl
    · refine hcontent.trans ?_
      rcases (sheet.cell?_eq_none r.pos).1 hcell with h | h <;> rw [h] <;> rfl

theorem exec_outputCell_none (h : s.sheet? r.sheet = none) :
    ∃ log, exec (outputCell r) s = (.ok { ref := r }, { s with log := log }) := by
  obtain ⟨log, hlog⟩ := exec_sheet?_none h
  exact ⟨log, bind_eq_ok.2 ⟨_, _, hlog, rfl⟩⟩

theorem exec_outputCell (h : (s.sheet? r.sheet).isSome = true) :
    ∃ i, exec (outputCell r) s = (.ok i, s) ∧ i.source = (s.book.content r).source := by
  obtain ⟨sheet, hsheet⟩ := Option.isSome_iff_exists.1 h
  have hcontent : s.book.content r = ((sheet.slots[r.pos]?).map Slot.content).getD {} := by
    rw [Workbook.content, Workbook.slot?_of_find? _ (sheet?_eq_some hsheet).2]
  cases hcell : sheet.cell? r.pos with
  | some c =>
    refine ⟨.ofOutput r c, bind_eq_ok.2 ⟨_, s, exec_sheet? hsheet, ?_⟩, ?_⟩
    · simp only [hcell]
      rfl
    · rw [CellInfo.source_ofOutput, hcontent, (sheet.cell?_eq_some r.pos).1 hcell]
      rfl
  | none =>
    refine ⟨{ ref := r }, bind_eq_ok.2 ⟨_, s, exec_sheet? hsheet, ?_⟩, ?_⟩
    · simp only [hcell]
      rfl
    · rw [hcontent]
      rcases (sheet.cell?_eq_none r.pos).1 hcell with h | h <;> rw [h] <;> rfl

theorem clearCells_emptied (rs : List CellRef) (hsheet : ∀ r ∈ rs, (s.sheet? r.sheet).isSome = true) :
    ∃ t, exec (rs.forM clearCell) s = (.ok (), t) ∧ Emptied rs s t := by
  induction rs generalizing s with
  | nil => exact ⟨s, rfl, emptied_nil s⟩
  | cons r rest ih =>
    obtain ⟨t, ht, hst⟩ := clearCell_emptied (hsheet r List.mem_cons_self)
    obtain ⟨u, hu, htu⟩ := ih fun x hx =>
      sheet?_of_settled hst.settled (hsheet x (List.mem_cons_of_mem r hx))
    exact ⟨u, bind_eq_ok.2 ⟨_, _, ht, hu⟩, hst.append htu⟩

theorem clearArea_emptied {start : CellRef} (size : Size) (hsheet : s.sheet? start.sheet = some sheet)
    (hmerged : sheet.merged = []) :
    ∃ t, exec (clearArea (.ofSize start size)) s = (.ok (), t) ∧
      Emptied (size.cellsFrom start) s t := by
  obtain ⟨t, ht, hst⟩ := clearCells_emptied (s := s) (size.cellsFrom start) fun r hr => by
    rw [(Size.mem_cellsFrom.1 hr).sheet, hsheet]
    rfl
  refine ⟨t, ?_, hst⟩
  rw [← Size.map_rectangle] at ht
  refine bind_eq_ok.2 ⟨_, s, exec_sheet? hsheet, bind_eq_ok.2 ⟨(), s, ?_, ?_⟩⟩
  · rw [unmergeAll, hmerged]
    rfl
  · rw [AreaRef.size_ofSize]
    rw [List.forM_eq_forM, List.forM_map] at ht
    exact ht

end FillM

namespace FillOptions

variable {o : FillOptions} {s t : FillState} {info : CellInfo} {r : CellRef}

/-- What a cell shows is taken for notation that is left of the template: the template has this text
with an expression there. -/
def Shows (o : FillOptions) (info : CellInfo) (c : Content) : Prop :=
  ∃ text, o.host.expressionText? info.source = some text ∧ c.source = .text text

def Wipes (o : FillOptions) (T : Template) (r : CellRef) (c : Content) : Prop :=
  o.clearsTemplate = true ∧ ∃ info, T.cell? r = some info ∧ o.Shows info c

/-- A cell that is wiped is empty in the end, and any other shows what it did. -/
structure Spares (o : FillOptions) (T : Template) (r : CellRef) (c out : Content) : Prop where
  wiped : o.Wipes T r c → out = {}
  spared : ¬ o.Wipes T r c → out = c

theorem Spares.of_empty {T : Template} {out : Content} (h : o.Spares T r {} out) : out = {} := by
  by_cases hwipes : o.Wipes T r {}
  · exact h.wiped hwipes
  · exact h.spared hwipes

theorem not_shows_empty (o : FillOptions) (info : CellInfo) : ¬ o.Shows info {} := by
  rintro ⟨text, -, htext⟩
  cases htext

theorem clearUnused_emptied (o : FillOptions) (info : CellInfo) (s : FillState) :
    ∃ rs t, exec (o.clearUnused info) s = (.ok (), t) ∧ Emptied rs s t ∧ ∀ r, r ∈ rs ↔
      info.ref = r ∧ (s.sheet? r.sheet).isSome = true ∧ o.Shows info (s.book.content r) := by
  unfold clearUnused
  cases htext : o.host.expressionText? info.source with
  | none =>
    refine ⟨[], s, rfl, emptied_nil s, fun r => ⟨fun h => (nomatch h), ?_⟩⟩
    rintro ⟨-, -, text, hsome, -⟩
    rw [htext] at hsome
    cases hsome
  | some text =>
    cases hsheet : s.sheet? info.ref.sheet with
    | none =>
      obtain ⟨log, hlog⟩ := exec_outputCell_none hsheet
      refine ⟨[], { s with log := log }, bind_eq_ok.2 ⟨_, _, hlog, rfl⟩, ?_, fun r => ?_⟩
      · exact ⟨settled_of_eq rfl rfl rfl, fun _ h => (nomatch h), fun _ _ => rfl, rfl, rfl, rfl⟩
      · refine ⟨fun h => (nomatch h), ?_⟩
        rintro ⟨rfl, hsome, -⟩
        rw [hsheet] at hsome
        cases hsome
    | some x =>
      have hpresent : (s.sheet? info.ref.sheet).isSome = true := hsheet ▸ rfl
      -- The sheet is there: the cell is compared by the text that it shows.
      obtain ⟨i, hi, hsource⟩ := exec_outputCell hpresent
      have hiff : o.Shows info (s.book.content info.ref) ↔ i.source = .text text := by
        rw [Shows, htext, hsource]
        simp
      simp only [exec_bind, hi]
      by_cases hshown : i.source = .text text
      · obtain ⟨t, ht, hemptied⟩ := clearCell_emptied hpresent
        refine ⟨[info.ref], t, ?_, hemptied, fun r => ?_⟩
        · simp only [hshown, beq_self_eq_true, if_true]
          exact ht
        · rw [List.mem_singleton]
          refine ⟨?_, fun h => h.1.symm⟩
          rintro rfl
          exact ⟨rfl, hpresent, hiff.2 hshown⟩
      · refine ⟨[], s, ?_, emptied_nil s, fun r => ⟨fun h => (nomatch h), ?_⟩⟩
        · split
          · next current hcurrent =>
            have hne : (current == text) = false := by
              refine beq_false_of_ne ?_
              rintro rfl
              exact hshown hcurrent
            rw [hne]
            rfl
          · rfl
        · rintro ⟨rfl, -, hshows⟩
          exact absurd (hiff.1 hshows) hshown

theorem clearAll_emptied (o : FillOptions) (infos : List CellInfo) (s : FillState) :
    ∃ rs t, exec (infos.forM o.clearUnused) s = (.ok (), t) ∧ Emptied rs s t ∧ ∀ r, r ∈ rs ↔
      (s.sheet? r.sheet).isSome = true ∧
        ∃ info ∈ infos, info.ref = r ∧ o.Shows info (s.book.content r) := by
  induction infos generalizing s with
  | nil =>
    refine ⟨[], s, rfl, emptied_nil s, fun r => ⟨fun h => (nomatch h), ?_⟩⟩
    rintro ⟨-, info, hinfo, -⟩
    cases hinfo
  | cons info rest ih =>
    obtain ⟨rs, u, hu, hfirst, hrs⟩ := o.clearUnused_emptied info s
    obtain ⟨rs', t, ht, hlater, hrs'⟩ := ih u
    refine ⟨rs ++ rs', t, bind_eq_ok.2 ⟨_, _, hu, ht⟩, hfirst.append hlater, fun r => ?_⟩
    have hsheet : (u.sheet? r.sheet).isSome = true ↔ (s.sheet? r.sheet).isSome = true := by
      rw [sheet?_isSome, sheet?_isSome, hfirst.settled.deleted, hfirst.settled.titles]
    rw [List.mem_append, hrs', hsheet]
    -- What the first step emptied shows nothing to the later ones.
    by_cases hr : r ∈ rs
    · obtain ⟨href, hpresent, hshows⟩ := (hrs r).1 hr
      exact ⟨fun _ => ⟨hpresent, info, List.mem_cons_self, href, hshows⟩, fun _ => .inl hr⟩
    · rw [hfirst.kept r hr]
      refine ⟨fun h => ?_, ?_⟩
      · obtain ⟨hpresent, i, hi, hshows⟩ := h.resolve_left hr
        exact ⟨hpresent, i, List.mem_cons_of_mem info hi, hshows⟩
      · rintro ⟨hpresent, i, hi, href, hshows⟩
        rcases List.mem_cons.1 hi with rfl | hi
        · exact .inl ((hrs r).2 ⟨href, hpresent, hshows⟩)
        · exact .inr ⟨hpresent, i, hi, href, hshows⟩

theorem clearTemplate_emptied (o : FillOptions) (s : FillState) :
    ∃ rs t, exec o.clearTemplate s = (.ok (), t) ∧ Emptied rs s t ∧ ∀ r, r ∈ rs ↔
      o.clearsTemplate = true ∧ (s.sheet? r.sheet).isSome = true ∧
        ∃ info ∈ s.template.cells, info.ref = r ∧ o.Shows info (s.book.content r) := by
  unfold clearTemplate
  by_cases hclears : o.clearsTemplate = true
  · rw [if_pos hclears]
    obtain ⟨rs, t, ht, hemptied, hrs⟩ := o.clearAll_emptied s.template.cells s
    refine ⟨rs, t, bind_eq_ok.2 ⟨s, s, rfl, ht⟩, hemptied, fun r => ?_⟩
    rw [hrs, hclears]
    simp
  · rw [if_neg hclears]
    exact ⟨[], s, rfl, emptied_nil s, fun r => ⟨fun h => (nomatch h), fun h => absurd h.1 hclears⟩⟩

theorem clearTemplate_spares (o : FillOptions) (hkeyed : s.template.Keyed) :
    ∃ t, exec o.clearTemplate s = (.ok (), t) ∧ Settled s t ∧
      ∀ r : CellRef, (s.sheet? r.sheet).isSome = true →
        o.Spares s.template r (s.book.content r) (t.book.content r) := by
  obtain ⟨rs, t, ht, hemptied, hrs⟩ := o.clearTemplate_emptied s
  refine ⟨t, ht, hemptied.settled, fun r hr => ⟨?_, fun hnot => hemptied.kept r fun hmem => hnot ?_⟩⟩
  · rintro ⟨hclears, info, hinfo, hshows⟩
    have hmem : info ∈ s.template.cells := Template.mem_cells_of_cell? hinfo
    exact hemptied.emptied r ((hrs r).2
      ⟨hclears, hr, info, hmem, hkeyed.ref_of_cell? hinfo, hshows⟩)
  · obtain ⟨hclears, -, info, hinfo, rfl, hshows⟩ := (hrs r).1 hmem
    exact ⟨hclears, info, hkeyed.cell?_ref hinfo, hshows⟩

end FillOptions

end SheetTemplate
