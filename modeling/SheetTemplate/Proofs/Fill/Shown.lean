import SheetTemplate.Fill.Run
import SheetTemplate.Proofs.Fill.Standing

namespace SheetTemplate

open FillM FillState

namespace Workbook

variable (w : Workbook) (r x : CellRef)

theorem content_touch : (w.modify r.sheet fun s => s.touch r.pos).content x = w.content x := by
  rw [content, slot?_modify w fun s => s.touch_title r.pos]
  split
  · next hx =>
    rw [content, slot?, hx]
    cases w.find? r.sheet with
    | none => rfl
    | some s => exact s.content_touch r.pos x.pos
  · rfl

theorem content_setCell {c : Cell} (h : (w.find? r.sheet).isSome = true) :
    (w.modify r.sheet fun s => s.setCell r.pos c).content x =
      if x = r then c.content else w.content x := by
  obtain ⟨s, hs⟩ := Option.isSome_iff_exists.1 h
  have htitle : ∀ s : Sheet, (s.setCell r.pos c).title = s.title := fun _ => rfl
  rw [content, slot?_modify w htitle, hs]
  simp only [Option.bind_some, Sheet.slot_setCell, CellRef.eq_iff]
  by_cases hsheet : x.sheet = r.sheet
  · by_cases hpos : x.pos = r.pos
    · simp [hsheet, hpos, Slot.content]
    · rw [content, slot?, hsheet, hs]
      simp [hpos]
  · simp [hsheet, content]

theorem content_setCell_self {c : Cell} (h : (w.find? r.sheet).isSome = true) :
    (w.modify r.sheet fun s => s.setCell r.pos c).content r = c.content := by
  rw [content_setCell w r r h, if_pos rfl]

theorem find?_setCell {c : Cell} (h : (w.find? r.sheet).isSome = true) :
    ((w.modify r.sheet fun s => s.setCell r.pos c).find? r.sheet).isSome = true := by
  have htitle : ∀ s : Sheet, (s.setCell r.pos c).title = s.title := fun _ => rfl
  rw [find?_modify w htitle, if_pos rfl, Option.isSome_map]
  exact h

theorem content_setCell_of_ne {c : Cell} (h : x ≠ r) :
    (w.modify r.sheet fun s => s.setCell r.pos c).content x = w.content x := by
  cases hfind : w.find? r.sheet with
  | none => rw [modify_of_none w hfind]
  | some s => rw [content_setCell w r x (by rw [hfind]; rfl), if_neg h]

end Workbook

def FillState.Leaves (P : CellRef → Prop) (s t : FillState) : Prop :=
  ∀ x, P x → t.book.content x = s.book.content x

instance (P : CellRef → Prop) : IsPreorder FillState (Leaves P) where
  refl _ _ _ := rfl
  trans _ _ _ hst htu x hx := (htu x hx).trans (hst x hx)

theorem FillState.leaves_of_eq {P : CellRef → Prop} {s t : FillState} (h : t.book = s.book) :
    Leaves P s t := fun x _ => by rw [h]

namespace FillM

variable {s t : FillState} {r : CellRef} {sheet : Sheet}

instance (P : CellRef → Prop) : Confined (fun x => ¬ P x) (Leaves P) where
  touch s r x _ := s.book.content_touch r x
  cell s r c hr x hx := by
    refine s.book.content_setCell_of_ne r x ?_
    rintro rfl
    exact hr hx
  inert s title f hf x _ := by
    rw [FillState.onSheet, Workbook.content, Workbook.slot?_modify _ hf.title, Workbook.content]
    split
    · next h =>
      simp only [hf.slots, Workbook.slot?, h]
    · rfl
  written _ _ := leaves_of_eq rfl
  log _ _ := leaves_of_eq rfl

theorem leaves_setFormula (r : CellRef) (formula : String) :
    Leads (Leaves (· ≠ r)) (setFormula r formula) :=
  confined_setFormula (P := fun x => ¬ x ≠ r) (fun h => h rfl) formula fun _ => leaves_of_eq rfl

theorem leaves_clearCell (r : CellRef) : Leads (Leaves (· ≠ r)) (clearCell r) :=
  confined_clearCell (P := fun x => ¬ x ≠ r) (fun h => h rfl) fun _ => leaves_of_eq rfl

theorem leaves_outputCell (P : CellRef → Prop) (r : CellRef) :
    Leads (Leaves P) (outputCell r) := confined_outputCell (fun x => ¬ P x) r

def formulaText (formula : String) : String :=
  "=" ++ String.ofList (formula.toList.dropWhile (· == '='))

theorem put?_formula {c d : Cell} {formula : String}
    (h : c.put? (.text (formulaText formula)) = some d) :
    ∃ held, Cell.heldText? (formulaText formula) = some held ∧
      d.content = ⟨.text held, Cell.textType held⟩ := by
  obtain ⟨held, hheld, rfl⟩ := Option.map_eq_some_iff.1 h
  exact ⟨held, hheld, rfl⟩

theorem find?_isSome_onSheet {title : String} {f : Sheet → Sheet}
    (hf : ∀ s, (f s).title = s.title) (h : (s.sheet? title).isSome = true) :
    ((s.onSheet title f).book.find? title).isSome = true := by
  obtain ⟨sheet, hsheet⟩ := Option.isSome_iff_exists.1 h
  rw [(sheet?_eq_some (sheet?_onSheet hsheet hf)).2]
  rfl

theorem setFormula_content {formula : String} (hr : s.Takes r)
    (h : exec (setFormula r formula) s = (.ok (), t)) :
    ∃ held, Cell.heldText? (formulaText formula) = some held ∧
      t.book.content r = ⟨.text held, Cell.textType held⟩ := by
  obtain ⟨_, u, hrecord, h⟩ := bind_eq_ok.1 h
  have hu : u.Takes r := by
    cases hrecord
    exact ⟨hr.sheet, hr.covers⟩
  obtain ⟨c?, v, hopen, h⟩ := bind_eq_ok.1 h
  obtain ⟨sheet, hsheet⟩ := Option.isSome_iff_exists.1 hu.sheet
  obtain ⟨-, rfl, hv⟩ := open?_eq_ok_of_free hsheet hu.covers hopen
  obtain ⟨c, hput⟩ := discard_eq_ok h
  obtain ⟨hc, rfl⟩ := putOr_eq_ok hput
  obtain ⟨held, hheld, hcontent⟩ := put?_formula hc
  refine ⟨held, hheld, ?_⟩
  have hfind : (v.book.find? r.sheet).isSome = true := by
    rw [hv]
    exact find?_isSome_onSheet (fun s => s.touch_title _) hu.sheet
  rw [← hcontent]
  exact Workbook.content_setCell_self _ r hfind

end FillM

namespace Formula

theorem leads_settled_putCopy (c : CellRef × Except Failure String) :
    Leads Settled (putCopy c) :=
  (leads_ofExcept _).bind fun _ => leads_setFormula _ _ fun _ => settled_of_eq rfl rfl rfl

theorem leaves_putCopy (c : CellRef × Except Failure String) :
    Leads (Leaves (· ≠ c.1)) (putCopy c) :=
  (leads_ofExcept _).bind fun _ => leaves_setFormula _ _

theorem putCopy_content {c : CellRef × Except Failure String} {s t : FillState} (hc : s.Takes c.1)
    (h : exec (putCopy c) s = (.ok (), t)) :
    ∃ formula held, c.2 = .ok formula ∧ Cell.heldText? (formulaText formula) = some held ∧
      t.book.content c.1 = ⟨.text held, Cell.textType held⟩ := by
  obtain ⟨formula, u, hformula, h⟩ := bind_eq_ok.1 h
  obtain ⟨hresult, rfl⟩ := ofExcept_eq_ok.1 hformula
  obtain ⟨held, hheld, hcontent⟩ := setFormula_content hc h
  exact ⟨formula, held, hresult, hheld, hcontent⟩

theorem leads_settled_relocateArea (area : Area) : Leads Settled (relocateArea area) := by
  refine leads_get.bind fun s => Leads.bind ?_ fun _ => leads_log _ _ _
  exact leads_forM fun c _ => leads_settled_putCopy c

theorem putCopies_content {copies : List (CellRef × Except Failure String)} {s t : FillState}
    (hnodup : (copies.map (·.1)).Nodup) (hfree : ∀ c ∈ copies, s.Free c.1)
    (h : exec (copies.forM putCopy) s = (.ok (), t)) :
    ∀ c ∈ copies, ∃ formula held, c.2 = .ok formula ∧
      Cell.heldText? (formulaText formula) = some held ∧
        t.book.content c.1 = ⟨.text held, Cell.textType held⟩ := by
  induction copies generalizing s with
  | nil => exact fun c hc => absurd hc List.not_mem_nil
  | cons c rest ih =>
    obtain ⟨_, u, hput, hothers⟩ := bind_eq_ok.1 h
    rw [List.map_cons, List.nodup_cons] at hnodup
    have hsettled := (leads_settled_putCopy c).apply hput
    have hfree' := fun d hd => (hfree d (List.mem_cons_of_mem c hd)).mono hsettled
    have hrest := ih hnodup.2 hfree' hothers
    intro d hd
    rcases List.mem_cons.1 hd with rfl | hd
    · obtain ⟨formula, held, hformula, hheld, hcontent⟩ :=
        putCopy_content (hfree d List.mem_cons_self).takes hput
      refine ⟨formula, held, hformula, hheld, ?_⟩
      have hleaves : Leads (Leaves (· = d.1)) (rest.forM putCopy) := by
        refine leads_forM fun e he s x hx => leaves_putCopy e s x ?_
        rintro rfl
        rw [← hx] at hnodup
        exact hnodup.1 (List.mem_map_of_mem he)
      rw [hleaves.apply hothers d.1 rfl, hcontent]
    · exact hrest d hd

end Formula

namespace FillOptions

variable (o : FillOptions)

theorem leaves_clearUnused (info : CellInfo) :
    Leads (Leaves (· ≠ info.ref)) (o.clearUnused info) := by
  unfold clearUnused
  split
  · exact leads_pure _
  · refine (leaves_outputCell _ _).bind fun output => ?_
    split
    · split
      · exact leaves_clearCell _
      · exact leads_pure _
    · exact leads_pure _

theorem leads_settled_clearUnused (info : CellInfo) : Leads Settled (o.clearUnused info) := by
  unfold clearUnused
  split
  · exact leads_pure _
  · refine (leads_outputCell _).bind fun output => ?_
    split
    · split
      · exact leads_clearCell _ fun _ => settled_of_eq rfl rfl rfl
      · exact leads_pure _
    · exact leads_pure _

theorem leads_settled_clearTemplate : Leads Settled o.clearTemplate := by
  unfold clearTemplate
  split
  · exact leads_get.bind fun s => leads_forM fun info _ => o.leads_settled_clearUnused info
  · exact leads_pure _

theorem leaves_clearAll (infos : List CellInfo) (r : CellRef)
    (hr : ∀ info ∈ infos, info.ref = r → o.host.expressionText? info.source = none) :
    Leads (Leaves (· = r)) (infos.forM o.clearUnused) := by
  refine leads_forM fun info hinfo => ?_
  by_cases href : info.ref = r
  · rw [clearUnused, hr info hinfo href]
    exact leads_pure _
  · intro s x hx
    refine o.leaves_clearUnused info s x ?_
    rw [hx]
    exact fun h => href h.symm

end FillOptions

namespace FillM

theorem content_stripSlot (mark : List Char) (slot : Slot) :
    (stripSlot mark slot).content = slot.content := by
  cases slot with
  | covered => rfl
  | cell c =>
    simp only [stripSlot, stripCell, Slot.content]
    split
    · split <;> rfl
    · rfl

theorem stripSheet_title (mark : List Char) (s : Sheet) : (stripSheet mark s).title = s.title :=
  s.filled_title

theorem find?_strip (w : Workbook) (mark : List Char) (title : String) :
    Workbook.find? { w with sheets := w.sheets.map (stripSheet mark) } title =
      (w.find? title).map (stripSheet mark) :=
  w.find?_map (stripSheet_title mark) title

theorem leaves_removeComments (mark : List Char) :
    Leads (Leaves fun _ => True) (removeComments mark) := by
  intro s x _
  have hslot := fun sheet : Sheet => sheet.content_filled x.pos
  rw [removeComments, exec_modify, Workbook.content, Workbook.slot?, find?_strip,
    Workbook.content, Workbook.slot?]
  cases s.book.find? x.sheet with
  | none => rfl
  | some sheet =>
    rw [Option.bind_some, ← hslot sheet]
    simp only [Option.map_some, Option.bind_some, stripSheet, Std.TreeMap.getElem?_map,
      Option.map_map]
    congr 2
    funext slot
    exact content_stripSlot mark slot

end FillM

theorem FillOptions.leaves_finish (o : FillOptions) (hwrite : Leads Unseen o.beforeWrite) :
    Leads (Leaves fun _ => True)
      (do removeComments Directive.mark; o.markRecalculation; o.beforeWrite) := by
  refine (leaves_removeComments _).bind fun _ => Leads.bind ?_ fun _ => ?_
  · unfold markRecalculation
    split
    · exact leads_modify fun _ _ _ => rfl
    · exact leads_pure _
  · exact hwrite.mono fun _ _ h => leaves_of_eq h.book

end SheetTemplate
