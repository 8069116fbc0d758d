import SheetTemplate.Proofs.Area.Copying
import SheetTemplate.Proofs.Fill.Extending
import SheetTemplate.Proofs.Fill.Laying
import SheetTemplate.Proofs.Fill.Parallel

namespace SheetTemplate

open FillM FillState

namespace FillState

variable {s t u : FillState} {r : CellRef}

structure Seamless (s : FillState) : Prop where
  deleted : s.deleted = []
  covers : ∀ r, ¬ s.book.Covers r
  blocks : ∀ title, s.book.blocks title = []
  template : s.template.Bare

structure Still (s t : FillState) : Prop where
  template : t.template = s.template
  deleted : t.deleted = s.deleted
  titles : t.book.titles = s.book.titles
  covers : ∀ r, t.book.Covers r → s.book.Covers r
  blocks : ∀ title, t.book.blocks title = s.book.blocks title
  targets : ∀ x, t.history.targets x = s.history.targets x
  written : t.written = s.written

theorem still_of_book (htemplate : t.template = s.template) (hdeleted : t.deleted = s.deleted)
    (hbook : t.book = s.book) (htargets : ∀ x, t.history.targets x = s.history.targets x)
    (hwritten : t.written = s.written) : Still s t := by
  refine ⟨htemplate, hdeleted, ?_, ?_, ?_, htargets, hwritten⟩
  all_goals rw [hbook]
  · exact fun _ h => h
  · exact fun _ => rfl

instance : IsPreorder FillState Still where
  refl _ := still_of_book rfl rfl rfl (fun _ => rfl) rfl
  trans _ _ _ h h' :=
    { template := h'.template.trans h.template
      deleted := h'.deleted.trans h.deleted
      titles := h'.titles.trans h.titles
      covers := fun r hr => h.covers r (h'.covers r hr)
      blocks := fun title => (h'.blocks title).trans (h.blocks title)
      targets := fun x => (h'.targets x).trans (h.targets x)
      written := h'.written.trans h.written }

theorem still_record (w : Write) (s : FillState) : Still s { s with journal := w :: s.journal } :=
  still_of_book rfl rfl rfl (fun _ => rfl) rfl

theorem still_onSheet (s : FillState) (title : String) {f : Sheet → Sheet} (hf : Sheet.Tame f) :
    Still s (s.onSheet title f) := by
  refine ⟨rfl, rfl, s.book.titles_modify hf.title, fun r => Workbook.covers_modify hf, fun u => ?_,
    fun _ => rfl, rfl⟩
  cases hx : s.book.find? title with
  | none => rw [onSheet, s.book.modify_of_none hx]
  | some x =>
    rw [onSheet, Workbook.blocks_modify hf.title hx]
    split
    · next hu => rw [hu, Workbook.blocks_of_find? hx, hf.merged]
    · rfl

theorem Seamless.mono (hs : s.Seamless) (h : Still s t) : t.Seamless where
  deleted := h.deleted.trans hs.deleted
  covers r hr := hs.covers r (h.covers r hr)
  blocks title := (h.blocks title).trans (hs.blocks title)
  template := h.template.symm ▸ hs.template

theorem still_of_evaluated (h : Evaluated s t) : Still s t := by
  rw [Evaluated] at h
  rw [h]
  exact still_of_book rfl rfl rfl (fun _ => rfl) rfl

instance (h : FillHost) : h.Asks Still :=
  ⟨fun text => (h.leads_evaluateText text).mono fun _ _ => still_of_evaluated⟩

def SameBook (s t : FillState) : Prop := t.book = s.book

instance : IsPreorder FillState SameBook where
  refl _ := rfl
  trans _ _ _ h h' := h'.trans h

instance (h : FillHost) : h.Asks SameBook :=
  ⟨fun text => (h.leads_evaluateText text).mono fun s t hst => by
    rw [Evaluated] at hst
    rw [SameBook, hst]⟩

structure Reaches (s : FillState) (r : CellRef) : Prop where
  sheet : (s.sheet? r.sheet).isSome = true
  admits : Sheet.admits r.pos = true

structure Copyable (s : FillState) (origin target : CellRef) : Prop where
  origin : (s.template.cell? origin).isSome = true
  sheet : (s.sheet? target.sheet).isSome = true

def Blank (s : FillState) (r : CellRef) : Prop := (s.book.content r).value = .null

def Vain (r : CellRef) (res : Except Failure Unit) (s t : FillState) : Prop :=
  t.Blank r ∨ (∃ f, res = .error f) ∧ (t.book.content r).value = (s.book.content r).value

theorem Vain.of_content {res : Except Failure Unit} (h : Vain r res u t)
    (hc : u.book.content r = s.book.content r) : Vain r res s t := by
  rw [Vain, hc] at h
  exact h

theorem content_of_missing (hs : s.deleted = []) (hr : s.sheet? r.sheet = none) :
    s.book.content r = {} := by
  rw [sheet?_of_deleted hs] at hr
  rw [Workbook.content, Workbook.slot?, hr]
  rfl

theorem blank_of_missing (hs : s.deleted = []) (hr : s.sheet? r.sheet = none) : s.Blank r := by
  rw [Blank, content_of_missing hs hr]

end FillState

namespace FillM

variable {s t : FillState} {r : CellRef} {w : Write} {k : Cell → FillM Unit} {old : Cell}
  {c? : Option Cell} {res : Except Failure Unit}

theorem bind_eq_error {α β : Type} {m : FillM α} {k : α → FillM β} {f : Failure} :
    exec (m >>= k) s = (.error f, t) ↔
      exec m s = (.error f, t) ∨ ∃ a u, exec m s = (.ok a, u) ∧ exec (k a) u = (.error f, t) := by
  rw [exec_bind]
  rcases exec m s with ⟨e | a, u⟩
  · simp
  · simp

theorem discard_eq_error {α : Type} {m : FillM α} {f : Failure}
    (h : exec (discard m) s = (.error f, t)) : exec m s = (.error f, t) := by
  rcases bind_eq_error.1 h with h | ⟨_, _, _, h⟩
  · exact h
  · cases h

theorem still_putCell (r : CellRef) (c : Cell) : Leads Still (putCell r c) :=
  leads_modify fun s => still_onSheet s _ (Sheet.tame_setCell r.pos c)

theorem still_putOr (r : CellRef) (old : Cell) (c? : Option Cell) : Leads Still (putOr r old c?) := by
  cases c? with
  | some c => exact (still_putCell r c).bind fun _ => leads_pure _
  | none => exact (still_putCell r _).bind fun _ => leads_throw _

theorem putOr_error {f : Failure} (hsheet : (s.book.find? r.sheet).isSome = true)
    (h : exec (putOr r old c?) s = (.error f, t)) :
    c? = none ∧ (t.book.content r).value = old.value := by
  cases c? with
  | some c => cases h
  | none =>
    cases h
    have hcontent := Workbook.content_setCell_self s.book r (c := old.refused) hsheet
    exact ⟨rfl, (congrArg Content.value hcontent).trans old.refused.content_value⟩

theorem opening_reached (hs : s.Seamless) (hw : w.target = r) (hr : s.Reaches r)
    (h : exec (opening w k) s = (res, t)) :
    ∃ c u, exec (k c) u = (res, t) ∧ Still s u ∧ u.book.content r = s.book.content r ∧
      u.book.content r = c.content := by
  subst hw
  obtain ⟨x, hx⟩ := Option.isSome_iff_exists.1 hr.sheet
  have hfree : x.slots[w.target.pos]? ≠ some .covered :=
    free_of_not_covers hx (hs.covers w.target)
  have hrecord : exec (record w) s = (.ok (), { s with journal := w :: s.journal }) := rfl
  have hopen := exec_open? (s := { s with journal := w :: s.journal }) hx hr.admits
  rw [Sheet.cell?_touch_of_free _ _ hfree] at hopen
  have hcontent : s.book.content w.target = ((x.cell? w.target.pos).getD {}).content := by
    rw [Workbook.content, Workbook.slot?_of_find? _ (sheet?_eq_some hx).2, Sheet.cell?]
    cases hslot : x.slots[w.target.pos]? with
    | none => rfl
    | some slot =>
      cases slot with
      | cell c => rfl
      | covered => exact absurd hslot hfree
  have htouch := s.book.content_touch w.target w.target
  refine ⟨(x.cell? w.target.pos).getD {}, FillState.onSheet { s with journal := w :: s.journal }
    w.target.sheet (fun x => x.touch w.target.pos), ?_, ?_, htouch, htouch.trans hcontent⟩
  · rw [opening, exec_bind, hrecord] at h
    simpa only [exec_bind, hopen] using h
  · exact trans_of Still (still_record w s) (still_onSheet _ _ (Sheet.tame_touch _))

theorem opening_astray (hs : s.Seamless) (hw : w.target = r) (hr : ¬ s.Reaches r)
    (h : exec (opening w k) s = (res, t)) :
    Still s t ∧ Vain r res s t ∧ (res = .ok () → s.sheet? r.sheet = none) := by
  subst hw
  have hrecord : exec (record w) s = (.ok (), { s with journal := w :: s.journal }) := rfl
  rw [opening, exec_bind, hrecord] at h
  cases hx : s.sheet? w.target.sheet with
  | none =>
    obtain ⟨log, hlog⟩ := exec_sheet?_none (s := { s with journal := w :: s.journal }) hx
    simp only [open?, exec_bind, hlog] at h
    cases h
    exact ⟨still_of_book rfl rfl rfl (fun _ => rfl) rfl, .inl (blank_of_missing hs.deleted hx),
      fun _ => rfl⟩
  | some x =>
    have hadmits : Sheet.admits w.target.pos = false :=
      Bool.eq_false_iff.2 fun hadmits => hr ⟨hx ▸ rfl, hadmits⟩
    have hsheet := exec_sheet? (s := { s with journal := w :: s.journal }) hx
    simp only [open?, exec_bind, hsheet, hadmits] at h
    cases h
    exact ⟨still_record w s, .inr ⟨⟨_, rfl⟩, rfl⟩, fun hok => by cases hok⟩

theorem setValue_cases {v : Value} {font? : Option Font} (hs : s.Seamless)
    (h : exec (setValue r v font?) s = (res, t)) :
    s.Reaches r ∧ Still { s with written := r :: s.written } t ∨
      ¬ s.Reaches r ∧ Still s t ∧ Vain r res s t := by
  by_cases hr : s.Reaches r
  · obtain ⟨c, u, hput, hu, -⟩ := opening_reached (w := .value r v) hs rfl hr h
    have hnoted : Still { s with written := r :: s.written } { u with written := r :: u.written } :=
      { hu with written := congrArg (r :: ·) hu.written }
    have ht : Still { u with written := r :: u.written } t :=
      (leads_discard (still_putOr r _ _)).apply hput
    exact .inl ⟨hr, trans_of Still hnoted ht⟩
  · obtain ⟨ht, hvain, -⟩ := opening_astray (w := .value r v) hs rfl hr h
    exact .inr ⟨hr, ht, hvain⟩

theorem still_setFormula {formula : String} (hs : s.Seamless)
    (h : exec (setFormula r formula) s = (res, t)) : Still s t := by
  by_cases hr : s.Reaches r
  · obtain ⟨c, u, hput, hu, -⟩ := opening_reached (w := .formula r formula) hs rfl hr h
    exact trans_of Still hu ((leads_discard (still_putOr r c _)).apply hput)
  · exact (opening_astray (w := .formula r formula) hs rfl hr h).1

end FillM

namespace FillHost

variable {h : FillHost} {s t u : FillState} {origin target : CellRef} {c : Cell} {info : CellInfo}
  {res : Except Failure Unit} {f : Failure} {withHeight : Bool}

theorem still_note {g : Copies → Copies} (hg : ∀ c, (g c).targets = c.targets) (origin : CellRef)
    (s : FillState) : Still s (note origin g s) :=
  still_of_book rfl rfl rfl (targets_modify hg s) rfl

theorem still_copyWidth (origin target : CellRef) (sheet : SheetSnapshot) :
    Leads Still (copyWidth origin target sheet) := by
  unfold copyWidth
  split
  · exact (leads_ofExcept _).bind fun _ =>
      leads_modify fun s => still_onSheet s _ (Sheet.inert_setWidth _).tame
  · exact leads_pure _

theorem still_copyHeight (origin target : CellRef) (sheet : SheetSnapshot) :
    Leads Still (copyHeight origin target sheet) := by
  unfold copyHeight
  split
  · exact leads_modify fun s => still_onSheet s _ (Sheet.inert_setHeight _).tame
  · exact leads_pure _

theorem still_copySizes (origin target : CellRef) (withHeight : Bool) :
    Leads Still (copySizes origin target withHeight) := by
  refine leads_get.bind fun s => ?_
  split
  · exact leads_pure _
  · refine (still_copyWidth _ _ _).bind fun _ => ?_
    split
    · exact still_copyHeight _ _ _
    · exact leads_pure _

theorem still_copyHeld (h : FillHost) (origin target : CellRef) (c : Cell) (info : CellInfo) :
    Leads Still (h.copyHeld origin target c info) := by
  unfold copyHeld
  split
  · refine (h.leads_formulaFor _ _ _ fun _ v => ?_).bind fun _ => leads_discard (still_putOr _ _ _)
    exact still_note (g := fun x => x.setFormula target v) (fun _ => rfl) origin
  · unfold copyValue
    split
    · refine (leads_atCell (Asks.evaluateText _) _).bind fun v => Leads.bind ?_ fun _ => ?_
      · exact leads_modify (still_note (g := fun x => { x with result := v }) (fun _ => rfl) origin)
      · exact leads_discard (still_putOr _ _ _)
    · refine (still_putOr _ _ _).bind fun c => ?_
      split
      · exact leads_discard (still_putOr _ _ _)
      · exact leads_pure _

theorem copyHeld_error (hsheet : (s.book.find? target.sheet).isSome = true)
    (hc : (s.book.content target).value = c.value)
    (hr : exec (h.copyHeld origin target c info) s = (.error f, t)) :
    t.Blank target ∨ (t.book.content target).value = c.value := by
  rw [copyHeld] at hr
  split at hr
  · have hformula : ∀ formula, Leads SameBook (h.formulaFor origin target formula) := fun formula =>
      h.leads_formulaFor _ _ _ fun _ _ _ => rfl
    rcases bind_eq_error.1 hr with hr | ⟨text, u, hu, hr⟩
    · exact .inr ((hformula _).apply hr ▸ hc)
    · rw [← (hformula _).apply hu] at hsheet
      exact .inr (putOr_error hsheet (discard_eq_error hr)).2
  · rw [copyValue] at hr
    split at hr
    · have hevaluated : ∀ text, Leads SameBook (atCell origin (h.evaluateText text)) := fun text =>
        leads_atCell (Asks.evaluateText text) origin
      rcases bind_eq_error.1 hr with hr | ⟨v, u, hu, hr⟩
      · exact .inr ((hevaluated _).apply hr ▸ hc)
      · obtain ⟨_, w, hnote, hr⟩ := (bind_eq_error.1 hr).resolve_left fun h => by cases h
        have hw : SameBook u w := by
          cases hnote
          rfl
        rw [← (hevaluated _).apply hu, ← hw] at hsheet
        exact .inr (putOr_error hsheet (discard_eq_error hr)).2
    · rcases bind_eq_error.1 hr with hr | ⟨d, u, hd, hr⟩
      · exact .inr (putOr_error hsheet hr).2
      · obtain ⟨-, rfl⟩ := putOr_eq_ok hd
        split at hr
        · have hthere := Workbook.find?_setCell s.book target (c := d) hsheet
          obtain ⟨hnone, hvalue⟩ := putOr_error hthere (discard_eq_error hr)
          -- A link is refused only where there is no value.
          have hnull : d.value = .null := by
            by_contra hne
            rw [Cell.setLink?_of_ne_null hne] at hnone
            cases hnone
          exact .inl (hvalue.trans hnull)
        · cases hr

theorem copyInfo_cases (hs : s.Seamless) (hsheet : (s.book.find? target.sheet).isSome = true)
    (hc : s.book.content target = c.content)
    (hr : exec (h.copyInfo origin target c info withHeight) s = (res, t)) :
    (res = .ok () ∧ ∃ u, Still s u ∧ t = note origin (fun x => x.addTarget target) u) ∨
      (∃ f, res = .error f) ∧ Still s t ∧ Vain target res s t := by
  have hvalue : (s.book.content target).value = c.value := by rw [hc, c.content_value]
  unfold copyInfo at hr
  extract_lets d at hr
  rw [exec_bind, exec_putCell] at hr
  let s₁ := s.onSheet target.sheet fun x => x.setCell target.pos d
  -- The font is put first, which leaves the value as it was; then come the sizes, what the cell
  -- holds, and the block, which the template does not have.
  have hput : Still s s₁ := still_onSheet s _ (Sheet.tame_setCell target.pos d)
  have hthere : (s₁.book.find? target.sheet).isSome = true := Workbook.find?_setCell _ target hsheet
  have hcontent : s₁.book.content target = d.content := Workbook.content_setCell_self _ target hsheet
  change exec (do
    copySizes origin target withHeight
    h.copyHeld origin target d info
    copyBlock origin target
    FillM.addTarget origin target) s₁ = (res, t) at hr
  rcases hsizes : exec (copySizes origin target withHeight) s₁ with ⟨e, v⟩
  have hv : Still s v := trans_of Still hput ((still_copySizes _ _ _).apply hsizes)
  have hkept : v.book.content target = d.content :=
    ((confined_copySizes (R := Leaves (· = target)) (fun x => ¬ x = target) origin target
      withHeight).apply hsizes target rfl).trans hcontent
  rw [exec_bind, hsizes] at hr
  cases e with
  | error f =>
    cases hr
    refine .inr ⟨⟨f, rfl⟩, hv, .inr ⟨⟨f, rfl⟩, ?_⟩⟩
    rw [hkept, hvalue, d.content_value]
  | ok a =>
    dsimp only at hr
    rcases hheld : exec (h.copyHeld origin target d info) v with ⟨e, w⟩
    have hw : Still s w := trans_of Still hv ((h.still_copyHeld _ _ _ _).apply hheld)
    rw [exec_bind, hheld] at hr
    cases e with
    | error f =>
      cases hr
      have hfind : (v.book.find? target.sheet).isSome = true := by
        rwa [Workbook.find?_isSome_iff hv.titles]
      refine .inr ⟨⟨f, rfl⟩, hw, ?_⟩
      rcases copyHeld_error hfind (by rw [hkept, d.content_value]) hheld with hblank | hsame
      · exact .inl hblank
      · exact .inr ⟨⟨f, rfl⟩, hsame.trans hvalue.symm⟩
    | ok a =>
      dsimp only at hr
      have hbare := (hs.mono hw).template origin.sheet
      rw [exec_bind, copyBlock_unmerged target hbare] at hr
      cases hr
      exact .inl ⟨rfl, w, hw, rfl⟩

theorem copyNothing_blank (hsheet : (s.book.find? target.sheet).isSome = true)
    (hc : s.book.content target = c.content) (hr : exec (copyNothing target c) s = (res, t)) :
    Still s t ∧ t.Blank target := by
  unfold copyNothing at hr
  split at hr
  · next hnull =>
    cases hr
    refine ⟨refl_of Still s, ?_⟩
    rw [Blank, hc, c.content_value, hnull]
  · cases hr
    refine ⟨still_onSheet s _ (Sheet.tame_setCell _ _), ?_⟩
    exact congrArg Content.value (Workbook.content_setCell_self s.book target hsheet)

theorem copy_cases (hs : s.Seamless) (hr : exec (h.copy origin target withHeight) s = (res, t)) :
    (s.Copyable origin target ∧ res = .ok () ∧
      ∃ u, Still s u ∧ t = note origin (fun x => x.addTarget target) u) ∨
        ¬ (s.Copyable origin target ∧ res = .ok ()) ∧ Still s t ∧ Vain target res s t := by
  by_cases hreach : s.Reaches target
  · obtain ⟨c, u, hcopied, hu, hsame, hcontent⟩ :=
      opening_reached (w := .copy origin target) (r := target) hs rfl hreach hr
    have hfind : (u.book.find? target.sheet).isSome = true := by
      rw [Workbook.find?_isSome_iff hu.titles, ← sheet?_of_deleted hs.deleted]
      exact hreach.sheet
    rw [exec_bind, exec_get] at hcopied
    dsimp only at hcopied
    rw [hu.template] at hcopied
    cases hinfo : s.template.cell? origin with
    | none =>
      rw [hinfo] at hcopied
      obtain ⟨ht, hblank⟩ := copyNothing_blank hfind hcontent hcopied
      refine .inr ⟨fun hboth => ?_, trans_of Still hu ht, .inl hblank⟩
      have horigin := hboth.1.origin
      rw [hinfo] at horigin
      cases horigin
    | some info =>
      rw [hinfo] at hcopied
      rcases copyInfo_cases (hs.mono hu) hfind hcontent hcopied with
        ⟨rfl, v, hv, rfl⟩ | ⟨⟨f, rfl⟩, ht, hvain⟩
      · exact .inl ⟨⟨hinfo ▸ rfl, hreach.sheet⟩, rfl, v, trans_of Still hu hv, rfl⟩
      · refine .inr ⟨fun hboth => ?_, trans_of Still hu ht, hvain.of_content hsame⟩
        cases hboth.2
  · obtain ⟨ht, hvain, hmissing⟩ :=
      opening_astray (w := .copy origin target) (r := target) hs rfl hreach hr
    refine .inr ⟨fun hboth => ?_, ht, hvain⟩
    have hsheet := hboth.1.sheet
    rw [hmissing hboth.2] at hsheet
    cases hsheet

end FillHost

end SheetTemplate
