import SheetTemplate.Proofs.Fill.Depositing
import SheetTemplate.Proofs.Fill.Rendering

namespace SheetTemplate

open FillM FillState

/-- What a copy of a template cell to a target on a sheet leads to. -/
structure FillHost.Lays (h : FillHost) (origin target : CellRef) (s t : FillState) : Prop where
  shown : ∀ info, s.template.cell? origin = some info → (s.sheet? target.sheet).isSome = true →
    ¬ s.book.Covers target → ∃ out,
      (h.render s.meaning info).run s.streams = (.ok out, t.streams) ∧
        t.book.content target = out.shown
  noted : ∀ info, s.template.cell? origin = some info → (s.sheet? target.sheet).isSome = true →
    ¬ s.book.Covers target →
      t.history.targets origin = s.history.targets origin ++ [target]
  covered : (s.sheet? target.sheet).isSome = true → s.book.Covers target →
    t = { s with journal := .copy origin target :: s.journal }

namespace Workbook

theorem modify_id {w : Workbook} {title : String} {f : Sheet → Sheet} {x : Sheet}
    (hx : w.find? title = some x) (hf : f x = x) : w.modify title f = w := by
  have hsame : ∀ sheets, modify.change title id sheets = sheets := by
    intro sheets
    induction sheets with
    | nil => rfl
    | cons y rest ih =>
      rw [modify.change, ih]
      split <;> rfl
  rw [w.modify_congr (g := id) hx hf, modify, hsame]

end Workbook

namespace FillM

variable {s t : FillState} {r : CellRef}

theorem covered_touch {x : Sheet} (hx : s.book.find? r.sheet = some x)
    (hcovers : s.book.Covers r) : x.touch r.pos = x ∧ (x.touch r.pos).cell? r.pos = none := by
  rw [Workbook.Covers, Workbook.slot?_of_find? _ hx] at hcovers
  have hsame : x.touch r.pos = x := by
    rw [Sheet.touch, if_pos]
    rw [Std.TreeMap.contains_eq_isSome_getElem?, hcovers]
    rfl
  rw [hsame]
  refine ⟨rfl, ?_⟩
  rw [Sheet.cell?, hcovers]
  rfl

theorem open?_covered {c? : Option Cell} (hsheet : (s.sheet? r.sheet).isSome = true)
    (hcovers : s.book.Covers r) (hr : exec (open? r) s = (.ok c?, t)) : c? = none ∧ t = s := by
  rcases open?_eq_ok hr with ⟨_, hnone, -⟩ | ⟨x, hx, -, rfl, rfl⟩
  · rw [hnone] at hsheet
    cases hsheet
  · have hfind := (sheet?_eq_some hx).2
    obtain ⟨htouch, hcell⟩ := covered_touch hfind hcovers
    refine ⟨hcell, ?_⟩
    rw [FillState.onSheet, Workbook.modify_id hfind htouch]

end FillM

namespace FillHost

variable {h : FillHost} {s t : FillState} {origin target : CellRef} {c : Cell} {info : CellInfo}

structure Puts (target : CellRef) (out : Rendered) (s t : FillState) : Prop where
  content : t.book.content target = out.shown
  targets : ∀ x, t.history.targets x = s.history.targets x

theorem targets_modify {f : Copies → Copies} (hf : ∀ c, (f c).targets = c.targets) (s : FillState)
    (x : CellRef) : (s.history.modify origin f).targets x = s.history.targets x := by
  simp only [History.targets, History.of_modify]
  split
  · next hx => rw [hx, hf]
  · rfl

theorem copyText_puts {text : String} (hsheet : (s.book.find? target.sheet).isSome = true)
    (htext : h.expressionText? info.value = some text)
    (hr : exec (h.copyValue origin target c info) s = (.ok (), t)) :
    ∃ out, (h.renderValue s.meaning info).run s.streams = (.ok out, t.streams) ∧
      Puts target out s t := by
  rw [copyValue, htext] at hr
  obtain ⟨v, u, heval, hr⟩ := bind_eq_ok.1 hr
  obtain ⟨_, w, hnote, hr⟩ := bind_eq_ok.1 hr
  cases hnote
  obtain ⟨d, hput⟩ := discard_eq_ok hr
  obtain ⟨hd, rfl⟩ := putOr_eq_ok hput
  obtain ⟨e, he, hcontent⟩ := exists_of_content
    ((Cell.write?_content {} c v).trans (congrArg (Option.map Cell.content) hd))
  have hevaluated := evaluated_atCell heval
  have heval := evaluateText_eq_ok (mapFailure_eq_ok.1 heval)
  rw [Evaluated] at hevaluated
  refine ⟨.content e.content, ?_, ?_, ?_⟩
  · simp only [renderValue, htext]
    exact EvalM.bind_eq_ok.2 ⟨v, u.streams, heval, by rw [he]; rfl⟩
  · rw [Rendered.shown, hcontent]
    refine Workbook.content_setCell_self _ target ?_
    rw [hevaluated]
    exact hsheet
  · intro x
    rw [hevaluated]
    exact targets_modify (f := fun y => { y with result := v }) (fun _ => rfl) s x

theorem copyPlain_puts (hsheet : (s.book.find? target.sheet).isSome = true)
    (htext : h.expressionText? info.value = none)
    (hr : exec (h.copyValue origin target c info) s = (.ok (), t)) :
    ∃ out, (h.renderValue s.meaning info).run s.streams = (.ok out, t.streams) ∧
      Puts target out s t := by
  rw [copyValue, htext] at hr
  obtain ⟨d, u, hput, hr⟩ := bind_eq_ok.1 hr
  obtain ⟨hd, rfl⟩ := putOr_eq_ok hput
  obtain ⟨e, he, hcontent⟩ := exists_of_content
    ((Cell.put?_content {} c info.value).trans (congrArg (Option.map Cell.content) hd))
  cases hlink : info.link?.filter fun url => !url.isEmpty with
  | none =>
    rw [hlink] at hr
    cases hr
    refine ⟨.content e.content, ?_, ?_, fun _ => rfl⟩
    · simp only [renderValue, htext, he, hlink]
      rfl
    · rw [Rendered.shown, hcontent]
      exact Workbook.content_setCell_self _ target hsheet
  | some url =>
    rw [hlink] at hr
    obtain ⟨d', hput'⟩ := discard_eq_ok hr
    obtain ⟨hd', rfl⟩ := putOr_eq_ok hput'
    obtain ⟨e', he', hcontent'⟩ := exists_of_content
      ((Cell.setLink?_content hcontent url).trans (congrArg (Option.map Cell.content) hd'))
    refine ⟨.content e'.content, ?_, ?_, fun _ => rfl⟩
    · simp only [renderValue, htext, he, hlink, Option.bind_some, he']
      rfl
    · rw [Rendered.shown, hcontent']
      exact Workbook.content_setCell_self _ target (Workbook.find?_setCell _ target hsheet)

theorem formulaFor_puts {formula text : String}
    (hr : exec (h.formulaFor origin target formula) s = (.ok text, t)) :
    (h.renderFormula s.meaning formula).run s.streams = (.ok text, t.streams) ∧ t.book = s.book ∧
      ∀ x, t.history.targets x = s.history.targets x := by
  unfold formulaFor at hr
  unfold renderFormula
  cases htext : h.expressionText? (.text formula) with
  | none =>
    simp only [htext] at hr
    cases hr
    exact ⟨rfl, rfl, fun _ => rfl⟩
  | some marked =>
    simp only [htext] at hr
    obtain ⟨v, u, heval, hr⟩ := bind_eq_ok.1 hr
    obtain ⟨_, w, hnote, hr⟩ := bind_eq_ok.1 hr
    cases hnote
    cases hr
    have hevaluated := evaluated_atCell heval
    have heval := evaluateText_eq_ok (mapFailure_eq_ok.1 heval)
    rw [Evaluated] at hevaluated
    refine ⟨EvalM.bind_eq_ok.2 ⟨v, u.streams, heval, rfl⟩, ?_, fun x => ?_⟩
    · rw [hevaluated]
    · rw [hevaluated]
      exact targets_modify (f := fun y => y.setFormula target v.shown) (fun _ => rfl) s x

theorem copyHeld_puts (hsheet : (s.book.find? target.sheet).isSome = true)
    (hr : exec (h.copyHeld origin target c info) s = (.ok (), t)) :
    ∃ out, (h.render s.meaning info).run s.streams = (.ok out, t.streams) ∧
      Puts target out s t := by
  unfold render
  rw [copyHeld] at hr
  cases hactive : info.activeFormula? with
  | none =>
    rw [hactive] at hr
    cases htext : h.expressionText? info.value with
    | some text => exact copyText_puts hsheet htext hr
    | none => exact copyPlain_puts hsheet htext hr
  | some formula =>
    rw [hactive] at hr
    obtain ⟨text, u, hformula, hr⟩ := bind_eq_ok.1 hr
    obtain ⟨hrendered, hbook, htargets⟩ := formulaFor_puts hformula
    obtain ⟨d, hput⟩ := discard_eq_ok hr
    obtain ⟨hd, rfl⟩ := putOr_eq_ok hput
    obtain ⟨held, hheld, rfl⟩ := Option.map_eq_some_iff.1 hd
    refine ⟨.formula text, ?_, ?_, htargets⟩
    · refine EvalM.bind_eq_ok.2 ⟨text, u.streams, hrendered, ?_⟩
      rw [hheld]
      rfl
    · rw [Rendered.shown, hheld]
      refine Workbook.content_setCell_self _ target ?_
      rwa [hbook]

theorem copyBlock_shown (hr : exec (copyBlock origin target) s = (.ok (), t)) :
    t.book.content target = s.book.content target ∧ t.history = s.history ∧
      t.streams = s.streams := by
  obtain ⟨_, u, hget, hr⟩ := bind_eq_ok.1 hr
  cases hget
  split at hr
  · split at hr
    · rcases merge_cases hr with ⟨habides, hbook, -⟩ | ⟨-, -, hmerged⟩
      · exact ⟨by rw [hbook], habides.history, habides.streams⟩
      · refine ⟨?_, hmerged.history, hmerged.streams⟩
        rw [Workbook.content_eq_face?, Workbook.content_eq_face?, hmerged.face, if_neg]
        exact fun hhidden => (Block.mem_hidden.1 hhidden.2).2 rfl
    · cases hr
      exact ⟨rfl, rfl, rfl⟩
  · cases hr
    exact ⟨rfl, rfl, rfl⟩

theorem copyInfo_eq_ok (hsheet : (s.book.find? target.sheet).isSome = true) {withHeight : Bool}
    (hr : exec (h.copyInfo origin target c info withHeight) s = (.ok (), t)) :
    ∃ d v w, (v.book.find? target.sheet).isSome = true ∧ v.meaning = s.meaning ∧
      v.streams = s.streams ∧ v.history = s.history ∧
      exec (h.copyHeld origin target d info) v = (.ok (), w) ∧
      t.book.content target = w.book.content target ∧ t.streams = w.streams ∧
      t.history = w.history.modify origin fun c => c.addTarget target := by
  unfold copyInfo at hr
  extract_lets d at hr
  obtain ⟨_, u, hput, hr⟩ := bind_eq_ok.1 hr
  rw [exec_putCell] at hput
  cases hput
  obtain ⟨_, v, hsizes, hr⟩ := bind_eq_ok.1 hr
  have hsized : Frames (fun _ => False) _ v :=
    (confined_copySizes (fun _ => False) origin target withHeight).apply hsizes
  have hthere : (v.book.find? target.sheet).isSome = true := by
    rw [Workbook.find?_isSome_iff hsized.titles]
    exact Workbook.find?_setCell _ target hsheet
  obtain ⟨_, w, hheld, hr⟩ := bind_eq_ok.1 hr
  obtain ⟨_, x, hblock, hr⟩ := bind_eq_ok.1 hr
  obtain ⟨hcontent, hhistory, hstreams⟩ := copyBlock_shown hblock
  cases hr
  have hnames : v.meaning = s.meaning :=
    congrArg (fun c : Context => c.keepView.view.find?) hsized.context
  exact ⟨d, v, w, hthere, hnames, hsized.streams, hsized.history, hheld, hcontent, hstreams,
    congrArg (History.modify · origin fun c => c.addTarget target) hhistory⟩

theorem copyInfo_lays (hsheet : (s.book.find? target.sheet).isSome = true) {withHeight : Bool}
    (hr : exec (h.copyInfo origin target c info withHeight) s = (.ok (), t)) :
    (∃ out, (h.render s.meaning info).run s.streams = (.ok out, t.streams) ∧
      t.book.content target = out.shown) ∧
      t.history.targets origin = s.history.targets origin ++ [target] := by
  obtain ⟨d, v, w, hthere, hnames, hstreams, hhistory, hheld, hcontent, hstreams', hnoted⟩ :=
    copyInfo_eq_ok hsheet hr
  obtain ⟨out, hrender, hputs⟩ := copyHeld_puts hthere hheld
  rw [hnames, hstreams, ← hstreams'] at hrender
  refine ⟨⟨out, hrender, hcontent.trans hputs.content⟩, ?_⟩
  rw [History.targets, hnoted, History.of_modify, if_pos rfl, Copies.addTarget]
  rw [show (w.history.of origin).targets = _ from hputs.targets origin, hhistory]

theorem copy_eq_ok {withHeight : Bool} (hinfo : s.template.cell? origin = some info)
    (hsheet : (s.sheet? target.sheet).isSome = true) (hcovers : ¬ s.book.Covers target)
    (hr : exec (h.copy origin target withHeight) s = (.ok (), t)) :
    ∃ c u, (u.book.find? target.sheet).isSome = true ∧ u.meaning = s.meaning ∧
      u.streams = s.streams ∧ u.history = s.history ∧
      exec (h.copyInfo origin target c info withHeight) u = (.ok (), t) := by
  obtain ⟨_, u, hrecord, hr⟩ := bind_eq_ok.1 hr
  cases hrecord
  obtain ⟨c?, v, hopen, hr⟩ := bind_eq_ok.1 hr
  obtain ⟨x, hx⟩ := Option.isSome_iff_exists.1 hsheet
  obtain ⟨-, rfl, rfl⟩ := open?_eq_ok_of_free
    (s := { s with journal := .copy origin target :: s.journal }) hx hcovers hopen
  obtain ⟨_, v, hget, hr⟩ := bind_eq_ok.1 hr
  cases hget
  dsimp only [FillState.onSheet] at hr
  rw [hinfo] at hr
  have hthere := find?_isSome_onSheet (fun x => x.touch_title target.pos) hsheet
  exact ⟨_, FillState.onSheet { s with journal := .copy origin target :: s.journal } target.sheet
    fun x => x.touch target.pos, hthere, rfl, rfl, rfl, hr⟩

theorem copy_lays {withHeight : Bool} (hr : exec (h.copy origin target withHeight) s = (.ok (), t)) :
    h.Lays origin target s t := by
  have hfree : ∀ info, s.template.cell? origin = some info →
      (s.sheet? target.sheet).isSome = true → ¬ s.book.Covers target →
      (∃ out, (h.render s.meaning info).run s.streams = (.ok out, t.streams) ∧
        t.book.content target = out.shown) ∧
      t.history.targets origin = s.history.targets origin ++ [target] := by
    intro info hinfo hsheet hcovers
    obtain ⟨c, u, hthere, hnames, hstreams, hhistory, hcopied⟩ := copy_eq_ok hinfo hsheet hcovers hr
    have hlays := copyInfo_lays hthere hcopied
    rwa [hnames, hstreams, History.targets, hhistory] at hlays
  refine ⟨fun info hinfo hsheet hcovers => (hfree info hinfo hsheet hcovers).1,
    fun info hinfo hsheet hcovers => (hfree info hinfo hsheet hcovers).2, fun hsheet hcovers => ?_⟩
  obtain ⟨_, u, hrecord, hr⟩ := bind_eq_ok.1 hr
  cases hrecord
  obtain ⟨c?, v, hopen, hr⟩ := bind_eq_ok.1 hr
  obtain ⟨rfl, rfl⟩ := open?_covered
    (s := { s with journal := .copy origin target :: s.journal }) hsheet hcovers hopen
  cases hr
  rfl

end FillHost

end SheetTemplate
