import SheetTemplate.Proofs.Fill.Meaning
import SheetTemplate.Proofs.Fill.Shown

namespace SheetTemplate

open FillM FillState

namespace EvalM

variable {α β : Type}

theorem bind_eq_ok {m : EvalM α} {f : α → EvalM β} {st st' : Streams} {b : β} :
    (m >>= f).run st = (.ok b, st') ↔
      ∃ a u, m.run st = (.ok a, u) ∧ (f a).run u = (.ok b, st') := by
  simp only [ExceptT.run, bind, ExceptT.bind, ExceptT.mk, StateT.bind]
  constructor
  · intro h
    rcases hm : m st with ⟨e | a, u⟩
    · rw [hm] at h
      cases h
    · rw [hm] at h
      exact ⟨a, u, rfl, h⟩
  · rintro ⟨a, u, hm, hf⟩
    rw [hm]
    exact hf

end EvalM

namespace Cell

theorem put?_content (c d : Cell) (v : Value) :
    (c.put? v).map content = (d.put? v).map content := by
  cases v <;> simp only [put?, Option.map_map, Option.map_some] <;> rfl

theorem content_value (c : Cell) : c.content.value = c.value := by
  unfold content
  split
  · next h => exact h.symm
  · rfl

theorem setLink?_of_ne_null {c : Cell} (h : c.value ≠ .null) (url : String) :
    c.setLink? url = some { c with link? := some url } := by
  unfold setLink?
  dsimp only
  split
  · next hnull => exact absurd hnull h
  · rfl

theorem setLink?_content {c d : Cell} (h : c.content = d.content) (url : String) :
    (c.setLink? url).map content = (d.setLink? url).map content := by
  have hvalue : c.value = d.value := by rw [← c.content_value, h, d.content_value]
  have hlinked : content { c with link? := some url } = content { d with link? := some url } := h
  by_cases hnull : c.value = .null
  · have hnull' : d.value = .null := hvalue ▸ hnull
    simp only [setLink?, hnull, hnull']
    split
    · rfl
    · exact put?_content _ _ _
  · rw [setLink?_of_ne_null hnull, setLink?_of_ne_null fun h => hnull (hvalue.trans h)]
    exact congrArg some hlinked

theorem write?_content (c d : Cell) (v : Value) :
    (c.write? v).map content = (d.write? v).map content := by
  unfold write?
  split
  · next url display _ =>
    have hput := put?_content c d (.text (Value.link url display).shown)
    generalize c.put? (.text (Value.link url display).shown) = x at hput
    generalize d.put? (.text (Value.link url display).shown) = y at hput
    cases x with
    | none => cases y with
      | none => rfl
      | some y => cases hput
    | some x => cases y with
      | none => cases hput
      | some y => exact setLink?_content (Option.some.inj hput) url
  · simp only [put?, Option.map_map]
    apply Option.map_congr
    intro held _
    simp only [Function.comp_apply]
    split <;> rfl
  · exact put?_content _ _ _

end Cell

inductive Rendered where
  | formula (text : String)
  | content (c : Content)

namespace Rendered

def shown : Rendered → Content
  | formula text =>
    match Cell.heldText? ("=" ++ text) with
    | some held => ⟨.text held, Cell.textType held⟩
    | none => {}
  | content c => c

end Rendered

namespace FillHost

variable (h : FillHost)

def hold : Option Cell → EvalM Rendered
  | some c => return .content c.content
  | none => throw (.library .illegalCharacter)

def renderFormula (names : Meaning) (formula : String) : EvalM String := do
  match h.expressionText? (.text formula) with
  | none => return formula
  | some text => return (← h.evaluator.evaluateText h.marks names text).shown

def renderValue (names : Meaning) (info : CellInfo) : EvalM Rendered := do
  match h.expressionText? info.value with
  | some text => hold (Cell.write? {} (← h.evaluator.evaluateText h.marks names text))
  | none =>
    hold ((Cell.put? {} info.value).bind fun c =>
      match info.link?.filter fun url => !url.isEmpty with
      | some url => c.setLink? url
      | none => some c)

def render (names : Meaning) (info : CellInfo) : EvalM Rendered := do
  match info.activeFormula? with
  | some formula =>
    let text ← h.renderFormula names formula
    match Cell.heldText? ("=" ++ text) with
    | some _ => return .formula text
    | none => throw (.library .illegalCharacter)
  | none => h.renderValue names info

end FillHost

def formulaOf (T : Template) (history : History) (origin target : CellRef) : Option String :=
  ((history.of origin).formulas.lookup target).or ((T.cell? origin).bind (·.formula?))

namespace FillM

variable {s t : FillState} {r : CellRef} {old c : Cell}

theorem exec_putOr (s : FillState) (r : CellRef) (old c : Cell) :
    exec (putOr r old (some c)) s = (.ok c, s.onSheet r.sheet fun s => s.setCell r.pos c) := rfl

theorem exec_discard_putOr (s : FillState) (r : CellRef) (old c : Cell) :
    exec (discard (putOr r old (some c))) s =
      (.ok (), s.onSheet r.sheet fun s => s.setCell r.pos c) := rfl

theorem exec_evaluateText (h : FillHost) {text : String} {v : Value} {st : Streams}
    (hs : s.context.Sound)
    (heval : (h.evaluator.evaluateText h.marks s.context.get? text).run s.streams = (.ok v, st)) :
    exec (h.evaluateText text) s =
      (.ok v, { s with context := s.context.keepView, streams := st }) := by
  rw [FillHost.evaluateText, exec_bind, exec_names hs]
  simp only
  rw [exec_eval, heval]

theorem exec_atCell {α : Type} {m : FillM α} {a : α} (h : exec m s = (.ok a, t)) (r : CellRef) :
    exec (FillHost.atCell r m) s = (.ok a, t) := mapFailure_eq_ok.2 h

end FillM

structure FillState.Rendering (T : Template) (origin target : CellRef) (out : Rendered)
    (st : Streams) (s t : FillState) : Prop where
  content : ∀ x, t.book.content x = if x = target then out.shown else s.book.content x
  streams : t.streams = st
  context : t.context = s.context ∨ t.context = s.context.keepView
  targets : ∀ x, t.history.targets x = s.history.targets x
  formula : ∀ text, out = .formula text → formulaOf T t.history origin target = some text
  lookups : ∀ x y, y ≠ target →
    (t.history.of x).formulas.lookup y = (s.history.of x).formulas.lookup y

namespace FillHost

variable {h : FillHost} {T : Template} {origin target : CellRef} {c : Cell} {info : CellInfo}
  {out : Rendered} {st st' : Streams} {s : FillState}

theorem hold_eq_ok {c? : Option Cell} (hr : (hold c?).run st = (.ok out, st')) :
    ∃ d, c? = some d ∧ out = .content d.content ∧ st' = st := by
  cases c? with
  | none => cases hr
  | some d =>
    cases hr
    exact ⟨d, rfl, rfl, rfl⟩

theorem exists_of_content {c? : Option Cell} {d : Cell}
    (hcontent : c?.map Cell.content = (some d).map Cell.content) :
    ∃ e, c? = some e ∧ e.content = d.content := by
  cases c? with
  | none => cases hcontent
  | some e => exact ⟨e, rfl, Option.some.inj hcontent⟩

theorem copyText_renders {text : String} (hs : s.context.Sound)
    (hsheet : (s.book.find? target.sheet).isSome = true)
    (htext : h.expressionText? info.value = some text)
    (hrender : (h.renderValue s.context.get? info).run s.streams = (.ok out, st)) :
    ∃ t, exec (h.copyValue origin target c info) s = (.ok (), t) ∧
      s.Rendering T origin target out st t := by
  unfold renderValue at hrender
  unfold copyValue
  simp only [htext] at hrender ⊢
  obtain ⟨v, u, heval, hhold⟩ := EvalM.bind_eq_ok.1 hrender
  obtain ⟨d, hwrite, rfl, rfl⟩ := hold_eq_ok hhold
  obtain ⟨e, he, hcontent⟩ := exists_of_content
    ((Cell.write?_content c {} v).trans (congrArg (Option.map Cell.content) hwrite))
  have hevaluate := exec_atCell (exec_evaluateText h hs heval) origin
  simp only [exec_bind, hevaluate, exec_modify, he, exec_discard_putOr]
  refine ⟨_, rfl, fun x => ?_, rfl, .inr rfl, fun x => ?_, fun _ h => Rendered.noConfusion h, fun x y _ => ?_⟩
  · rw [Rendered.shown, ← hcontent]
    exact Workbook.content_setCell _ target x hsheet
  · simp only [FillState.onSheet, History.targets, History.of_modify]
    split
    · next hx => rw [hx]
    · rfl
  · simp only [FillState.onSheet, History.of_modify]
    split
    · next hx => rw [hx]
    · rfl

theorem copyPlain_renders (hsheet : (s.book.find? target.sheet).isSome = true)
    (htext : h.expressionText? info.value = none)
    (hrender : (h.renderValue s.context.get? info).run s.streams = (.ok out, st)) :
    ∃ t, exec (h.copyValue origin target c info) s = (.ok (), t) ∧
      s.Rendering T origin target out st t := by
  unfold renderValue at hrender
  unfold copyValue
  simp only [htext] at hrender ⊢
  obtain ⟨d, hput, rfl, rfl⟩ := hold_eq_ok hrender
  obtain ⟨x, hx, hd⟩ := Option.bind_eq_some_iff.1 hput
  obtain ⟨y, hy, hxy⟩ := exists_of_content
    ((Cell.put?_content c {} info.value).trans (congrArg (Option.map Cell.content) hx))
  simp only [exec_bind, hy, exec_putOr]
  cases hlink : info.link?.filter fun url => !url.isEmpty with
  | none =>
    rw [hlink] at hd
    cases hd
    refine ⟨_, rfl, fun x => ?_, rfl, .inl rfl, fun _ => rfl, fun _ h => Rendered.noConfusion h, fun _ _ _ => rfl⟩
    rw [Rendered.shown, ← hxy]
    exact Workbook.content_setCell _ target x hsheet
  | some url =>
    rw [hlink] at hd
    obtain ⟨z, hz, hcontent⟩ := exists_of_content
      ((Cell.setLink?_content hxy url).trans (congrArg (Option.map Cell.content) hd))
    simp only [hz, exec_discard_putOr]
    refine ⟨_, rfl, fun x => ?_, rfl, .inl rfl, fun _ => rfl, fun _ h => Rendered.noConfusion h, fun _ _ _ => rfl⟩
    have hfirst := Workbook.content_setCell s.book target x (c := y) hsheet
    have hfind := Workbook.find?_setCell s.book target (c := y) hsheet
    have hsecond := Workbook.content_setCell _ target x (c := z) hfind
    rw [hfirst] at hsecond
    rw [Rendered.shown, ← hcontent]
    apply hsecond.trans
    split <;> rfl

theorem copyValue_renders (hs : s.context.Sound)
    (hsheet : (s.book.find? target.sheet).isSome = true)
    (hrender : (h.renderValue s.context.get? info).run s.streams = (.ok out, st)) :
    ∃ t, exec (h.copyValue origin target c info) s = (.ok (), t) ∧
      s.Rendering T origin target out st t := by
  cases htext : h.expressionText? info.value with
  | some text => exact copyText_renders hs hsheet htext hrender
  | none => exact copyPlain_renders hsheet htext hrender

theorem formulaFor_renders {formula text : String} (hs : s.context.Sound)
    (hinfo : T.cell? origin = some info) (hactive : info.activeFormula? = some formula)
    (hlookup : (s.history.of origin).formulas.lookup target = none)
    (hrender : (h.renderFormula s.context.get? formula).run s.streams = (.ok text, st)) :
    ∃ t, exec (h.formulaFor origin target formula) s = (.ok text, t) ∧ t.book = s.book ∧
      t.streams = st ∧ (t.context = s.context ∨ t.context = s.context.keepView) ∧
      (∀ x, t.history.targets x = s.history.targets x) ∧
      formulaOf T t.history origin target = some text ∧
      ∀ x y, y ≠ target → (t.history.of x).formulas.lookup y = (s.history.of x).formulas.lookup y := by
  unfold renderFormula at hrender
  unfold formulaFor
  cases htext : h.expressionText? (.text formula) with
  | none =>
    simp only [htext] at hrender
    cases hrender
    refine ⟨s, rfl, rfl, rfl, .inl rfl, fun _ => rfl, ?_, fun _ _ _ => rfl⟩
    rw [formulaOf, hlookup, hinfo]
    exact (Option.filter_eq_some_iff.1 hactive).1
  | some marked =>
    simp only [htext] at hrender
    obtain ⟨v, u, heval, hshown⟩ := EvalM.bind_eq_ok.1 hrender
    cases hshown
    have hevaluate := exec_atCell (exec_evaluateText h hs heval) origin
    simp only [exec_bind, hevaluate, exec_modify, exec_pure]
    refine ⟨_, rfl, rfl, rfl, .inr rfl, fun x => ?_, ?_, fun x y hy => ?_⟩
    · simp only [History.targets, History.of_modify]
      split
      · next hx => rw [hx, Copies.setFormula]
      · rfl
    · rw [formulaOf, History.of_modify, if_pos rfl, lookup_setFormula, if_pos rfl]
      rfl
    · simp only [History.of_modify]
      split
      · next hx => rw [hx, lookup_setFormula, if_neg hy]
      · rfl

theorem copyHeld_renders (hs : s.context.Sound)
    (hsheet : (s.book.find? target.sheet).isSome = true) (hinfo : T.cell? origin = some info)
    (hlookup : (s.history.of origin).formulas.lookup target = none)
    (hrender : (h.render s.context.get? info).run s.streams = (.ok out, st)) :
    ∃ t, exec (h.copyHeld origin target c info) s = (.ok (), t) ∧
      s.Rendering T origin target out st t := by
  unfold render at hrender
  unfold copyHeld
  cases hactive : info.activeFormula? with
  | none =>
    simp only [hactive] at hrender
    exact copyValue_renders hs hsheet hrender
  | some formula =>
    simp only [hactive] at hrender
    obtain ⟨text, u, hformula, hheld⟩ := EvalM.bind_eq_ok.1 hrender
    obtain ⟨t, hfor, hbook, hstreams, hcontext, htargets, hnoted, hlookups⟩ :=
      formulaFor_renders hs hinfo hactive hlookup hformula
    cases hheld' : Cell.heldText? ("=" ++ text) with
    | none =>
      rw [hheld'] at hheld
      cases hheld
    | some held =>
      rw [hheld'] at hheld
      cases hheld
      have hput : c.put? (.text ("=" ++ text)) =
          some { c with value := .text held, type := Cell.textType held } := by
        rw [Cell.put?, hheld']
        rfl
      rw [← hbook] at hsheet
      simp only [copyFormula, exec_bind, hfor, hput, exec_discard_putOr]
      refine ⟨_, rfl, fun x => ?_, hstreams, hcontext, htargets, fun _ h => ?_, hlookups⟩
      · rw [Rendered.shown, hheld', ← hbook]
        exact Workbook.content_setCell _ target x hsheet
      · cases h
        exact hnoted

end FillHost

end SheetTemplate
