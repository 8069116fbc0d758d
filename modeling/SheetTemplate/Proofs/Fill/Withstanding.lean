import SheetTemplate.Command.Run
import SheetTemplate.Proofs.Fill.Preserving

namespace SheetTemplate

open FillM FillState

theorem FillHost.expressionText?_eq_some {h : FillHost} {v : Value} {text : String}
    (ht : h.expressionText? v = some text) : v = .text text := by
  unfold FillHost.expressionText? at ht
  split at ht
  · split at ht
    · cases ht
      rfl
    · cases ht
  · cases ht

/-- A change of a sheet in `T` keeps `I`, and so does what is noted aside; `F` allows what such a
change fails with. -/
structure Withstands (T : String → Prop) (I : FillState → Prop) (F : Failure → Prop) : Prop where
  sheet : ∀ s title f, T title → (∀ x, s.book.find? title = some x → (f x).title = x.title) → I s →
    I (s.onSheet title f)
  record : ∀ s (w : Write), T w.target.sheet → I s → I { s with journal := w :: s.journal }
  aside : ∀ s t, t = { s with
    history := t.history, written := t.written, log := t.log, nextImage := t.nextImage,
    ownImages := t.ownImages } → I s → I t
  library : ∀ kind, F (.library kind)
  column : ∀ n f, Column.name n = .error f → F f

namespace Withstands

variable {α : Type} {T : String → Prop} {I : FillState → Prop} {F : Failure → Prop}

section

variable (hw : Withstands T I F)

include hw

theorem log (level : LogLevel) (source text : String) : Preserves I F (log level source text) :=
  preserves_modify fun s hs => hw.aside s _ rfl hs

theorem name {r : CellRef} {f : Failure} (h : r.name = .error f) : F f := by
  rw [CellRef.name] at h
  cases hcol : Column.name r.col with
  | ok text =>
    rw [hcol] at h
    cases h
  | error e =>
    rw [hcol] at h
    cases h
    exact hw.column _ _ hcol

theorem onFound {title : String} {k : Option Sheet → FillM α} (hnone : Preserves I F (k none))
    (hsome : ∀ s x, I s → s.book.find? title = some x → Ends I F (exec (k (some x)) s)) :
    Preserves I F (FillM.sheet? title >>= k) := by
  intro s hs
  rw [exec_bind]
  cases hsheet : s.sheet? title with
  | none =>
    obtain ⟨log, hlog⟩ := exec_sheet?_none hsheet
    rw [hlog]
    exact hnone _ (hw.aside s _ rfl hs)
  | some x =>
    rw [exec_sheet? hsheet]
    exact hsome s x hs (sheet?_eq_some hsheet).2

theorem outputCell (r : CellRef) : Preserves I F (outputCell r) := by
  refine hw.onFound (preserves_pure _) fun s x hs _ => ?_
  dsimp only
  split
  · exact ends_ok hs
  · exact ends_ok hs

theorem onSheet {title : String} (ht : T title) {f : Sheet → Sheet}
    (hf : ∀ x, (f x).title = x.title) : Preserves I F (onSheet title f) :=
  preserves_modify fun s hs => hw.sheet s title f ht (fun x _ => hf x) hs

section

variable {r : CellRef} (ht : T r.sheet)

include ht

theorem putCell (c : Cell) : Preserves I F (putCell r c) := hw.onSheet ht fun _ => rfl

theorem putOr (old : Cell) (c? : Option Cell) : Preserves I F (putOr r old c?) := by
  cases c? with
  | some c => exact (hw.putCell ht c).bind fun _ => preserves_pure _
  | none => exact (hw.putCell ht _).bind fun _ => preserves_throw (hw.library _)

theorem open? : Preserves I F (open? r) := by
  refine hw.onFound (preserves_pure _) fun s x hs hx => ?_
  dsimp only
  split
  · refine ends_ok (hw.sheet s r.sheet _ ht (fun y hy => ?_) hs)
    rw [hx] at hy
    cases hy
    exact x.touch_title r.pos
  · exact ends_error (hw.library _)

theorem setValue (v : Value) (font? : Option Font) : Preserves I F (setValue r v font?) := by
  refine Preserves.bind (preserves_modify fun s hs => hw.record s (.value r v) ht hs) fun _ => ?_
  refine (hw.open? ht).bind fun c? => ?_
  cases c? with
  | none => exact preserves_pure _
  | some c =>
    refine Preserves.bind (preserves_modify fun s hs => hw.aside s _ rfl hs) fun _ => ?_
    exact preserves_discard (hw.putOr ht _ _)

theorem setFormula (formula : String) : Preserves I F (setFormula r formula) := by
  refine Preserves.bind (preserves_modify fun s hs => hw.record s (.formula r formula) ht hs) fun _ => ?_
  refine (hw.open? ht).bind fun c? => ?_
  cases c? with
  | none => exact preserves_pure _
  | some c => exact preserves_discard (hw.putOr ht _ _)

theorem clearCell : Preserves I F (clearCell r) := by
  refine Preserves.bind (preserves_modify fun s hs => hw.record s (.clear r) ht hs) fun _ => ?_
  refine hw.onFound (preserves_pure _) fun s x hs _ => ?_
  dsimp only
  split
  · exact hw.putCell ht _ s hs
  · exact ends_ok hs

theorem addImage (v : Value) (scaleX scaleY : Float) :
    Preserves I F (addImage r v scaleX scaleY) := by
  refine hw.onFound (preserves_pure _) fun s x hs _ => ?_
  dsimp only
  split
  · refine Preserves.bind (preserves_ofExcept fun f hf => hw.name hf) (fun anchor => ?_) s hs
    refine preserves_get.bind fun s => Preserves.bind (hw.onSheet ht ?_) fun _ => ?_
    · exact fun _ => rfl
    · exact preserves_modify fun s hs => hw.aside s _ rfl hs
  · exact ends_error (hw.library _)

end

section

variable {title : String} (ht : T title)

include ht

theorem merge (b : Block) : Preserves I F (merge title b) := by
  refine hw.onFound (preserves_pure _) fun s x hs hx => ?_
  dsimp only
  split
  · next y hy =>
    refine ends_ok (hw.sheet s title _ ht (fun z hz => ?_) hs)
    rw [hx] at hz
    cases hz
    exact x.merge?_title hy
  · exact ends_error (hw.library _)

theorem unmergeAll (x : Sheet) (p : Block → Bool) : Preserves I F (unmergeAll title x p) := by
  refine preserves_forM fun b _ s hs => ?_
  rw [exec_bind, exec_get]
  dsimp only
  cases hfind : s.book.find? title with
  | none => exact ends_ok hs
  | some y =>
    have hmodify : Preserves I F (modify fun _ : FillState => s.onSheet title fun _ => (y.unmerge b).1) := by
      refine fun u _ => ends_ok (hw.sheet s title _ ht (fun z hz => ?_) hs)
      rw [hfind] at hz
      cases hz
      rfl
    have hrest : Preserves I F (do
        modify fun _ : FillState => s.onSheet title fun _ => (y.unmerge b).1
        if !(y.unmerge b).2 then throw (.library .key)) := by
      refine hmodify.bind fun _ => ?_
      split
      · exact preserves_throw (hw.library _)
      · exact preserves_pure _
    exact hrest s hs

theorem clearRowHeight (row : Int) : Preserves I F (clearRowHeight title row) := by
  refine hw.onFound (preserves_pure _) fun s x hs _ => ?_
  have hheight : Preserves I F (FillM.onSheet title fun x => x.clearHeight row) :=
    hw.onSheet ht fun _ => rfl
  exact hheight s hs

end

theorem clearArea {a : AreaRef} (ht : T a.sheet) : Preserves I F (clearArea a) := by
  refine hw.onFound (preserves_pure _) fun s x hs _ => ?_
  refine Preserves.bind (hw.unmergeAll ht x _) (fun _ => preserves_forM fun p _ => ?_) s hs
  exact hw.clearCell (r := .ofPos a.sheet p) ht

end

inductive Asks (info : CellInfo) : String → Prop where
  | value {text : String} : info.value = .text text → Asks info text
  | formula {text : String} : info.formula? = some text → Asks info text

section

variable {h : FillHost} (hw : Withstands T I F) {origin target : CellRef} (ht : T target.sheet)

include hw

theorem history (f : Copies → Copies) :
    Preserves I F (modify fun s => { s with history := s.history.modify origin f }) :=
  preserves_modify fun s hs => hw.aside s _ rfl hs

include ht

theorem copySizes (withHeight : Bool) : Preserves I F (FillHost.copySizes origin target withHeight) := by
  have hwidth : ∀ x, Preserves I F (FillHost.copyWidth origin target x) := by
    intro x
    unfold FillHost.copyWidth
    split
    · exact (preserves_ofExcept fun f hf => hw.column _ f hf).bind fun _ => hw.onSheet ht fun _ => rfl
    · exact preserves_pure _
  have hheight : ∀ x, Preserves I F (FillHost.copyHeight origin target x) := by
    intro x
    unfold FillHost.copyHeight
    split
    · exact hw.onSheet ht fun _ => rfl
    · exact preserves_pure _
  refine preserves_get.bind fun s => ?_
  split
  · exact preserves_pure _
  · refine (hwidth _).bind fun _ => ?_
    split
    · exact hheight _
    · exact preserves_pure _

theorem copyBlock : Preserves I F (FillHost.copyBlock origin target) := by
  refine preserves_get.bind fun s => ?_
  split
  · split
    · exact hw.merge ht _
    · exact preserves_pure _
  · exact preserves_pure _

theorem copyHeld (c : Cell) {info : CellInfo}
    (hask : ∀ text, Asks info text → Preserves I F (FillHost.atCell origin (h.evaluateText text))) :
    Preserves I F (h.copyHeld origin target c info) := by
  have hput := fun c c? => preserves_discard (hw.putOr ht c c?)
  unfold FillHost.copyHeld
  split
  · next formula hformula =>
    have hasked : Asks info formula := .formula (Option.filter_eq_some_iff.1 hformula).1
    refine Preserves.bind ?_ fun text => hput _ _
    unfold FillHost.formulaFor
    split
    · exact preserves_pure _
    · next text htext =>
      cases FillHost.expressionText?_eq_some htext
      exact (hask _ hasked).bind fun v => (hw.history _).bind fun _ => preserves_pure _
  · unfold FillHost.copyValue
    split
    · next text htext =>
      have hasked : Asks info text := .value (FillHost.expressionText?_eq_some htext)
      exact (hask _ hasked).bind fun v => (hw.history _).bind fun _ => hput _ _
    · refine (hw.putOr ht _ _).bind fun c => ?_
      split
      · exact hput _ _
      · exact preserves_pure _

theorem copy (hask : ∀ s, I s → ∀ info, s.template.cell? origin = some info → ∀ text,
      Asks info text → Preserves I F (FillHost.atCell origin (h.evaluateText text))) :
    Preserves I F (h.copy origin target true) := by
  refine Preserves.bind (preserves_modify fun s hs => hw.record s (.copy origin target) ht hs) fun _ => ?_
  refine (hw.open? ht).bind fun c? => ?_
  cases c? with
  | none => exact preserves_pure _
  | some c =>
    intro s hs
    rw [exec_bind, exec_get]
    dsimp only
    split
    · have hnothing : Preserves I F (FillHost.copyNothing target c) := by
        unfold FillHost.copyNothing
        split
        · exact preserves_pure _
        · exact hw.putCell ht _
      exact hnothing s hs
    · next info hinfo =>
      have hcopy : Preserves I F (h.copyInfo origin target c info true) := by
        refine (hw.putCell ht _).bind fun _ => (hw.copySizes ht _).bind fun _ => ?_
        refine (hw.copyHeld ht _ (hask s hs info hinfo)).bind fun _ => ?_
        exact (hw.copyBlock ht).bind fun _ => hw.history _
      exact hcopy s hs

theorem updateCell (hupdate : ∀ n info, Preserves I F (h.update n info target)) (id : Nat) :
    Preserves I F (Updater.updateCell h id target) := by
  refine (hw.outputCell target).bind fun before => (hupdate id before).bind fun after => ?_
  split
  · exact preserves_pure _
  · split
    · exact hw.setFormula ht _
    · exact hw.setValue ht _ _

end

end Withstands

end SheetTemplate
