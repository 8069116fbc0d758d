import SheetTemplate.Fill.Copy
import SheetTemplate.Proofs.Fill.Outcome
import SheetTemplate.Proofs.Workbook.Slots

namespace SheetTemplate

structure Sheet.Tame (f : Sheet → Sheet) : Prop where
  title : ∀ s, (f s).title = s.title
  merged : ∀ s, (f s).merged = s.merged
  covered : ∀ s (p : Pos), (f s).slots[p]? = some .covered → s.slots[p]? = some .covered

structure Sheet.Inert (f : Sheet → Sheet) : Prop where
  title : ∀ s, (f s).title = s.title
  slots : ∀ s, (f s).slots = s.slots
  merged : ∀ s, (f s).merged = s.merged
  images : ∀ s, (f s).images = s.images

namespace Sheet

theorem Inert.tame {f : Sheet → Sheet} (hf : Inert f) : Tame f :=
  ⟨hf.title, hf.merged, fun s p h => by rwa [hf.slots] at h⟩

theorem inert_setWidth (w : ColumnWidth) : Inert fun s => s.setWidth w :=
  ⟨fun _ => rfl, fun _ => rfl, fun _ => rfl, fun _ => rfl⟩

theorem inert_setHeight (h : RowHeight) : Inert fun s => s.setHeight h :=
  ⟨fun _ => rfl, fun _ => rfl, fun _ => rfl, fun _ => rfl⟩

theorem inert_clearHeight (row : Int) : Inert fun s => s.clearHeight row :=
  ⟨fun _ => rfl, fun _ => rfl, fun _ => rfl, fun _ => rfl⟩

theorem tame_of_slots {f : Sheet → Sheet} (htitle : ∀ s, (f s).title = s.title)
    (hmerged : ∀ s, (f s).merged = s.merged) (hslots : ∀ s, (f s).slots = s.slots) : Tame f :=
  ⟨htitle, hmerged, fun s p h => by rwa [hslots] at h⟩

theorem tame_setCell (p : Pos) (c : Cell) : Tame fun s => s.setCell p c := by
  refine ⟨fun _ => rfl, fun _ => rfl, fun s q h => ?_⟩
  rw [slot_setCell] at h
  split at h
  · cases h
  · exact h

theorem tame_touch (p : Pos) : Tame fun s => s.touch p :=
  ⟨fun s => s.touch_title p, fun s => s.touch_merged p, fun s q => (s.covered_touch p q).1⟩

end Sheet

namespace FillState

variable (s : FillState)

def sheet? (title : String) : Option Sheet :=
  if s.deleted.contains title then none else s.book.find? title

def onSheet (title : String) (f : Sheet → Sheet) : FillState :=
  { s with book := s.book.modify title f }

variable {s} {title : String} {sheet : Sheet}

theorem sheet?_eq_some (h : s.sheet? title = some sheet) :
    s.deleted.contains title = false ∧ s.book.find? title = some sheet := by
  rw [sheet?] at h
  split at h
  · cases h
  · next hd => exact ⟨by simpa using hd, h⟩

theorem sheet?_onSheet (h : s.sheet? title = some sheet) {f : Sheet → Sheet}
    (hf : ∀ s, (f s).title = s.title) : (s.onSheet title f).sheet? title = some (f sheet) := by
  obtain ⟨hdeleted, hfind⟩ := sheet?_eq_some h
  rw [sheet?, onSheet, hdeleted, if_neg Bool.false_ne_true, Workbook.find?_modify _ hf, if_pos rfl,
    hfind]
  rfl

end FillState

namespace FillM

variable {s t : FillState} {r : CellRef} {title : String} {sheet : Sheet}

theorem exec_onSheet (s : FillState) (title : String) (f : Sheet → Sheet) :
    exec (onSheet title f) s = (.ok (), s.onSheet title f) := rfl

theorem exec_putCell (s : FillState) (r : CellRef) (c : Cell) :
    exec (putCell r c) s = (.ok (), s.onSheet r.sheet fun s => s.setCell r.pos c) := rfl

theorem exec_sheet? (h : s.sheet? title = some sheet) :
    exec (FillM.sheet? title) s = (.ok (some sheet), s) := by
  obtain ⟨hdeleted, hfind⟩ := FillState.sheet?_eq_some h
  rw [FillM.sheet?, exec_bind, exec_get]
  simp only [hdeleted, hfind, Bool.false_eq_true, if_false]
  rfl

theorem exec_sheet?_none (h : s.sheet? title = none) :
    ∃ log, exec (FillM.sheet? title) s = (.ok none, { s with log := log }) := by
  rw [FillState.sheet?] at h
  rw [FillM.sheet?, exec_bind, exec_get]
  simp only
  split at h
  · next hd =>
    rw [if_pos hd]
    exact ⟨s.log, rfl⟩
  · next hd =>
    rw [if_neg hd, h]
    exact ⟨_, rfl⟩

theorem exec_open? (h : s.sheet? r.sheet = some sheet) (hr : Sheet.admits r.pos = true) :
    exec (open? r) s =
      (.ok ((sheet.touch r.pos).cell? r.pos), s.onSheet r.sheet fun s => s.touch r.pos) := by
  have hsame : s.book.modify r.sheet (fun _ => sheet.touch r.pos) =
      s.book.modify r.sheet fun s => s.touch r.pos :=
    s.book.modify_congr (FillState.sheet?_eq_some h).2 rfl
  rw [open?, exec_bind, exec_sheet? h]
  simp only [hr, if_true, exec_bind, exec_onSheet, FillState.onSheet, hsame]
  rfl

theorem open?_eq_ok {c? : Option Cell} (h : exec (open? r) s = (.ok c?, t)) :
    (∃ log, s.sheet? r.sheet = none ∧ c? = none ∧ t = { s with log := log }) ∨
      ∃ sheet, s.sheet? r.sheet = some sheet ∧ Sheet.admits r.pos = true ∧
        c? = (sheet.touch r.pos).cell? r.pos ∧ t = s.onSheet r.sheet fun s => s.touch r.pos := by
  cases hsheet : s.sheet? r.sheet with
  | none =>
    obtain ⟨log, hlog⟩ := exec_sheet?_none hsheet
    rw [open?, exec_bind, hlog] at h
    cases h
    exact .inl ⟨log, rfl, rfl, rfl⟩
  | some sheet =>
    cases hr : Sheet.admits r.pos with
    | true =>
      rw [exec_open? hsheet hr] at h
      cases h
      exact .inr ⟨sheet, rfl, rfl, rfl, rfl⟩
    | false =>
      rw [open?, exec_bind, exec_sheet? hsheet] at h
      simp only [hr] at h
      cases h

theorem free_of_not_covers (hsheet : s.sheet? r.sheet = some sheet) (hcovers : ¬ s.book.Covers r) :
    sheet.slots[r.pos]? ≠ some .covered := by
  rwa [Workbook.Covers, Workbook.slot?_of_find? _ (FillState.sheet?_eq_some hsheet).2] at hcovers

theorem open?_eq_ok_of_free {c? : Option Cell} (hsheet : s.sheet? r.sheet = some sheet)
    (hcovers : ¬ s.book.Covers r) (h : exec (open? r) s = (.ok c?, t)) :
    Sheet.admits r.pos = true ∧ c? = some ((sheet.cell? r.pos).getD {}) ∧
      t = s.onSheet r.sheet fun s => s.touch r.pos := by
  rcases open?_eq_ok h with ⟨_, hnone, -⟩ | ⟨sheet', hsome, hr, hc, ht⟩
  · rw [hsheet] at hnone
    cases hnone
  · rw [hsheet] at hsome
    cases hsome
    rw [Sheet.cell?_touch_of_free _ _ (free_of_not_covers hsheet hcovers)] at hc
    exact ⟨hr, hc, ht⟩

theorem putOr_eq_ok {old c : Cell} {c? : Option Cell}
    (h : exec (putOr r old c?) s = (.ok c, t)) :
    c? = some c ∧ t = s.onSheet r.sheet fun s => s.setCell r.pos c := by
  cases c? with
  | none =>
    rw [putOr, exec_bind, exec_putCell] at h
    cases h
  | some d =>
    rw [putOr, exec_bind, exec_putCell] at h
    cases h
    exact ⟨rfl, rfl⟩

theorem discard_eq_ok {α : Type} {m : FillM α} (h : exec (discard m) s = (.ok (), t)) :
    ∃ a, exec m s = (.ok a, t) := by
  obtain ⟨a, u, hm, hu⟩ := bind_eq_ok.1 h
  cases hu
  exact ⟨a, hm⟩

class Confined (P : CellRef → Prop) (R : FillState → FillState → Prop) : Prop
    extends IsPreorder FillState R where
  touch : ∀ s (r : CellRef), R s (s.onSheet r.sheet fun x => x.touch r.pos)
  cell : ∀ s (r : CellRef) c, P r → R s (s.onSheet r.sheet fun x => x.setCell r.pos c)
  inert : ∀ s title f, Sheet.Inert f → R s (s.onSheet title f)
  written : ∀ s x, R s { s with written := x }
  log : ∀ s x, R s { s with log := x }

class Storable (R : FillState → FillState → Prop) : Prop extends IsPreorder FillState R where
  sheet : ∀ s title f, Sheet.Tame f → R s (s.onSheet title f)
  written : ∀ s x, R s { s with written := x }
  images : ∀ s n x, R s { s with nextImage := n, ownImages := x }
  log : ∀ s x, R s { s with log := x }

class Writable (R : FillState → FillState → Prop) : Prop extends Storable R where
  context : ∀ s x, R s { s with context := x }
  streams : ∀ s x, R s { s with streams := x }

def Evaluated (s t : FillState) : Prop := t = { s with context := t.context, streams := t.streams }

instance : IsPreorder FillState Evaluated where
  refl _ := rfl
  trans s t u := by
    intro hst htu
    rw [Evaluated] at *
    rw [htu, hst]

theorem Evaluated.lift {R : FillState → FillState → Prop} [Writable R] {s t : FillState}
    (h : Evaluated s t) : R s t := by
  rw [h]
  exact trans_of R (Writable.context s t.context) (Writable.streams _ t.streams)

theorem leads_onContext (f : Context → Context) : Leads Evaluated (onContext f) :=
  leads_modify fun _ => rfl

theorem leads_names : Leads Evaluated names :=
  (leads_onContext _).bind fun _ => leads_get.bind fun _ => leads_pure _

theorem leads_evaluated_eval {α : Type} (m : EvalM α) : Leads Evaluated (eval m) :=
  leads_eval m fun _ _ => rfl

end FillM

open FillM

namespace FillHost

variable (h : FillHost)

theorem leads_evaluate (text : String) : Leads Evaluated (h.evaluate text) :=
  leads_names.bind fun _ => leads_evaluated_eval _

theorem leads_isTrue (condition : String) : Leads Evaluated (h.isTrue condition) :=
  leads_names.bind fun _ => leads_evaluated_eval _

theorem leads_evaluateText (text : String) : Leads Evaluated (h.evaluateText text) :=
  leads_names.bind fun _ => leads_evaluated_eval _

end FillHost

namespace FillM

variable {R : FillState → FillState → Prop}

theorem Leads.lift [Writable R] {α : Type} {m : FillM α} (hm : Leads Evaluated m) : Leads R m :=
  hm.mono fun _ _ => Evaluated.lift

section Confined

variable (P : CellRef → Prop) [Confined P R]

include P

theorem confined_log (level : LogLevel) (source text : String) : Leads R (log level source text) :=
  leads_modify fun s => Confined.log P s _

theorem confined_sheet? (title : String) : Leads R (sheet? title) := by
  have : IsPreorder FillState R := Confined.toIsPreorder P
  unfold sheet?
  refine leads_get.bind fun s => ?_
  split
  · exact leads_pure _
  · split
    · exact leads_pure _
    · exact (confined_log P _ _ _).bind fun _ => leads_pure _

theorem confined_open? (r : CellRef) : Leads R (open? r) := by
  have : IsPreorder FillState R := Confined.toIsPreorder P
  intro s
  cases hsheet : s.sheet? r.sheet with
  | none =>
    obtain ⟨log, hlog⟩ := exec_sheet?_none hsheet
    rw [open?, exec_bind, hlog]
    exact Confined.log P s log
  | some sheet =>
    cases hr : Sheet.admits r.pos with
    | true =>
      rw [exec_open? hsheet hr]
      exact Confined.touch P s r
    | false =>
      rw [open?, exec_bind, exec_sheet? hsheet]
      simp only [hr]
      exact refl_of R s

theorem confined_outputCell (r : CellRef) : Leads R (outputCell r) := by
  have : IsPreorder FillState R := Confined.toIsPreorder P
  unfold outputCell
  refine (confined_sheet? P _).bind fun s? => ?_
  cases s? with
  | none => exact leads_pure _
  | some s =>
    dsimp only
    split <;> exact leads_pure _

theorem confined_clearRowHeight (title : String) (row : Int) :
    Leads R (clearRowHeight title row) := by
  have : IsPreorder FillState R := Confined.toIsPreorder P
  unfold clearRowHeight
  refine (confined_sheet? P _).bind fun s? => ?_
  cases s? with
  | none => exact leads_pure _
  | some s => exact leads_modify fun s => Confined.inert P s _ _ (Sheet.inert_clearHeight _)

variable {P} {r : CellRef} (hr : P r)

include hr

theorem confined_putCell (c : Cell) : Leads R (putCell r c) :=
  leads_modify fun s => Confined.cell s r c hr

theorem confined_putOr (old : Cell) (c? : Option Cell) : Leads R (putOr r old c?) := by
  have : IsPreorder FillState R := Confined.toIsPreorder P
  cases c? with
  | none => exact (confined_putCell hr _).bind fun _ => leads_throw _
  | some c => exact (confined_putCell hr c).bind fun _ => leads_pure _

theorem confined_setValue (v : Value) (font? : Option Font)
    (hj : ∀ s : FillState, R s { s with journal := .value r v :: s.journal }) :
    Leads R (setValue r v font?) := by
  have : IsPreorder FillState R := Confined.toIsPreorder P
  refine (leads_modify hj).bind fun _ => (confined_open? P r).bind fun c? => ?_
  cases c? with
  | none => exact leads_pure _
  | some c =>
    refine (leads_modify fun s => Confined.written P s _).bind fun _ => ?_
    exact (confined_putOr hr _ _).bind fun _ => leads_pure _

theorem confined_setFormula (formula : String)
    (hj : ∀ s : FillState, R s { s with journal := .formula r formula :: s.journal }) :
    Leads R (setFormula r formula) := by
  have : IsPreorder FillState R := Confined.toIsPreorder P
  refine (leads_modify hj).bind fun _ => (confined_open? P r).bind fun c? => ?_
  cases c? with
  | none => exact leads_pure _
  | some c => exact (confined_putOr hr _ _).bind fun _ => leads_pure _

theorem confined_clearCell
    (hj : ∀ s : FillState, R s { s with journal := .clear r :: s.journal }) :
    Leads R (clearCell r) := by
  have : IsPreorder FillState R := Confined.toIsPreorder P
  refine (leads_modify hj).bind fun _ => (confined_sheet? P _).bind fun s? => ?_
  cases s? with
  | none => exact leads_pure _
  | some s =>
    dsimp only
    split
    · exact confined_putCell hr _
    · exact leads_pure _

end Confined

instance [Storable R] : Confined (fun _ => True) R where
  touch s _ := Storable.sheet s _ _ (Sheet.tame_touch _)
  cell s _ _ _ := Storable.sheet s _ _ (Sheet.tame_setCell _ _)
  inert s _ _ hf := Storable.sheet s _ _ hf.tame
  written := Storable.written
  log := Storable.log

instance [Confined (fun _ => True) R] : IsPreorder FillState R := Confined.toIsPreorder fun _ => True

theorem leads_onSheet [Storable R] (title : String) {f : Sheet → Sheet} (hf : Sheet.Tame f) :
    Leads R (onSheet title f) :=
  leads_modify fun s => Storable.sheet s title f hf

theorem leads_addImage [Storable R] (r : CellRef) (v : Value) (scaleX scaleY : Float) :
    Leads R (addImage r v scaleX scaleY) := by
  unfold addImage
  refine (confined_sheet? (fun _ => True) _).bind fun s? => ?_
  cases s? with
  | none => exact leads_pure _
  | some s =>
    dsimp only
    split
    · refine (leads_ofExcept _).bind fun anchor => leads_get.bind fun t => ?_
      refine Leads.bind ?_ fun _ => leads_modify fun u => Storable.images u _ _
      exact leads_onSheet _ (Sheet.tame_of_slots (fun _ => rfl) (fun _ => rfl) fun _ => rfl)
    · exact leads_throw _

variable [Confined (fun _ => True) R]

theorem leads_log (level : LogLevel) (source text : String) : Leads R (log level source text) :=
  confined_log (fun _ => True) _ _ _

theorem leads_sheet? (title : String) : Leads R (sheet? title) := confined_sheet? (fun _ => True) _

theorem leads_putCell (r : CellRef) (c : Cell) : Leads R (putCell r c) :=
  confined_putCell (P := fun _ => True) trivial c

theorem leads_putOr (r : CellRef) (old : Cell) (c? : Option Cell) : Leads R (putOr r old c?) :=
  confined_putOr (P := fun _ => True) trivial old c?

theorem leads_open? (r : CellRef) : Leads R (open? r) := confined_open? (fun _ => True) r

theorem leads_outputCell (r : CellRef) : Leads R (outputCell r) :=
  confined_outputCell (fun _ => True) r

theorem leads_clearRowHeight (title : String) (row : Int) : Leads R (clearRowHeight title row) :=
  confined_clearRowHeight (fun _ => True) title row

theorem leads_setValue (r : CellRef) (v : Value) (font? : Option Font)
    (hj : ∀ s : FillState, R s { s with journal := .value r v :: s.journal }) :
    Leads R (setValue r v font?) :=
  confined_setValue (P := fun _ => True) trivial v font? hj

theorem leads_setFormula (r : CellRef) (formula : String)
    (hj : ∀ s : FillState, R s { s with journal := .formula r formula :: s.journal }) :
    Leads R (setFormula r formula) :=
  confined_setFormula (P := fun _ => True) trivial formula hj

theorem leads_clearCell (r : CellRef)
    (hj : ∀ s : FillState, R s { s with journal := .clear r :: s.journal }) :
    Leads R (clearCell r) :=
  confined_clearCell (P := fun _ => True) trivial hj

theorem leads_merge (hbook : ∀ s x, R s { s with book := x }) (title : String) (b : Block) :
    Leads R (merge title b) := by
  unfold merge
  refine (leads_sheet? _).bind fun s? => ?_
  cases s? with
  | none => exact leads_pure _
  | some s =>
    dsimp only
    split
    · exact leads_modify fun s => hbook s _
    · exact leads_throw _

theorem leads_unmergeAll (hbook : ∀ s x, R s { s with book := x }) (title : String)
    (sheet : Sheet) (p : Block → Bool) : Leads R (unmergeAll title sheet p) := by
  refine leads_forM fun b _ => leads_get.bind fun s => ?_
  split
  · exact leads_pure _
  · refine (leads_modify fun s => hbook s _).bind fun _ => ?_
    split
    · exact leads_throw _
    · exact leads_pure _

theorem leads_clearArea (hbook : ∀ s x, R s { s with book := x })
    (hj : ∀ r (s : FillState), R s { s with journal := .clear r :: s.journal }) (a : AreaRef) :
    Leads R (clearArea a) := by
  refine (leads_sheet? _).bind fun s? => ?_
  cases s? with
  | none => exact leads_pure _
  | some sheet =>
    refine (leads_unmergeAll hbook _ _ _).bind fun _ => ?_
    exact leads_forM fun p _ => leads_clearCell _ (hj _)

end FillM

class FillHost.Asks (h : FillHost) (R : FillState → FillState → Prop) : Prop where
  evaluateText : ∀ text, Leads R (h.evaluateText text)

instance (h : FillHost) (R : FillState → FillState → Prop) [Writable R] : h.Asks R :=
  ⟨fun text => (h.leads_evaluateText text).lift⟩

namespace FillHost

variable {R : FillState → FillState → Prop} (h : FillHost)

theorem leads_atCell {α : Type} {m : FillM α} (hm : Leads R m) (r : CellRef) :
    Leads R (atCell r m) := hm.mapFailure _

theorem confined_copySizes (P : CellRef → Prop) [Confined P R] (origin target : CellRef)
    (withHeight : Bool) : Leads R (copySizes origin target withHeight) := by
  have : IsPreorder FillState R := Confined.toIsPreorder P
  have hheight : ∀ sheet, Leads R (copyHeight origin target sheet) := by
    intro sheet
    unfold copyHeight
    split
    · exact leads_modify fun s => Confined.inert P s _ _ (Sheet.inert_setHeight _)
    · exact leads_pure _
  have hwidth : ∀ sheet, Leads R (copyWidth origin target sheet) := by
    intro sheet
    unfold copyWidth
    split
    · refine (leads_ofExcept _).bind fun _ => ?_
      exact leads_modify fun s => Confined.inert P s _ _ (Sheet.inert_setWidth _)
    · exact leads_pure _
  refine leads_get.bind fun s => ?_
  split
  · exact leads_pure _
  · refine (hwidth _).bind fun _ => ?_
    split
    · exact hheight _
    · exact leads_pure _

def note (origin : CellRef) (f : Copies → Copies) (s : FillState) : FillState :=
  { s with history := s.history.modify origin f }

theorem leads_copyBlock [IsPreorder FillState R] (hmerge : ∀ title b, Leads R (merge title b))
    (origin target : CellRef) : Leads R (copyBlock origin target) := by
  refine leads_get.bind fun s => ?_
  split
  · split
    · exact hmerge _ _
    · exact leads_pure _
  · exact leads_pure _

theorem leads_formulaFor [IsPreorder FillState R] [h.Asks R] (origin target : CellRef)
    (formula : String)
    (hnote : (h.expressionText? (.text formula)).isSome →
      ∀ v s, R s (note origin (fun x => x.setFormula target v) s)) :
    Leads R (h.formulaFor origin target formula) := by
  unfold formulaFor
  split
  · exact leads_pure _
  · next text htext =>
    refine (leads_atCell (Asks.evaluateText _) _).bind fun v => ?_
    rw [htext] at hnote
    exact (leads_modify (hnote rfl v.shown)).bind fun _ => leads_pure _

section Confined

variable {P : CellRef → Prop} [Confined P R] {target : CellRef} (ht : P target)

include ht

theorem confined_copyNothing (c : Cell) : Leads R (copyNothing target c) := by
  have : IsPreorder FillState R := Confined.toIsPreorder P
  unfold copyNothing
  split
  · exact leads_pure _
  · exact confined_putCell ht _

variable [h.Asks R]

theorem confined_copyValue (origin : CellRef) (c : Cell) (info : CellInfo)
    (hnote : ∀ v s, R s (note origin (fun x => { x with result := v }) s)) :
    Leads R (h.copyValue origin target c info) := by
  have : IsPreorder FillState R := Confined.toIsPreorder P
  unfold copyValue
  split
  · refine (leads_atCell (Asks.evaluateText _) _).bind fun v => ?_
    exact (leads_modify (hnote v)).bind fun _ => leads_discard (confined_putOr ht _ _)
  · refine (confined_putOr ht _ _).bind fun c => ?_
    split
    · exact leads_discard (confined_putOr ht _ _)
    · exact leads_pure _

theorem confined_copyHeld (origin : CellRef) (c : Cell) (info : CellInfo)
    (hformula : ∀ formula, info.activeFormula? = some formula →
      (h.expressionText? (.text formula)).isSome →
        ∀ v s, R s (note origin (fun x => x.setFormula target v) s))
    (hresult : ∀ v s, R s (note origin (fun x => { x with result := v }) s)) :
    Leads R (h.copyHeld origin target c info) := by
  have : IsPreorder FillState R := Confined.toIsPreorder P
  unfold copyHeld
  split
  · next formula hactive =>
    refine (h.leads_formulaFor _ _ _ (hformula formula hactive)).bind fun _ => ?_
    exact leads_discard (confined_putOr ht _ _)
  · exact h.confined_copyValue ht _ _ _ hresult

end Confined

variable [Confined (fun _ => True) R]

theorem leads_copySizes (origin target : CellRef) (withHeight : Bool) :
    Leads R (copySizes origin target withHeight) :=
  confined_copySizes (fun _ => True) origin target withHeight

theorem leads_copyHeld [h.Asks R] (origin target : CellRef) (c : Cell) (info : CellInfo)
    (hformula : ∀ formula, info.activeFormula? = some formula →
      (h.expressionText? (.text formula)).isSome →
        ∀ v s, R s (note origin (fun x => x.setFormula target v) s))
    (hresult : ∀ v s, R s (note origin (fun x => { x with result := v }) s)) :
    Leads R (h.copyHeld origin target c info) :=
  h.confined_copyHeld (P := fun _ => True) trivial origin c info hformula hresult

theorem leads_copyNothing (target : CellRef) (c : Cell) : Leads R (copyNothing target c) :=
  confined_copyNothing (P := fun _ => True) trivial c

end FillHost

end SheetTemplate
