import SheetTemplate.Proofs.Area.Preserving
import SheetTemplate.Proofs.Fill.Bystanders
import SheetTemplate.Proofs.Fill.Withstanding
import SheetTemplate.Proofs.Workbook.Lineup
import SheetTemplate.Proofs.Workbook.Looks

namespace SheetTemplate

open FillM FillState

namespace FillState

variable {r : CellRef} {title : String} {s t u : FillState}

def Retains (r : CellRef) (s t : FillState) : Prop :=
  ∃ new, t.journal = new ++ s.journal ∧
    ((∃ v ∈ new, v.target = r) ∨ t.book.look? r = none ∨ t.book.look? r = s.book.look? r)

theorem retains_of_look (hjournal : t.journal = s.journal)
    (h : t.book.look? r = none ∨ t.book.look? r = s.book.look? r) : Retains r s t :=
  ⟨[], hjournal, .inr h⟩

theorem retains_of_book (hjournal : t.journal = s.journal) (hbook : t.book = s.book) :
    Retains r s t :=
  retains_of_look hjournal (.inr (by rw [hbook]))

theorem retains_write (s : FillState) (w : Write) :
    Retains r s { s with journal := w :: s.journal } := ⟨[w], rfl, .inr (.inr rfl)⟩

instance : IsPreorder FillState (Retains r) where
  refl _ := retains_of_book rfl rfl
  trans s t u := by
    rintro ⟨new, hnew, h⟩ ⟨new', hnew', h'⟩
    refine ⟨new' ++ new, by rw [hnew', hnew, List.append_assoc], ?_⟩
    rcases h' with ⟨v, hv, hr⟩ | hnone | hsame
    · exact .inl ⟨v, List.mem_append_left _ hv, hr⟩
    · exact .inr (.inl hnone)
    · rcases h with ⟨v, hv, hr⟩ | hnone | hsame'
      · exact .inl ⟨v, List.mem_append_right _ hv, hr⟩
      · exact .inr (.inl (hsame.trans hnone))
      · exact .inr (.inr (hsame.trans hsame'))

theorem retains_onSheet {f : Sheet → Sheet} (htitle : ∀ x, (f x).title = x.title)
    (hlook : title = r.sheet → ∀ x, (f x).look? r.pos = x.look? r.pos) :
    Retains r s (s.onSheet title f) := by
  refine retains_of_look rfl (.inr ?_)
  cases hfind : s.book.find? title with
  | none => rw [onSheet, s.book.modify_of_none hfind]
  | some x =>
    rw [onSheet, Workbook.look?_modify htitle hfind]
    split
    · next h =>
      rw [hlook h.symm, Workbook.look?_of_find?]
      rwa [h]
    · rfl

instance : Confined (· ≠ r) (Retains r) where
  touch s x := retains_onSheet (fun y => y.touch_title x.pos) fun _ _ => Sheet.look?_touch
  cell s x c hx := by
    refine retains_onSheet (fun _ => rfl) fun hsheet y => ?_
    rw [Sheet.look?_setCell, if_neg]
    exact fun hpos => hx (CellRef.eq_iff.2 ⟨hsheet, hpos.symm⟩)
  inert s title f hf :=
    retains_onSheet hf.title fun _ y => Sheet.look?_congr (by rw [hf.slots])
  written _ _ := retains_of_book rfl rfl
  log _ _ := retains_of_book rfl rfl

structure Alters (title : String) (s t : FillState) : Prop where
  grown : Grown (·.sheet = title) s t
  policy : t.policy = s.policy
  retired : t.retired = s.retired
  sheets : ∀ front x back, s.book.sheets = front ++ x :: back → x.title = title →
    (∀ y ∈ front, y.title ≠ title) → ∃ y, y.title = title ∧ t.book.sheets = front ++ y :: back

structure Untouched (s t : FillState) : Prop where
  book : t.book = s.book
  journal : t.journal = s.journal
  policy : t.policy = s.policy
  retired : t.retired = s.retired

theorem Untouched.retains (h : Untouched s t) : Retains r s t := retains_of_book h.journal h.book

theorem untouched_of_evaluated (h : Evaluated s t) : Untouched s t := by
  rw [Evaluated] at h
  rw [h]
  exact ⟨rfl, rfl, rfl, rfl⟩

theorem Alters.untouched (h : Alters title s t) (hu : Untouched t u) : Alters title s u where
  grown := trans_of (Grown _) h.grown (grown_of_eq hu.journal)
  policy := hu.policy.trans h.policy
  retired := hu.retired.trans h.retired
  sheets front x back hs hx hfront := by
    rw [hu.book]
    exact h.sheets front x back hs hx hfront

theorem Alters.trans (h : Alters title s t) (h' : Alters title t u) : Alters title s u where
  grown := trans_of (Grown _) h.grown h'.grown
  policy := h'.policy.trans h.policy
  retired := h'.retired.trans h.retired
  sheets front x back hs hx hfront := by
    obtain ⟨y, hy, ht⟩ := h.sheets front x back hs hx hfront
    exact h'.sheets front y back ht hy hfront

theorem alters_self (title : String) (s : FillState) : Alters title s s :=
  ⟨refl_of _ s, rfl, rfl, fun _ x _ hs hx _ => ⟨x, hx, hs⟩⟩

end FillState

theorem FillState.withstands_alters (title : String) (s : FillState) :
    Withstands (· = title) (Alters title s) fun _ => True where
  sheet t title' f ht hf h := by
    subst ht
    refine ⟨h.grown, h.policy, h.retired, fun front x back hs hx hfront => ?_⟩
    obtain ⟨y, hy, ht⟩ := h.sheets front x back hs hx hfront
    refine ⟨f y, (hf y ?_).trans hy, ?_⟩
    · rw [← hy] at hfront ⊢
      exact Workbook.find?_append ht hfront
    · change Workbook.modify.change title' f t.book.sheets = _
      rw [ht, Workbook.change_append hy hfront]
  record t w hw h :=
    ⟨trans_of (Grown _) h.grown (grown_record (P := (·.sheet = title)) hw t), h.policy, h.retired,
      h.sheets⟩
  aside t u hu h := h.untouched (by rw [hu]; exact ⟨rfl, rfl, rfl, rfl⟩)
  library _ := trivial
  column _ _ _ := trivial

namespace FillM

variable {r : CellRef}

theorem leads_retains_record {α : Type} {w : Write} {k : FillM α} (hr : w.target = r)
    (hk : Leads (Grown fun _ => True) k) : Leads (Retains r) (do record w; k) := by
  intro s
  obtain ⟨new, hnew, -⟩ := hk { s with journal := w :: s.journal }
  refine ⟨new ++ [w], ?_, .inl ⟨w, List.mem_append_right _ List.mem_cons_self, hr⟩⟩
  rw [List.append_assoc]
  exact hnew

theorem leads_retains_setValue (x : CellRef) (v : Value) (font? : Option Font) :
    Leads (Retains r) (setValue x v font?) := by
  by_cases hx : x = r
  · refine leads_retains_record (w := .value x v) hx ?_
    refine (leads_open? x).bind fun c? => ?_
    cases c? with
    | none => exact leads_pure _
    | some c =>
      exact (leads_modify fun s => Confined.written (fun _ => True) s _).bind fun _ =>
        leads_discard (leads_putOr x _ _)
  · exact confined_setValue (P := (· ≠ r)) hx v font? fun s => retains_write s _

theorem leads_retains_setFormula (x : CellRef) (formula : String) :
    Leads (Retains r) (setFormula x formula) := by
  by_cases hx : x = r
  · refine leads_retains_record (w := .formula x formula) hx ?_
    refine (leads_open? x).bind fun c? => ?_
    cases c? with
    | none => exact leads_pure _
    | some c => exact leads_discard (leads_putOr x _ _)
  · exact confined_setFormula (P := (· ≠ r)) hx formula fun s => retains_write s _

theorem leads_retains_merge (title : String) (b : Block) : Leads (Retains r) (merge title b) := by
  intro s
  rcases hm : exec (merge title b) s with ⟨result, t⟩
  rw [merge, exec_bind] at hm
  cases hsheet : s.sheet? title with
  | none =>
    obtain ⟨log, hlog⟩ := exec_sheet?_none hsheet
    rw [hlog] at hm
    cases hm
    exact retains_of_book rfl rfl
  | some x =>
    rw [exec_sheet? hsheet] at hm
    dsimp only at hm
    split at hm
    · next y hy =>
      have ht : s.onSheet title (fun _ => y) = t := congrArg Prod.snd hm
      have hfind := (sheet?_eq_some hsheet).2
      rw [← ht]
      refine retains_of_look rfl ?_
      rw [Workbook.look?, (replaced_onSheet hfind (x.merge?_title hy)).find]
      split
      · next hr =>
        rw [Workbook.look?_of_find? (hr ▸ hfind)]
        exact Sheet.look?_merge? hy
      · exact .inr rfl
    · cases hm
      exact retains_of_book rfl rfl

theorem leads_retains_addImage (x : CellRef) (v : Value) (scaleX scaleY : Float) :
    Leads (Retains r) (addImage x v scaleX scaleY) := by
  refine (confined_sheet? (· ≠ r) _).bind fun sheet? => ?_
  cases sheet? with
  | none => exact leads_pure _
  | some sheet =>
    dsimp only
    split
    · refine (leads_ofExcept _).bind fun anchor => leads_get.bind fun s => Leads.bind ?_ fun _ => ?_
      · exact leads_modify fun t => retains_onSheet (fun _ => rfl) fun _ _ => rfl
      · exact leads_modify fun t => retains_of_book rfl rfl
    · exact leads_throw _

end FillM

instance (h : FillHost) (r : CellRef) : h.Asks (Retains r) :=
  ⟨fun text => (h.leads_evaluateText text).mono fun _ _ he => (untouched_of_evaluated he).retains⟩

theorem FillHost.leads_retains_copy (h : FillHost) {r : CellRef} (origin target : CellRef) :
    Leads (Retains r) (h.copy origin target true) := by
  by_cases ht : target = r
  · refine leads_retains_record (w := .copy origin target) ht ?_
    exact h.leads_copyOver (leads_merge Loose.book) _ _ _ fun _ _ _ => grown_of_eq rfl
  · refine (leads_modify fun s => retains_write s _).bind fun _ => ?_
    exact h.confined_copyOver leads_retains_merge (P := (· ≠ r)) ht origin true fun f _ s =>
      retains_of_book rfl rfl

theorem FillHost.steps_retains {h : FillHost} {P : Command → Prop} {r : CellRef}
    (hbefore : ∀ l origin target, Leads (Retains r) (h.before l origin target))
    (hafter : ∀ l origin target, Leads (Retains r) (h.after l origin target))
    (hupdate : ∀ n info x, Leads (Retains r) (h.update n info x))
    (hsheet : ∀ e, P (.each e) → e.multisheet? = none)
    (hhosted : ∀ c, P (.hosted c) → ∀ target, Leads (Retains r) (h.run c target)) :
    h.Steps P (Retains r) where
  ask _ := (leads_names.bind fun _ => leads_evaluated_eval _).mono fun _ _ he =>
    (untouched_of_evaluated he).retains
  eval _ := (leads_evaluated_eval _).mono fun _ _ he => (untouched_of_evaluated he).retains
  bind name index? item index _ hm :=
    hm.binding (fun _ _ => retains_of_book rfl rfl) name index? item index
  place _ := (leads_onContext _).mono fun _ _ he => (untouched_of_evaluated he).retains
  log := confined_log (· ≠ r)
  copy := h.leads_retains_copy
  value := leads_retains_setValue
  formula := leads_retains_setFormula
  merge := leads_retains_merge
  image := leads_retains_addImage
  height := confined_clearRowHeight (· ≠ r)
  output := confined_outputCell (· ≠ r)
  before := hbefore
  after := hafter
  update := hupdate
  sheets e he hne := absurd (hsheet e he) hne
  hosted := hhosted

def FillM.KeepsTo {α : Type} (title : String) (m : FillM α) : Prop :=
  ∀ s, Alters title s (exec m s).2 ∧ ∀ r, Retains r s (exec m s).2

theorem FillM.keepsTo_pure {α : Type} {title : String} (a : α) : (pure a : FillM α).KeepsTo title :=
  fun s => ⟨alters_self title s, fun r => refl_of (Retains r) s⟩

structure FillHost.Tidy (h : FillHost) : Prop where
  before : ∀ l origin target, (h.before l origin target).KeepsTo target.sheet
  after : ∀ l origin target, (h.after l origin target).KeepsTo target.sheet
  update : ∀ n info x, (h.update n info x).KeepsTo x.sheet
  run : ∀ c target, (h.run c target).KeepsTo target.sheet

namespace FillHost.Tidy

variable {h : FillHost} {r : CellRef} {title : String} {s : FillState}

theorem steps (hh : h.Tidy) : h.Steps Command.OneSheet (Retains r) :=
  steps_retains (fun l origin target u => (hh.before l origin target u).2 r)
    (fun l origin target u => (hh.after l origin target u).2 r)
    (fun n info x u => (hh.update n info x u).2 r) (fun _ he => he)
    fun c _ target u => (hh.run c target u).2 r

theorem preserves_keepsTo {α : Type} {m : FillM α} (hm : m.KeepsTo title) :
    Preserves (Alters title s) (fun _ => True) m :=
  preserves_of_leads (R := Alters title) (fun u => (hm u).1) fun _ _ => Alters.trans

theorem preserves_untouched {α : Type} {m : FillM α} (hm : Leads Untouched m) :
    Preserves (Alters title s) (fun _ => True) m :=
  preserves_of_leads hm fun _ _ h hu => h.untouched hu

theorem preserves_evaluated {α : Type} {m : FillM α} (hm : Leads Evaluated m) :
    Preserves (Alters title s) (fun _ => True) m :=
  preserves_untouched (hm.mono fun _ _ => untouched_of_evaluated)

theorem preserves_image {i : ImageSpec} (hr : r.sheet = title) :
    Preserves (Alters title s) (fun _ => True) (i.run h r) := by
  have hw := withstands_alters title s
  refine (preserves_evaluated (leads_within (h.leads_evaluate _) _ _)).bind fun v => ?_
  split
  · exact (hw.log _ _ _).bind fun _ => preserves_pure _
  · split
    · exact (hw.addImage hr _ _ _).bind fun _ => preserves_pure _
    · exact (hw.addImage hr _ _ _).bind fun _ => preserves_pure _
    · exact preserves_throw trivial

theorem preserving (hh : h.Tidy) :
    h.Preserving Command.OneSheet (fun _ => True) (· = title) (Alters title s) fun _ => True where
  located _ _ _ _ := trivial
  unbound _ := trivial
  log := (withstands_alters title s).log
  place _ := preserves_evaluated (leads_onContext _)
  before l origin target ht := preserves_keepsTo (ht ▸ hh.before l origin target)
  after l origin target ht := preserves_keepsTo (ht ▸ hh.after l origin target)
  copy _ _ _ ht := (withstands_alters title s).copy ht fun _ _ _ _ _ _ =>
    preserves_evaluated (leads_atCell (h.leads_evaluateText _) _)
  resolve e _ := ⟨preserves_evaluated (e.leads_resolve h), trivial⟩
  bind _ _ _ _ _ hm :=
    hm.binding (fun _ _ hs => hs.untouched ⟨rfl, rfl, rfl, rfl⟩) _ _ _ _
  titles _ _ he hm := absurd (he.symm.trans hm) (by simp)
  condition c _ := preserves_evaluated (leads_within (h.leads_isTrue c) _ _)
  grid _ _ := ⟨preserves_evaluated (GridSpec.leads_itemsOf _ _),
    preserves_evaluated (GridSpec.leads_itemsOf _ _),
    fun _ v font? hr => (withstands_alters title s).setValue hr v font?⟩
  image _ _ _ hr := preserves_image hr
  merge m _ := ⟨fun _ => preserves_evaluated (MergeSpec.inward_dimension _ _ _ _).evaluated,
    fun _ => preserves_evaluated (MergeSpec.inward_dimension _ _ _ _).evaluated,
    fun _ b ht => (withstands_alters title s).merge ht b⟩
  updater name _ := ⟨preserves_evaluated (Updater.leads_resolve name), fun id _ hr =>
    (withstands_alters title s).updateCell hr
      (fun n info => preserves_keepsTo (hr ▸ hh.update n info _)) id⟩
  height _ _ row ht := (withstands_alters title s).clearRowHeight ht row
  hosted c _ r hr := preserves_keepsTo (hr ▸ hh.run c r)

end FillHost.Tidy

end SheetTemplate
