import SheetTemplate.Area.Replay
import SheetTemplate.Proofs.Fill.Writing

namespace SheetTemplate

namespace FillM

class Loose (R : FillState → FillState → Prop) : Prop extends Storable R where
  book : ∀ s x, R s { s with book := x }
  sheets : ∀ s x y, R s { s with deleted := x, retired := y }

def Grown (P : CellRef → Prop) (s t : FillState) : Prop :=
  ∃ new, t.journal = new ++ s.journal ∧ ∀ w ∈ new, P w.target

theorem grown_of_eq {P : CellRef → Prop} {s t : FillState} (h : t.journal = s.journal) :
    Grown P s t := ⟨[], h, fun _ hw => absurd hw List.not_mem_nil⟩

theorem grown_record {P : CellRef → Prop} {w : Write} (hw : P w.target) (s : FillState) :
    Grown P s { s with journal := w :: s.journal } := by
  refine ⟨[w], rfl, ?_⟩
  intro v hv
  rw [List.mem_singleton.1 hv]
  exact hw

theorem Grown.journal_eq {s t : FillState} (h : Grown (fun _ => False) s t) :
    t.journal = s.journal := by
  obtain ⟨new, hj, hn⟩ := h
  cases new with
  | nil => exact hj
  | cons w new => exact (hn w List.mem_cons_self).elim

theorem Grown.mem {P : CellRef → Prop} {s t : FillState} {w : Write} (h : Grown P s t)
    (hw : w ∈ s.journal) : w ∈ t.journal := by
  obtain ⟨new, hj, -⟩ := h
  rw [hj]
  exact List.mem_append_right new hw

theorem Grown.mono {P Q : CellRef → Prop} {s t : FillState} (h : Grown P s t)
    (hPQ : ∀ r, P r → Q r) : Grown Q s t := by
  obtain ⟨new, hj, hn⟩ := h
  exact ⟨new, hj, fun w hw => hPQ _ (hn w hw)⟩

instance (P : CellRef → Prop) : Writable (Grown P) where
  refl s := grown_of_eq rfl
  trans s t u := by
    rintro ⟨new, ht, hn⟩ ⟨new', hu, hn'⟩
    refine ⟨new' ++ new, by rw [hu, ht, List.append_assoc], ?_⟩
    intro w hw
    rcases List.mem_append.1 hw with h | h
    · exact hn' w h
    · exact hn w h
  sheet _ _ _ _ := grown_of_eq rfl
  written _ _ := grown_of_eq rfl
  images _ _ _ := grown_of_eq rfl
  context _ _ := grown_of_eq rfl
  streams _ _ := grown_of_eq rfl
  log _ _ := grown_of_eq rfl

instance (P : CellRef → Prop) : Loose (Grown P) where
  book _ _ := grown_of_eq rfl
  sheets _ _ _ := grown_of_eq rfl

variable {R : FillState → FillState → Prop} [Loose R]

theorem leads_onBook (f : Workbook → Workbook) : Leads R (onBook f) :=
  leads_modify fun s => Loose.book s _

theorem leads_copySheet (origin title : String) (after? : Option String) :
    Leads R (copySheet origin title after?) := by
  refine leads_get.bind fun s => ?_
  split
  · exact leads_throw _
  refine (leads_onBook _).bind fun _ => ?_
  extract_lets anchor placed
  have hplaced : ∀ x, Leads R (placed x) := by
    intro x
    refine (leads_onBook _).bind fun _ => leads_get.bind fun t => ?_
    split
    · exact leads_throw _
    · exact (leads_onBook _).bind fun _ => leads_modify fun s => Loose.sheets s _ _
  split
  · exact (leads_throw _).bind hplaced
  · exact hplaced ()

theorem leads_setHidden (title : String) (hidden : Bool) : Leads R (setHidden title hidden) := by
  refine leads_get.bind fun s => ?_
  split
  · exact leads_throw _
  · exact leads_onBook _

theorem leads_deleteSheet (title : String) : Leads R (deleteSheet title) := by
  refine leads_get.bind fun s => ?_
  split
  · exact leads_pure _
  · exact leads_modify fun s => trans_of R (Loose.book s _) (Loose.sheets _ _ _)

theorem leads_retireSheet (title : String) : Leads R (retireSheet title) := by
  intro s
  rw [retireSheet, exec_bind, exec_get]
  dsimp only
  split
  · exact refl_of R s
  · have hretired : R s { s with retired := s.retired ++ [title] } := Loose.sheets s _ _
    refine trans_of R hretired ?_
    split
    · exact refl_of R _
    · exact leads_setHidden _ _ _
    · exact leads_deleteSheet _ _

end FillM

open FillM

theorem lookup_setFormula (c : Copies) (target x : CellRef) (formula : String) :
    (c.setFormula target formula).formulas.lookup x =
      if x = target then some formula else c.formulas.lookup x := by
  have hcons : ∀ (e : CellRef × String) l, List.lookup x (e :: l) =
      if x = e.1 then some e.2 else l.lookup x := by
    intro e l
    rw [List.lookup_cons]
    by_cases hx : x = e.1
    · rw [beq_iff_eq.2 hx, if_pos hx]
    · rw [beq_false_of_ne hx, if_neg hx]
  have hset : ∀ l : List (CellRef × String), (Copies.setFormula.set target formula l).lookup x =
      if x = target then some formula else l.lookup x := by
    intro l
    induction l with
    | nil =>
      rw [Copies.setFormula.set, hcons]
    | cons e rest ih =>
      rw [Copies.setFormula.set]
      by_cases he : e.1 = target
      · rw [if_pos (beq_iff_eq.2 he), hcons, hcons, he]
        by_cases hx : x = target
        · rw [if_pos hx, if_pos hx]
        · rw [if_neg hx, if_neg hx, if_neg hx]
      · rw [if_neg (by simpa using he), hcons, hcons, ih]
        by_cases hx : x = e.1
        · rw [if_pos hx, if_pos hx, if_neg fun h => he (hx.symm.trans h)]
        · rw [if_neg hx, if_neg hx]
  exact hset c.formulas

structure Copies.Notes (target : CellRef) (f : Copies → Copies) : Prop where
  targets : ∀ c, ∀ r ∈ (f c).targets, r ∈ c.targets ∨ r = target
  formulas : ∀ c, ∀ r, r ≠ target → (f c).formulas.lookup r = c.formulas.lookup r

namespace Copies

theorem notes_setFormula (target : CellRef) (formula : String) :
    Notes target fun c => c.setFormula target formula :=
  ⟨fun _ _ => .inl, fun c r hr => by rw [lookup_setFormula, if_neg hr]⟩

theorem notes_result (target : CellRef) (v : Value) : Notes target fun c => { c with result := v } :=
  ⟨fun _ _ => .inl, fun _ _ _ => rfl⟩

theorem notes_addTarget (target : CellRef) : Notes target fun c => c.addTarget target := by
  refine ⟨fun c r hr => ?_, fun _ _ _ => rfl⟩
  rwa [addTarget, List.mem_append, List.mem_singleton] at hr

end Copies

namespace FillHost

variable {R : FillState → FillState → Prop} (h : FillHost) [h.Asks R]
  (hmerge : ∀ title b, Leads R (merge title b))

include hmerge

theorem confined_copyOver {P : CellRef → Prop} [Confined P R] {target : CellRef} (ht : P target)
    (origin : CellRef) (withHeight : Bool)
    (hnote : ∀ f, Copies.Notes target f → ∀ s, R s (note origin f s)) :
    Leads R (h.copyOver origin target withHeight) := by
  have : IsPreorder FillState R := Confined.toIsPreorder P
  refine (confined_open? P target).bind fun c? => ?_
  cases c? with
  | none => exact leads_pure _
  | some c =>
    refine leads_get.bind fun s => ?_
    split
    · exact confined_copyNothing ht _
    · refine (confined_putCell ht _).bind fun _ => (confined_copySizes P _ _ _).bind fun _ => ?_
      have hheld : ∀ c info, Leads R (h.copyHeld origin target c info) := fun c info =>
        h.confined_copyHeld ht _ _ _ (fun _ _ _ v => hnote _ (Copies.notes_setFormula target v))
          fun v => hnote _ (Copies.notes_result target v)
      refine (hheld _ _).bind fun _ => (leads_copyBlock hmerge _ _).bind fun _ => ?_
      exact leads_modify (hnote _ (Copies.notes_addTarget target))

variable [Confined (fun _ => True) R]

theorem leads_copyOver (origin target : CellRef) (withHeight : Bool)
    (hnote : ∀ f, Copies.Notes target f → ∀ s, R s (note origin f s)) :
    Leads R (h.copyOver origin target withHeight) :=
  h.confined_copyOver hmerge (P := fun _ => True) trivial origin withHeight hnote

theorem leads_copy (origin target : CellRef) (withHeight : Bool)
    (hj : ∀ s : FillState, R s { s with journal := .copy origin target :: s.journal })
    (hnote : ∀ f s, R s (note origin f s)) : Leads R (h.copy origin target withHeight) :=
  (leads_modify hj).bind fun _ => h.leads_copyOver hmerge _ _ _ fun f _ => hnote f

omit hmerge [h.Asks R] [Confined (fun _ => True) R] in
theorem copy_journal {origin target : CellRef} {withHeight : Bool} {s t : FillState}
    {r : Except Failure Unit} (hr : exec (h.copy origin target withHeight) s = (r, t)) :
    t.journal = .copy origin target :: s.journal := by
  have hover : Leads (Grown fun _ => False) (h.copyOver origin target withHeight) :=
    h.leads_copyOver (leads_merge Loose.book) _ _ _ fun _ _ _ => grown_of_eq rfl
  exact Grown.journal_eq (hover.apply hr)

end FillHost

namespace FillM

theorem leads_within {α : Type} {R : FillState → FillState → Prop} {m : FillM α}
    (hm : Leads R m) (command property : String) : Leads R (within command property m) :=
  hm.mapFailure _

theorem leads_ofFault {α : Type} (r : Except Fault α) : Leads Evaluated (ofFault r) :=
  leads_evaluated_eval _

theorem leads_itemsOr (v : Value) (cause : String → Cause) (expression command property : String) :
    Leads Evaluated (itemsOr v cause expression command property) := by
  refine (leads_evaluated_eval _).tryCatch fun f => ?_
  split <;> exact leads_throw _

end FillM

namespace EachSpec

variable (h : FillHost) (e : EachSpec)

theorem leads_selected (condition : String) (items : List Value) :
    Leads Evaluated (e.selected h condition items) := by
  induction items with
  | nil => exact leads_pure _
  | cons item rest ih =>
    have hkeep := leads_within (h.leads_isTrue condition) "each" "select"
    refine (hkeep.binding (fun _ _ => rfl) _ _ _ _).bind fun keep => ?_
    exact ih.bind fun _ => leads_pure _

theorem leads_resolve : Leads Evaluated (e.resolve h) := by
  unfold resolve
  refine (leads_within (h.leads_evaluate _) _ _).bind fun v => ?_
  refine (leads_itemsOr _ _ _ _ _).bind fun items => ?_
  split
  · exact leads_pure _
  extract_lets jp
  have hjp : ∀ items, Leads Evaluated (jp items) := by
    intro items
    unfold jp
    split
    · exact leads_pure _
    · exact leads_ofFault _
  split
  · exact (leads_pure _).bind hjp
  · exact (e.leads_selected h _ _).bind hjp

end EachSpec

namespace Area

variable {h : FillHost} {s t : FillState}

def Permits (h : FillHost) (listeners : List Nat) : Prop :=
  ∀ l ∈ listeners, ∀ origin target s allowed t,
    exec (h.before l origin target) s = (.ok allowed, t) → allowed = true

theorem isAllowed_eq_true {listeners : List Nat} (hp : Permits h listeners) {c : CellCopy}
    {allowed : Bool} (hr : exec (isAllowed h c listeners) s = (.ok allowed, t)) :
    allowed = true := by
  induction listeners generalizing s with
  | nil =>
    cases hr
    rfl
  | cons l rest ih =>
    obtain ⟨first, u, hu, hr⟩ := bind_eq_ok.1 hr
    rw [hp l List.mem_cons_self _ _ _ _ _ hu] at hr
    exact ih (fun l hl => hp l (List.mem_cons_of_mem _ hl)) hr

end Area

/-- Hooks that ask for no writes of their own. -/
structure FillHost.Quiet (h : FillHost) : Prop where
  before : ∀ l origin target s, (exec (h.before l origin target) s).2.journal = s.journal
  after : ∀ l origin target s, (exec (h.after l origin target) s).2.journal = s.journal
  update : ∀ n info r s, (exec (h.update n info r) s).2.journal = s.journal

namespace Area

variable {h : FillHost} {P : CellRef → Prop}

theorem leads_isAllowed (hq : h.Quiet) (c : CellCopy) (listeners : List Nat) :
    Leads (Grown P) (isAllowed h c listeners) := by
  induction listeners with
  | nil => exact leads_pure _
  | cons l rest ih =>
    have hbefore : Leads (Grown P) (h.before l c.origin c.target) := fun s =>
      grown_of_eq (hq.before l c.origin c.target s)
    refine hbefore.bind fun allowed => ?_
    split
    · exact ih
    · exact leads_pure _

theorem leads_copyCell (hq : h.Quiet) (listeners : List Nat) {c : CellCopy}
    (hc : P c.target) : Leads (Grown P) (copyCell h listeners c) := by
  have hafter : Leads (Grown P) (listeners.forM fun l => h.after l c.origin c.target) :=
    leads_forM fun l _ s => grown_of_eq (hq.after l c.origin c.target s)
  refine (leads_onContext _).lift.bind fun _ => ?_
  refine (leads_isAllowed hq c listeners).bind fun allowed => ?_
  split
  · have hnote : ∀ f s, Grown P s (FillHost.note c.origin f s) := fun _ _ => grown_of_eq rfl
    exact (h.leads_copy (leads_merge Loose.book) _ _ _ (grown_record hc) hnote).bind fun _ => hafter
  · exact hafter

theorem leads_copyAll (hq : h.Quiet) (f : Frame) {copies : List CellCopy}
    (hc : ∀ c ∈ copies, P c.target) : Leads (Grown P) (copyAll h f copies) :=
  leads_forM fun c hmem => leads_copyCell hq f.listeners (hc c hmem)

end Area

end SheetTemplate
