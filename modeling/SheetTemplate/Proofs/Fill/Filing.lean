import SheetTemplate.Proofs.Area.Preserving
import SheetTemplate.Proofs.Fill.Extending

namespace SheetTemplate

open FillM FillState

namespace FillState

variable {O : CellRef → Prop} {origin target : CellRef} {s t u : FillState}

structure Unfiled (s t : FillState) : Prop where
  history : t.history = s.history
  journal : s.journal <:+ t.journal

theorem unfiled_of_eq (hhistory : t.history = s.history) (hjournal : t.journal = s.journal) :
    Unfiled s t := ⟨hhistory, hjournal ▸ List.suffix_rfl⟩

instance : IsPreorder FillState Unfiled where
  refl _ := unfiled_of_eq rfl rfl
  trans _ _ _ hst htu := ⟨htu.history.trans hst.history, hst.journal.trans htu.journal⟩

instance : Writable Unfiled where
  sheet _ _ _ _ := unfiled_of_eq rfl rfl
  written _ _ := unfiled_of_eq rfl rfl
  images _ _ _ := unfiled_of_eq rfl rfl
  context _ _ := unfiled_of_eq rfl rfl
  streams _ _ := unfiled_of_eq rfl rfl
  log _ _ := unfiled_of_eq rfl rfl

instance : Loose Unfiled where
  book _ _ := unfiled_of_eq rfl rfl
  sheets _ _ _ := unfiled_of_eq rfl rfl

theorem unfiled_write (s : FillState) (w : Write) :
    Unfiled s { s with journal := w :: s.journal } := ⟨rfl, List.suffix_cons w s.journal⟩

theorem unfiled_of_remarked (h : Remarked s t) : Unfiled s t := by
  rw [Remarked] at h
  rw [h]
  exact unfiled_of_eq rfl rfl

structure Filed (origin target : CellRef) (s t : FillState) : Prop where
  journal : t.journal = s.journal
  others : ∀ x, x ≠ origin → t.history.of x = s.history.of x
  copies : ∀ r ∈ t.history.targets origin, r ∈ s.history.targets origin ∨ r = target

theorem filed_of_eq (hhistory : t.history = s.history) (hjournal : t.journal = s.journal) :
    Filed origin target s t := by
  refine ⟨hjournal, fun x _ => by rw [hhistory], fun r hr => ?_⟩
  rw [hhistory] at hr
  exact .inl hr

instance : IsPreorder FillState (Filed origin target) where
  refl _ := filed_of_eq rfl rfl
  trans _ _ _ hst htu := by
    refine ⟨htu.journal.trans hst.journal, fun x hx => ?_, fun r hr => ?_⟩
    · rw [htu.others x hx, hst.others x hx]
    · rcases htu.copies r hr with hr | hr
      · exact hst.copies r hr
      · exact .inr hr

instance : Writable (Filed origin target) where
  sheet _ _ _ _ := filed_of_eq rfl rfl
  written _ _ := filed_of_eq rfl rfl
  images _ _ _ := filed_of_eq rfl rfl
  context _ _ := filed_of_eq rfl rfl
  streams _ _ := filed_of_eq rfl rfl
  log _ _ := filed_of_eq rfl rfl

instance : Loose (Filed origin target) where
  book _ _ := filed_of_eq rfl rfl
  sheets _ _ _ := filed_of_eq rfl rfl

structure Files (O : CellRef → Prop) (s t : FillState) : Prop where
  others : ∀ x, ¬ O x → t.history.of x = s.history.of x
  copies : ∃ new, t.journal = new ++ s.journal ∧ ∀ x, ∀ r ∈ t.history.targets x,
    r ∈ s.history.targets x ∨ ∃ w ∈ new, w.target = r

theorem files_self (O : CellRef → Prop) (s : FillState) : Files O s s :=
  ⟨fun _ _ => rfl, [], rfl, fun _ _ => .inl⟩

theorem Files.unfiled (h : Files O s t) (hu : Unfiled t u) : Files O s u := by
  obtain ⟨new, hnew, hcopies⟩ := h.copies
  obtain ⟨more, hmore⟩ := hu.journal
  refine ⟨fun x hx => by rw [hu.history, h.others x hx], more ++ new, ?_, fun x r hr => ?_⟩
  · rw [← hmore, hnew, List.append_assoc]
  · rw [hu.history] at hr
    refine (hcopies x r hr).imp_right ?_
    rintro ⟨w, hw, hr⟩
    exact ⟨w, List.mem_append_right _ hw, hr⟩

theorem Files.filed (h : Files O s t) (ho : O origin)
    (hu : Filed origin target { t with journal := .copy origin target :: t.journal } u) :
    Files O s u := by
  obtain ⟨new, hnew, hcopies⟩ := h.copies
  refine ⟨fun x hx => ?_, .copy origin target :: new, ?_, fun x r hr => ?_⟩
  · rw [hu.others x fun heq => hx (heq ▸ ho)]
    exact h.others x hx
  · rw [hu.journal, hnew]
    rfl
  · have hold : r ∈ t.history.targets x → r ∈ s.history.targets x ∨
        ∃ w ∈ Write.copy origin target :: new, w.target = r := by
      intro hr
      refine (hcopies x r hr).imp_right ?_
      rintro ⟨w, hw, hr⟩
      exact ⟨w, List.mem_cons_of_mem _ hw, hr⟩
    by_cases hx : x = origin
    · subst hx
      rcases hu.copies r hr with hr | rfl
      · exact hold hr
      · exact .inr ⟨_, List.mem_cons_self, rfl⟩
    · rw [History.targets, hu.others x hx] at hr
      exact hold hr

end FillState

namespace FillHost

variable {h : FillHost} {origin target : CellRef}

theorem leads_filed_copyOver :
    Leads (Filed origin target) (h.copyOver origin target true) := by
  refine h.leads_copyOver (leads_merge Loose.book) _ _ _ fun f hf s => ⟨rfl, fun x hx => ?_, ?_⟩
  · rw [FillHost.note, History.of_modify, if_neg hx]
  · intro r hr
    rw [History.targets, FillHost.note, History.of_modify, if_pos rfl] at hr
    exact hf.targets _ r hr

end FillHost

section Replay

variable {h : FillHost} {P : Command → Prop} {O : CellRef → Prop} {s : FillState}

theorem FillM.preserves_unfiled {α : Type} {m : FillM α} (hm : Leads Unfiled m) :
    Preserves (Files O s) (fun _ => True) m :=
  preserves_of_leads hm fun _ _ h hu => h.unfiled hu

theorem ImageSpec.preserves_files (i : ImageSpec) (r : CellRef) :
    Preserves (Files O s) (fun _ => True) (i.run h r) := by
  apply preserves_unfiled
  refine (leads_within (h.leads_evaluate _) _ _).lift.bind fun v => ?_
  split
  · exact (leads_log _ _ _).bind fun _ => leads_pure _
  · split
    · exact (leads_addImage _ _ _ _).bind fun _ => leads_pure _
    · exact (leads_addImage _ _ _ _).bind fun _ => leads_pure _
    · exact leads_throw _

theorem FillHost.preserving_files
    (hbefore : ∀ l origin target, Leads Remarked (h.before l origin target))
    (hafter : ∀ l origin target, Leads Remarked (h.after l origin target))
    (hupdate : ∀ n info r, Leads Remarked (h.update n info r))
    (hsheet : ∀ e, P (.each e) → e.multisheet? = none) (hmerge : ∀ m, ¬ P (.mergeCells m))
    (hhosted : ∀ c, ¬ P (.hosted c)) :
    h.Preserving P O (fun _ => True) (Files O s) fun _ => True := by
  have hremark : ∀ {α : Type} {m : FillM α}, Leads Remarked m → Leads Unfiled m := fun hm =>
    hm.mono fun _ _ => unfiled_of_remarked
  constructor
  case located => exact fun _ _ _ _ => trivial
  case unbound => exact fun _ => trivial
  case log => exact fun _ _ _ => preserves_unfiled (leads_log _ _ _)
  case place => exact fun _ => preserves_unfiled (leads_onContext _).lift
  case before => exact fun l origin target _ => preserves_unfiled (hremark (hbefore l origin target))
  case after => exact fun l origin target _ => preserves_unfiled (hremark (hafter l origin target))
  case copy =>
    intro origin target ho _
    refine preserves_of_ok fun u _ v hu hr => ?_
    obtain ⟨_, w, hrecord, hr⟩ := bind_eq_ok.1 hr
    cases hrecord
    exact hu.filed ho (leads_filed_copyOver.apply hr)
  case resolve => exact fun e _ => ⟨preserves_unfiled (e.leads_resolve h).lift, trivial⟩
  case bind =>
    exact fun e _ item index m hm =>
      hm.binding (fun _ _ hu => hu.unfiled (unfiled_of_eq rfl rfl)) _ _ _ _
  case titles => exact fun e _ he hm => absurd ((hsheet e he).symm.trans hm) (by simp)
  case condition => exact fun c _ => preserves_unfiled (leads_within (h.leads_isTrue c) _ _).lift
  case grid =>
    exact fun g _ => ⟨preserves_unfiled (GridSpec.leads_itemsOf _ _).lift,
      preserves_unfiled (GridSpec.leads_itemsOf _ _).lift, fun r v font? _ =>
        preserves_unfiled (leads_setValue _ _ _ fun u => unfiled_write u _)⟩
  case image => exact fun i _ r _ => i.preserves_files r
  case merge => exact fun m hm => absurd hm (hmerge m)
  case updater =>
    refine fun name _ => ⟨preserves_unfiled (Updater.leads_resolve name), fun id r _ => ?_⟩
    apply preserves_unfiled
    refine (leads_outputCell r).bind fun before => (hremark (hupdate _ _ _)).bind fun after => ?_
    split
    · exact leads_pure _
    · split
      · exact leads_setFormula _ _ fun u => unfiled_write u _
      · exact leads_setValue _ _ _ fun u => unfiled_write u _
  case height => exact fun _ _ _ _ => preserves_unfiled (leads_clearRowHeight _ _)
  case hosted => exact fun c hc => absurd hc (hhosted c)

end Replay

end SheetTemplate
