import SheetTemplate.Proofs.Area.Rows
import SheetTemplate.Proofs.Fill.Journal
import SheetTemplate.Proofs.Template.Populated

namespace SheetTemplate

open FillM

theorem SheetSnapshot.block?_spec {s : SheetSnapshot} {p : Pos} {size : Size}
    (h : s.block? p = some size) : ∃ b ∈ s.merged, b.first = p ∧ b.size = size := by
  obtain ⟨b, hb, rfl⟩ := Option.map_eq_some_iff.1 h
  rw [List.findRev?_eq_find?_reverse] at hb
  have hfirst := List.find?_some hb
  exact ⟨b, List.mem_reverse.1 (List.mem_of_find?_eq_some hb), eq_of_beq hfirst, rfl⟩

theorem Block.eq_of_size (b : Block) :
    b = ⟨b.first, b.first.offset (b.size.height - 1) (b.size.width - 1)⟩ := by
  obtain ⟨⟨top, left⟩, ⟨bottom, right⟩⟩ := b
  simp only [size, Pos.offset, Block.mk.injEq, Pos.mk.injEq, true_and]
  omega

namespace Workbook

theorem covers_modify {w : Workbook} {title : String} {f : Sheet → Sheet} (hf : Sheet.Tame f)
    {r : CellRef} (h : (w.modify title f).Covers r) : w.Covers r := by
  rw [Covers, slot?_modify w hf.title] at h
  split at h
  · next hr =>
    obtain ⟨s, hs, hslot⟩ := Option.bind_eq_some_iff.1 h
    rw [← hr] at hs
    exact (slot?_of_find? w hs).trans (hf.covered s _ hslot)
  · exact h

end Workbook

namespace FillState

structure Settled (s t : FillState) : Prop where
  template : t.template = s.template
  deleted : t.deleted = s.deleted
  titles : t.book.titles = s.book.titles
  covers : ∀ r, t.book.Covers r → s.book.Covers r ∨ s.template.Hides r

structure Takes (s : FillState) (r : CellRef) : Prop where
  sheet : (s.sheet? r.sheet).isSome = true
  covers : ¬ s.book.Covers r

structure Free (s : FillState) (r : CellRef) : Prop where
  sheet : (s.sheet? r.sheet).isSome = true
  covers : ¬ s.book.Covers r
  hides : ¬ s.template.Hides r

theorem Free.takes {s : FillState} {r : CellRef} (h : s.Free r) : s.Takes r := ⟨h.sheet, h.covers⟩

def Sound (s : FillState) : Prop := ∀ r info, s.template.cell? r = some info → s.Free r

variable {s t : FillState}

theorem settled_of_eq (htemplate : t.template = s.template) (hdeleted : t.deleted = s.deleted)
    (hbook : t.book = s.book) : Settled s t := by
  refine ⟨htemplate, hdeleted, by rw [hbook], fun r hr => ?_⟩
  rw [hbook] at hr
  exact .inl hr

instance : IsPreorder FillState Settled where
  refl _ := settled_of_eq rfl rfl rfl
  trans s t u := by
    intro hst htu
    refine ⟨htu.template.trans hst.template, htu.deleted.trans hst.deleted,
      htu.titles.trans hst.titles, fun r hr => ?_⟩
    rcases htu.covers r hr with h | h
    · exact hst.covers r h
    · rw [hst.template] at h
      exact .inr h

theorem settled_onSheet (s : FillState) (title : String) {f : Sheet → Sheet}
    (hf : Sheet.Tame f) : Settled s (s.onSheet title f) :=
  ⟨rfl, rfl, Workbook.titles_modify _ hf.title, fun _ hr => .inl (Workbook.covers_modify hf hr)⟩

instance : Writable Settled where
  sheet s title _ hf := settled_onSheet s title hf
  written _ _ := settled_of_eq rfl rfl rfl
  images _ _ _ := settled_of_eq rfl rfl rfl
  context _ _ := settled_of_eq rfl rfl rfl
  streams _ _ := settled_of_eq rfl rfl rfl
  log _ _ := settled_of_eq rfl rfl rfl

theorem sheet?_isSome {s : FillState} {title : String} :
    (s.sheet? title).isSome = true ↔ s.deleted.contains title = false ∧ title ∈ s.book.titles := by
  rw [Workbook.mem_titles, sheet?]
  cases s.deleted.contains title <;> simp

theorem Free.mono {r : CellRef} (hr : s.Free r) (h : Settled s t) : t.Free r := by
  refine ⟨?_, fun hcovers => ?_, ?_⟩
  · have hsheet := hr.sheet
    rw [sheet?_isSome] at hsheet ⊢
    rwa [h.deleted, h.titles]
  · rcases h.covers r hcovers with hr' | hr'
    · exact hr.covers hr'
    · exact hr.hides hr'
  · rw [h.template]
    exact hr.hides

theorem Sound.mono (hs : s.Sound) (h : Settled s t) : t.Sound := by
  intro r info hinfo
  rw [h.template] at hinfo
  exact (hs r info hinfo).mono h

end FillState

open FillState

structure FillState.Unseen (s t : FillState) : Prop where
  book : t.book = s.book
  template : t.template = s.template
  history : t.history = s.history
  deleted : t.deleted = s.deleted

theorem FillState.Unseen.settled {s t : FillState} (h : s.Unseen t) : Settled s t :=
  settled_of_eq h.template h.deleted h.book

instance : IsPreorder FillState FillState.Unseen where
  refl _ := ⟨rfl, rfl, rfl, rfl⟩
  trans _ _ _ hst htu := ⟨htu.book.trans hst.book, htu.template.trans hst.template,
    htu.history.trans hst.history, htu.deleted.trans hst.deleted⟩

structure FillHost.Passive (h : FillHost) : Prop where
  permits : ∀ l origin target s allowed t,
    exec (h.before l origin target) s = (.ok allowed, t) → allowed = true
  before : ∀ l origin target, Leads Unseen (h.before l origin target)
  after : ∀ l origin target, Leads Unseen (h.after l origin target)

namespace FillM

theorem settled_const {s : FillState} {title : String} {sheet u : Sheet}
    (hfind : s.book.find? title = some sheet) (htitle : u.title = sheet.title)
    (hu : ∀ p : Pos, u.slots[p]? = some .covered →
      s.template.Hides (.ofPos title p) ∨ sheet.slots[p]? = some .covered) :
    Settled s (s.onSheet title fun _ => u) := by
  refine ⟨rfl, rfl, s.book.titles_const hfind htitle, fun r hr => ?_⟩
  rw [Workbook.Covers, FillState.onSheet, Workbook.slot?_const _ hfind htitle] at hr
  split at hr
  · next hsheet =>
    subst hsheet
    rcases hu r.pos hr with h | h
    · exact .inr h
    · exact .inl ((Workbook.slot?_of_find? _ hfind).trans h)
  · exact .inl hr

theorem leads_settled_merge {s : FillState} {title : String} {b : Block}
    (hb : ∀ p ∈ b.hidden, s.template.Hides (.ofPos title p)) :
    Settled s (exec (merge title b) s).2 := by
  rw [merge, exec_bind]
  cases hsheet : s.sheet? title with
  | none =>
    obtain ⟨log, hlog⟩ := exec_sheet?_none hsheet
    rw [hlog]
    exact settled_of_eq rfl rfl rfl
  | some sheet =>
    rw [exec_sheet? hsheet]
    simp only
    split
    · next merged hmerged =>
      refine settled_const (sheet?_eq_some hsheet).2 (sheet.merge?_title hmerged) fun p hp => ?_
      rcases sheet.covered_merge? hmerged hp with h | h
      · exact .inl (hb p h)
      · exact .inr h
    · exact settled_of_eq rfl rfl rfl

theorem leads_settled_copyBlock (r : CellRef) : Leads Settled (FillHost.copyBlock r r) := by
  intro s
  rw [FillHost.copyBlock, exec_bind, exec_get]
  simp only
  split
  · next size hsize =>
    split
    · refine leads_settled_merge fun p hp => ?_
      obtain ⟨sheet, hsheet, hblock⟩ := Option.bind_eq_some_iff.1 hsize
      obtain ⟨b, hmem, hfirst, rfl⟩ := SheetSnapshot.block?_spec hblock
      refine ⟨sheet, hsheet, b, hmem, ?_⟩
      rw [← hfirst, ← b.eq_of_size] at hp
      exact hp
    · exact settled_of_eq rfl rfl rfl
  · exact settled_of_eq rfl rfl rfl

theorem leads_settled_unmergeAll (title : String) (sheet : Sheet) (p : Block → Bool) :
    Leads Settled (unmergeAll title sheet p) := by
  refine leads_forM fun b _ s => ?_
  rw [exec_bind, exec_get]
  simp only
  split
  · exact settled_of_eq rfl rfl rfl
  · next sheet hfind =>
    have hunmerged : Settled s (s.onSheet title fun _ => (sheet.unmerge b).1) :=
      settled_const hfind rfl fun _ hq => .inr (sheet.covered_unmerge hq)
    rw [exec_bind, exec_onSheet]
    simp only
    split <;> exact hunmerged

theorem leads_settled_clearArea (a : AreaRef) : Leads Settled (clearArea a) := by
  refine (leads_sheet? _).bind fun s? => ?_
  cases s? with
  | none => exact leads_pure _
  | some sheet =>
    refine (leads_settled_unmergeAll _ _ _).bind fun _ => leads_forM fun p _ => ?_
    exact leads_clearCell _ fun _ => settled_of_eq rfl rfl rfl

end FillM

theorem History.of_modify (hist : History) (o x : CellRef) (f : Copies → Copies) :
    (hist.modify o f).of x = if x = o then f (hist.of o) else hist.of x := by
  have horder : CellRef.order o x = .eq ↔ x = o :=
    Std.LawfulEqCmp.compare_eq_iff_eq.trans eq_comm
  rw [of, modify, Std.TreeMap.getElem?_insert]
  simp only [horder]
  split
  · rfl
  · rfl

def FillHost.Plain (h : FillHost) (T : Template) (r : CellRef) : Prop :=
  ∀ info formula, T.cell? r = some info → info.activeFormula? = some formula →
    h.expressionText? (.text formula) = none

namespace FillState

structure Placed (h : FillHost) (T : Template) (copies : List CellCopy) (s t : FillState) :
    Prop where
  targets : ∀ x, t.history.targets x = s.history.targets x ++
    (copies.filter fun c => c.origin == x && (T.cell? c.origin).isSome).map CellCopy.target
  formulas : ∀ x, h.Plain T x → (t.history.of x).formulas = (s.history.of x).formulas

variable {h : FillHost} {T : Template}

theorem placed_nil_of_eq {s t : FillState} (heq : t.history = s.history) : Placed h T [] s t :=
  ⟨fun x => by rw [heq, List.filter_nil, List.map_nil, List.append_nil], fun x _ => by rw [heq]⟩

theorem Placed.append {copies more : List CellCopy} {s t u : FillState}
    (hst : Placed h T copies s t) (htu : Placed h T more t u) : Placed h T (copies ++ more) s u := by
  refine ⟨fun x => ?_, fun x hx => (htu.formulas x hx).trans (hst.formulas x hx)⟩
  rw [htu.targets, hst.targets, List.filter_append, List.map_append, List.append_assoc]

instance : IsPreorder FillState (Placed h T []) where
  refl _ := placed_nil_of_eq rfl
  trans _ _ _ hst htu := hst.append htu

instance : Writable (Placed h T []) where
  sheet _ _ _ _ := placed_nil_of_eq rfl
  written _ _ := placed_nil_of_eq rfl
  images _ _ _ := placed_nil_of_eq rfl
  context _ _ := placed_nil_of_eq rfl
  streams _ _ := placed_nil_of_eq rfl
  log _ _ := placed_nil_of_eq rfl

theorem placed_note {o : CellRef} {f : Copies → Copies} (htargets : ∀ c, (f c).targets = c.targets)
    (hformulas : h.Plain T o → ∀ c, (f c).formulas = c.formulas) (s : FillState) :
    Placed h T [] s (FillHost.note o f s) := by
  refine ⟨fun x => ?_, fun x hx => ?_⟩
  · rw [FillHost.note, History.targets, History.of_modify, List.filter_nil, List.map_nil,
      List.append_nil]
    split
    · next hxo => rw [htargets, hxo, History.targets]
    · rfl
  · rw [FillHost.note, History.of_modify]
    split
    · next hxo =>
      subst hxo
      exact hformulas hx _
    · rfl

end FillState

namespace FillHost

variable {h : FillHost} {T : Template} {s t : FillState} {o target : CellRef}

theorem placed_copyHeld {info : CellInfo} (hinfo : T.cell? o = some info) (c : Cell) :
    Leads (Placed h T []) (h.copyHeld o target c info) := by
  refine h.leads_copyHeld _ _ _ _ (fun formula hactive hmarked v s => ?_) (fun v s => ?_)
  · refine placed_note (f := fun x => x.setFormula target v) (fun _ => rfl) (fun hplain _ => ?_) s
    rw [hplain info formula hinfo hactive] at hmarked
    cases hmarked
  · exact placed_note (f := fun x => { x with result := v }) (fun _ => rfl) (fun _ _ => rfl) s

theorem copyOver_placed {info : CellInfo} (hinfo : s.template.cell? o = some info)
    (ht : s.Takes target) (hr : exec (h.copyOver o target true) s = (.ok (), t)) :
    Placed h s.template [⟨o, target⟩] s t := by
  obtain ⟨sheet, hsheet⟩ := Option.isSome_iff_exists.1 ht.sheet
  obtain ⟨c?, u, hopen, hr⟩ := bind_eq_ok.1 hr
  obtain ⟨-, rfl, hu⟩ := open?_eq_ok_of_free hsheet ht.covers hopen
  have htemplate : u.template = s.template := by rw [hu]; rfl
  obtain ⟨_, v, hget, hr⟩ := bind_eq_ok.1 hr
  cases hget
  rw [htemplate, hinfo] at hr
  obtain ⟨_, s₁, hput, hr⟩ := bind_eq_ok.1 hr
  obtain ⟨_, s₂, hsizes, hr⟩ := bind_eq_ok.1 hr
  obtain ⟨_, s₃, hheld, hr⟩ := bind_eq_ok.1 hr
  obtain ⟨_, s₄, hblock, hr⟩ := bind_eq_ok.1 hr
  have h₁ : Placed h s.template [] s s₁ :=
    trans_of _ ((leads_open? target).apply hopen) ((leads_putCell _ _).apply hput)
  have h₂ : Placed h s.template [] s₁ s₃ :=
    trans_of _ ((leads_copySizes _ _ _).apply hsizes) ((placed_copyHeld hinfo _).apply hheld)
  have hmerge : ∀ title b, Leads (Placed h s.template []) (merge title b) :=
    leads_merge fun _ _ => placed_nil_of_eq rfl
  have h₃ : Placed h s.template [] s₃ s₄ := (leads_copyBlock hmerge o target).apply hblock
  have h₄ : Placed h s.template [⟨o, target⟩] s₄ t := by
    cases hr
    refine ⟨fun x => ?_, fun x hx => ?_⟩
    · rw [History.targets, History.of_modify]
      split
      · next hxo =>
        subst hxo
        simp [Copies.addTarget, History.targets, hinfo]
      · next hxo =>
        simp [History.targets, Ne.symm hxo]
    · rw [History.of_modify]
      split
      · next hxo =>
        subst hxo
        rfl
      · rfl
  exact ((h₁.append h₂).append h₃).append h₄

theorem copyOver_blank (hinfo : s.template.cell? o = none)
    (hr : exec (h.copyOver o target true) s = (.ok (), t)) :
    Placed h s.template [⟨o, target⟩] s t := by
  have hnil : Placed h s.template [] s t := by
    obtain ⟨c?, u, hopen, hr⟩ := bind_eq_ok.1 hr
    have h₁ : Placed h s.template [] s u := (leads_open? target).apply hopen
    have h₂ : Settled s u := (leads_open? target).apply hopen
    refine trans_of _ h₁ ?_
    cases c? with
    | none =>
      cases hr
      exact placed_nil_of_eq rfl
    | some c =>
      obtain ⟨_, v, hget, hr⟩ := bind_eq_ok.1 hr
      cases hget
      rw [h₂.template, hinfo] at hr
      exact (leads_copyNothing target c).apply hr
  refine ⟨fun x => ?_, hnil.formulas⟩
  rw [hnil.targets, List.filter_nil, List.filter_cons_of_neg, List.filter_nil]
  simp only [hinfo, Option.isSome_none, Bool.and_false, Bool.false_eq_true, not_false_eq_true]

theorem leads_settled_copyOver (r : CellRef) : Leads Settled (h.copyOver r r true) := by
  refine (leads_open? r).bind fun c? => ?_
  cases c? with
  | none => exact leads_pure _
  | some c =>
    refine leads_get.bind fun s => ?_
    split
    · exact leads_copyNothing _ _
    · next info _ =>
      refine (leads_putCell _ _).bind fun _ => (leads_copySizes _ _ _).bind fun _ => ?_
      have hheld : ∀ c, Leads Settled (h.copyHeld r r c info) := fun c =>
        h.leads_copyHeld _ _ _ _ (fun _ _ _ _ _ => settled_of_eq rfl rfl rfl)
          fun _ _ => settled_of_eq rfl rfl rfl
      refine (hheld _).bind fun _ => (leads_settled_copyBlock r).bind fun _ => ?_
      exact leads_modify fun _ => settled_of_eq rfl rfl rfl

end FillHost

namespace Area

variable {h : FillHost} {s t : FillState}

theorem isAllowed_unseen (hp : h.Passive) (c : CellCopy) (listeners : List Nat) :
    Leads Unseen (isAllowed h c listeners) := by
  induction listeners with
  | nil => exact leads_pure _
  | cons l rest ih =>
    refine (hp.before l c.origin c.target).bind fun allowed => ?_
    split
    · exact ih
    · exact leads_pure _

theorem placed_of_unseen {T : Template} (hu : s.Unseen t) : Placed h T [] s t :=
  placed_nil_of_eq hu.history

theorem copyCell_placed (hp : h.Passive) {listeners : List Nat} {c : CellCopy}
    (hover : ∀ u v, u.template = s.template →
      exec (h.copyOver c.origin c.target true) u = (.ok (), v) → Settled u v)
    (hfree : (s.template.cell? c.origin).isSome = true → s.Free c.target)
    (hr : exec (copyCell h listeners c) s = (.ok (), t)) :
    Settled s t ∧ Placed h s.template [c] s t := by
  obtain ⟨_, s₁, h₁, hr⟩ := bind_eq_ok.1 hr
  obtain ⟨allowed, s₂, h₂, hr⟩ := bind_eq_ok.1 hr
  have hpermits : Permits h listeners := fun l _ => hp.permits l
  rw [isAllowed_eq_true hpermits h₂] at hr
  obtain ⟨_, s₃, h₃, hr⟩ := bind_eq_ok.1 hr
  have hbefore : Unseen s s₂ := by
    cases h₁
    have := (isAllowed_unseen hp _ _).apply h₂
    exact ⟨this.book, this.template, this.history, this.deleted⟩
  have hafter : Unseen s₃ t := by
    have : Leads Unseen (listeners.forM fun l => h.after l c.origin c.target) :=
      leads_forM fun l _ => hp.after l c.origin c.target
    exact this.apply hr
  obtain ⟨_, u, hrecord, hcopy⟩ := bind_eq_ok.1 h₃
  cases hrecord
  have hjournal : Unseen s { s₂ with journal := Write.copy c.origin c.target :: s₂.journal } :=
    ⟨hbefore.book, hbefore.template, hbefore.history, hbefore.deleted⟩
  have hsettled : Settled s s₃ :=
    trans_of Settled hjournal.settled (hover _ _ hjournal.template hcopy)
  have hplaced : Placed h s.template [c] s s₃ := by
    have htemplate := hjournal.template
    refine (placed_of_unseen hjournal).append ?_
    rw [← htemplate]
    cases hinfo : s.template.cell? c.origin with
    | none => exact FillHost.copyOver_blank (htemplate ▸ hinfo) hcopy
    | some info =>
      have hstands := (hfree (by rw [hinfo]; rfl)).mono hjournal.settled
      exact FillHost.copyOver_placed (htemplate ▸ hinfo) hstands.takes hcopy
  refine ⟨trans_of Settled hsettled hafter.settled, ?_⟩
  have hlast : Placed h s.template [] s₃ t := placed_of_unseen hafter
  have := hplaced.append hlast
  rwa [List.append_nil] at this

theorem copyAll_placed (hp : h.Passive) {f : Frame} {copies : List CellCopy}
    (hover : ∀ c ∈ copies, ∀ u v, u.template = s.template →
      exec (h.copyOver c.origin c.target true) u = (.ok (), v) → Settled u v)
    (hfree : ∀ c ∈ copies, (s.template.cell? c.origin).isSome = true → s.Free c.target)
    (hr : exec (copyAll h f copies) s = (.ok (), t)) :
    Settled s t ∧ Placed h s.template copies s t := by
  induction copies generalizing s with
  | nil =>
    cases hr
    exact ⟨settled_of_eq rfl rfl rfl, placed_nil_of_eq rfl⟩
  | cons c rest ih =>
    obtain ⟨_, u, hcopy, hr⟩ := bind_eq_ok.1 hr
    obtain ⟨hover, hovers⟩ := List.forall_mem_cons.1 hover
    obtain ⟨hfree, hfrees⟩ := List.forall_mem_cons.1 hfree
    obtain ⟨hsettled, hplaced⟩ := copyCell_placed hp hover hfree hcopy
    rw [← hsettled.template] at hovers hfrees
    obtain ⟨hsettled', hplaced'⟩ := ih hovers (fun d hd hpop => (hfrees d hd hpop).mono hsettled) hr
    rw [hsettled.template] at hplaced'
    exact ⟨trans_of Settled hsettled hsettled', hplaced.append hplaced'⟩

theorem rows_in_place (start : CellRef) (size : Size) (listeners : List Nat) :
    Frame.rows ⟨start, size, listeners, start⟩ start.row size.height 0 (fun _ => false) =
      (size.cellsFrom start).map fun r => ⟨r, r⟩ := by
  have hall : ∀ l : List Nat, l.filter (fun _ => !false) = l := fun l => List.filter_true l
  simp only [Frame.rows, Size.cellsFrom, hall, List.map_flatMap, List.map_map, Int.add_zero]
  rfl

theorem replay_in_place (hp : h.Passive) {a : Area} (hcommands : a.bindings = []) (hs : s.Sound)
    {size : Size} (hr : exec (a.replay h a.start) s = (.ok size, t)) :
    Settled s t ∧ Placed h s.template (a.cells.map fun r => ⟨r, r⟩) s t := by
  obtain ⟨start, size, bindings, listeners, bound⟩ := a
  subst hcommands
  rw [replay] at hr
  split at hr
  · cases hr
  obtain ⟨_, u, hu, hr⟩ := bind_eq_ok.1 hr
  cases hr
  rw [rows_in_place] at hu
  refine copyAll_placed hp (fun c hc u v _ hover => ?_) (fun c hc hpop => ?_) hu
  · obtain ⟨r, -, rfl⟩ := List.mem_map.1 hc
    exact (h.leads_settled_copyOver r).apply hover
  · obtain ⟨r, -, rfl⟩ := List.mem_map.1 hc
    obtain ⟨info, hinfo⟩ := Option.isSome_iff_exists.1 hpop
    exact hs r info hinfo

end Area

end SheetTemplate
