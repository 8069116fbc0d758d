import SheetTemplate.Proofs.Area.Twins
import SheetTemplate.Proofs.Fill.Renewing

namespace SheetTemplate

open FillM FillState

theorem FillState.spoils_of_extends {later : List Area} (s t : FillState) (h : Extends s t) :
    Spoils (Apart later) s t :=
  h.spoils

namespace FillM

variable {α : Type} {w : Renewal} {later : List Area} {blind P : CellRef → Prop}
  {Good : FillState → Prop} {s s' t t' : FillState} {r : CellRef}

theorem Inward.agree {m : FillM α} (hm : Inward m) : Agree Good (Aligned w later blind) Eq m m := by
  intro s s' a a' t t' h hr hr' _
  obtain ⟨out, c, st, hs, hs'⟩ := hm s s' h.context h.streams
  rw [hs] at hr
  rw [hs'] at hr'
  cases hr
  cases hr'
  exact ⟨h.settle rfl rfl rfl rfl rfl rfl rfl h.history rfl rfl, rfl⟩

theorem agree_of_frames {β : Type} {m : FillM α} {m' : FillM β} (hm : Leads (Frames P) m)
    (hm' : Leads (Frames P) m') (hP : ∀ r, P r → blind r) :
    AgreeOn Good (Aligned w later blind) m m' := by
  intro s s' a a' t t' h hr hr' _
  exact ⟨h.frames (hm.apply hr) (hm'.apply hr') hP, trivial⟩

theorem agree_log (level : LogLevel) (source text text' : String) :
    AgreeOn Good (Aligned w later blind) (log level source text) (log level source text') :=
  agree_of_frames (P := fun _ => False) (confined_log (fun _ => False) _ _ _)
    (confined_log (fun _ => False) _ _ _) fun _ => False.elim

theorem agree_note (origin : CellRef) (f : Copies → Copies) :
    AgreeOn Good (Aligned w later blind) (modify (FillHost.note origin f))
      (modify (FillHost.note origin f)) := by
  intro s s' _ _ t t' h hr hr' _
  cases hr
  cases hr'
  refine ⟨h.settle rfl rfl rfl rfl rfl rfl rfl ?_ h.context h.streams, trivial⟩
  rw [FillHost.note, FillHost.note, h.history]

theorem agree_binding {Q : α → α → Prop} {m m' : FillM α} (name : String) (index? : Option String)
    (item : Value) (index : Option Value)
    (hm : Agree (Apart later) (Aligned w later blind) Q m m') :
    Agree (Apart later) (Aligned w later blind) Q (binding name index? item index m)
      (binding name index? item index m') := by
  intro s s' a a' t t' h hr hr' hg
  obtain ⟨u, hu, rfl⟩ := binding_eq_ok hr
  obtain ⟨u', hu', rfl⟩ := binding_eq_ok hr'
  rw [h.context] at hu' ⊢
  have hbegin : Aligned w later blind
      { s with context := (Guard.open s.context name index?).set s.context item index }
      { s' with context := (Guard.open s.context name index?).set s.context item index } :=
    h.settle rfl rfl rfl rfl rfl rfl rfl h.history rfl h.streams
  obtain ⟨hend, hq⟩ := hm _ _ a a' u u' hbegin hu hu' ⟨hg.copies, hg.blocks⟩
  refine ⟨hend.settle rfl rfl rfl rfl rfl rfl rfl hend.history ?_ hend.streams, hq⟩
  rw [hend.context]

theorem agree_write {m : FillM Unit} {x : Write} {Q : Cell → Prop} (hx : x.target = r)
    (hframes : Leads (Frames (· = r)) m) (hsame : ∀ c d, Q c → Q d → c.Alike d)
    (hwrite : ∀ s t, s.deleted = [] → exec m s = (.ok (), t) → x ∈ t.journal ∧
      ((s.book.face? r = none ∧ t.book.face? r = none) ∨
        ∃ c d, s.book.face? r = some c ∧ Q d ∧ t.book.face? r = some d.content)) :
    AgreeOn Good (Aligned w later fun _ => False) m m := by
  intro s s' _ _ t t' h hr hr' _
  refine ⟨?_, trivial⟩
  obtain ⟨hmem, hface⟩ := hwrite s t h.deleted hr
  obtain ⟨-, hface'⟩ := hwrite s' t' h.deleted' hr'
  have hblind : Aligned w later (· = r) t t' :=
    (h.blinded fun _ => False.elim).frames (hframes.apply hr) (hframes.apply hr') fun _ h => h
  have htargets : t.Targets r := ⟨x, hmem, hx⟩
  apply hblind.met
  by_cases hr : Outside later r ∨ ¬ w.template.Hides r
  · have hnone := (h.faces r id).covered hr
    apply Renewal.Meets.of_eq htargets
    rcases hface with ⟨hs, ht⟩ | ⟨c, d, hs, hd, ht⟩
    · rcases hface' with ⟨-, ht'⟩ | ⟨c', d', hs', -, -⟩
      · rw [ht, ht']
      · rw [hnone.2 hs] at hs'
        cases hs'
    · rcases hface' with ⟨hs', -⟩ | ⟨c', d', -, hd', ht'⟩
      · rw [hnone.1 hs'] at hs
        cases hs
      · rw [ht, ht', (hsame d d' hd hd').content]
  · rw [not_or] at hr
    exact .of_later hr.1 fun hnot => absurd hnot hr.2

theorem agree_setValue (r : CellRef) (v : Value) (font? : Option Font) :
    AgreeOn Good (Aligned w later fun _ => False) (setValue r v font?) (setValue r v font?) := by
  refine agree_write (r := r) (x := .value r v) rfl
    (confined_setValue (P := (· = r)) rfl v font? (frames_write rfl)) ?_ fun s t => setValue_face
  rintro c d ⟨_, hc⟩ ⟨_, hd⟩
  exact Cell.write?_alike hc hd

theorem agree_setFormula (r : CellRef) (formula : String) :
    AgreeOn Good (Aligned w later fun _ => False) (setFormula r formula) (setFormula r formula) := by
  refine agree_write (r := r) (x := .formula r formula) rfl
    (confined_setFormula (P := (· = r)) rfl formula (frames_write rfl)) ?_ fun s t => setFormula_face
  rintro c d ⟨_, hc⟩ ⟨_, hd⟩
  exact Cell.put?_alike hc hd

theorem agree_merge (title : String) (b : Block) :
    AgreeOn (Apart later) (Aligned w later blind) (merge title b) (merge title b) :=
  fun _ _ _ _ _ _ h hr hr' hg => ⟨h.merge hg.blocks hr hr', trivial⟩

end FillM

namespace FillHost

variable {h : FillHost} {w : Renewal} {later : List Area} {blind : CellRef → Prop}
  {Good : FillState → Prop} {s s' t t' : FillState} {origin r : CellRef} {c c' : Cell}
  {info : CellInfo}

theorem copyNothing_face (hface : s.book.face? r = some c.content)
    (hr : exec (copyNothing r c) s = (.ok (), t)) : t.book.face? r = some {} := by
  unfold copyNothing at hr
  split at hr
  · next hvalue =>
    cases hr
    rw [hface, Cell.content, hvalue]
  · exact putCell_face (Workbook.find?_of_face? hface) hr

theorem agree_text (origin : CellRef) (text : String) :
    Agree Good (Aligned w later blind) Eq (atCell origin (h.evaluateText text))
      (atCell origin (h.evaluateText text)) :=
  ((inward_evaluateText h text).mapFailure _).agree

theorem agree_formulaFor (origin target : CellRef) (formula : String) :
    Agree Good (Aligned w later blind) Eq (h.formulaFor origin target formula)
      (h.formulaFor origin target formula) := by
  apply Agree.of_true
  unfold formulaFor
  split
  · exact agree_pure rfl
  · refine (agree_text origin _).bind ?_ fun _ => leads_spoils_true _
    rintro v _ rfl
    exact (agree_note _ _).bind (fun _ _ _ => agree_pure rfl) fun _ => leads_spoils_true _

-- The cells that are put in the two fills need not be equal: fonts, links and comments may differ.
theorem aligned_putOr {old old' d d' : Cell} {c? c?' : Option Cell}
    (ha : Aligned w later (· = r) s s') (hs : (s.book.find? r.sheet).isSome = true)
    (halike : ∀ x x', c? = some x → c?' = some x' → x.Alike x')
    (hr : exec (putOr r old c?) s = (.ok d, t)) (hr' : exec (putOr r old' c?') s' = (.ok d', t')) :
    Aligned w later (· = r) t t' ∧ d.Alike d' ∧ t.book.face? r = some d.content ∧
      t'.book.face? r = t.book.face? r := by
  have hs' : (s'.book.find? r.sheet).isSome = true := by rwa [ha.find?_isSome]
  obtain ⟨hd, hface⟩ := putOr_face hs hr
  obtain ⟨hd', hface'⟩ := putOr_face hs' hr'
  have hframes : ∀ (x : Cell) x?, Leads (Frames (· = r)) (putOr r x x?) := fun x x? =>
    confined_putOr (P := (· = r)) rfl x x?
  have hsame := halike d d' hd hd'
  refine ⟨ha.frames ((hframes _ _).apply hr) ((hframes _ _).apply hr') fun _ h => h, hsame, hface, ?_⟩
  rw [hface, hface', hsame.content]

theorem aligned_copyFormula (ha : Aligned w later (· = r) s s') {formula : String}
    (hs : (s.book.find? r.sheet).isSome = true)
    (hr : exec (h.copyFormula origin r c formula) s = (.ok (), t))
    (hr' : exec (h.copyFormula origin r c' formula) s' = (.ok (), t')) :
    Aligned w later (· = r) t t' ∧ t'.book.face? r = t.book.face? r := by
  obtain ⟨text, u, hu, hr⟩ := bind_eq_ok.1 hr
  obtain ⟨text', u', hu', hr'⟩ := bind_eq_ok.1 hr'
  obtain ⟨ha, rfl⟩ := (agree_formulaFor origin r formula).ends ha hu hu'
  have hformula : Leads Extends (h.formulaFor origin r formula) :=
    h.leads_formulaFor _ _ _ fun _ _ _ => extends_of_book (fun _ h => h) rfl rfl rfl rfl rfl
  have hfind : (u.book.find? r.sheet).isSome = true := by
    rwa [Workbook.find?_isSome_iff (hformula.apply hu).titles]
  obtain ⟨d, hput⟩ := discard_eq_ok hr
  obtain ⟨d', hput'⟩ := discard_eq_ok hr'
  obtain ⟨ha, -, -, hface⟩ :=
    aligned_putOr ha hfind (fun _ _ hx hx' => Cell.put?_alike hx hx') hput hput'
  exact ⟨ha, hface⟩

theorem aligned_copyValue (ha : Aligned w later (· = r) s s')
    (hs : (s.book.find? r.sheet).isSome = true)
    (hr : exec (h.copyValue origin r c info) s = (.ok (), t))
    (hr' : exec (h.copyValue origin r c' info) s' = (.ok (), t')) :
    Aligned w later (· = r) t t' ∧ t'.book.face? r = t.book.face? r := by
  unfold copyValue at hr hr'
  split at hr
  · next text htext =>
    rw [htext] at hr'
    obtain ⟨v, u, hu, hr⟩ := bind_eq_ok.1 hr
    obtain ⟨v', u', hu', hr'⟩ := bind_eq_ok.1 hr'
    obtain ⟨ha, rfl⟩ := (agree_text origin text).ends ha hu hu'
    have hask : Leads Extends (atCell origin (h.evaluateText text)) :=
      leads_atCell (FillHost.Asks.evaluateText text) _
    have hfind : (u.book.find? r.sheet).isSome = true := by
      rwa [Workbook.find?_isSome_iff (hask.apply hu).titles]
    obtain ⟨_, x, hx, hr⟩ := bind_eq_ok.1 hr
    obtain ⟨_, x', hx', hr'⟩ := bind_eq_ok.1 hr'
    obtain ⟨hnoted, -⟩ := (agree_note origin fun x => { x with result := v }).ends ha hx hx'
    cases hx
    obtain ⟨d, hput⟩ := discard_eq_ok hr
    obtain ⟨d', hput'⟩ := discard_eq_ok hr'
    obtain ⟨ha, -, -, hface⟩ :=
      aligned_putOr hnoted hfind (fun _ _ hx hx' => Cell.write?_alike hx hx') hput hput'
    exact ⟨ha, hface⟩
  · next htext =>
    rw [htext] at hr'
    obtain ⟨d, u, hput, hr⟩ := bind_eq_ok.1 hr
    obtain ⟨d', u', hput', hr'⟩ := bind_eq_ok.1 hr'
    obtain ⟨ha, halike, hshown, hface⟩ :=
      aligned_putOr ha hs (fun _ _ hx hx' => Cell.put?_alike hx hx') hput hput'
    split at hr
    · next url hurl =>
      rw [hurl] at hr'
      obtain ⟨e, hlink⟩ := discard_eq_ok hr
      obtain ⟨e', hlink'⟩ := discard_eq_ok hr'
      obtain ⟨ha, -, -, hface⟩ := aligned_putOr ha (Workbook.find?_of_face? hshown)
        (fun _ _ hx hx' => Cell.setLink?_alike halike hx hx') hlink hlink'
      exact ⟨ha, hface⟩
    · next hurl =>
      rw [hurl] at hr'
      cases hr
      cases hr'
      exact ⟨ha, hface⟩

theorem aligned_copyHeld (ha : Aligned w later (· = r) s s')
    (hs : (s.book.find? r.sheet).isSome = true)
    (hr : exec (h.copyHeld origin r c info) s = (.ok (), t))
    (hr' : exec (h.copyHeld origin r c' info) s' = (.ok (), t')) :
    Aligned w later (· = r) t t' ∧ t'.book.face? r = t.book.face? r := by
  unfold copyHeld at hr hr'
  cases hformula : info.activeFormula? with
  | some formula =>
    rw [hformula] at hr hr'
    exact aligned_copyFormula ha hs hr hr'
  | none =>
    rw [hformula] at hr hr'
    exact aligned_copyValue ha hs hr hr'

theorem agree_copyBlock (origin target : CellRef) :
    AgreeOn (Apart later) (Aligned w later blind) (copyBlock origin target)
      (copyBlock origin target) := by
  intro s s' _ _ t t' ha hr hr' hg
  obtain ⟨_, u, hget, hr⟩ := bind_eq_ok.1 hr
  obtain ⟨_, u', hget', hr'⟩ := bind_eq_ok.1 hr'
  cases hget
  cases hget'
  rw [ha.template', ← ha.template] at hr'
  refine ⟨?_, trivial⟩
  split at hr
  · next size hsize =>
    rw [hsize] at hr'
    dsimp only at hr'
    split at hr
    · next hne =>
      rw [if_pos hne] at hr'
      exact ha.merge hg.blocks hr hr'
    · next heq =>
      rw [if_neg heq] at hr'
      cases hr
      cases hr'
      exact ha
  · next hnone =>
    rw [hnone] at hr'
    cases hr
    cases hr'
    exact ha

theorem aligned_copyInfo {withHeight : Bool} (ha : Aligned w later (· = r) s s')
    (hs : (s.book.find? r.sheet).isSome = true) (ht : s.Targets r)
    (hr : exec (h.copyInfo origin r c info withHeight) s = (.ok (), t))
    (hr' : exec (h.copyInfo origin r c' info withHeight) s' = (.ok (), t')) (hg : t.Apart later) :
    Aligned w later (fun _ => False) t t' := by
  obtain ⟨_, s₁, h₁, hr⟩ := bind_eq_ok.1 hr
  obtain ⟨_, s₂, h₂, hr⟩ := bind_eq_ok.1 hr
  obtain ⟨_, s₃, h₃, hr⟩ := bind_eq_ok.1 hr
  obtain ⟨_, s₄, h₄, hr⟩ := bind_eq_ok.1 hr
  obtain ⟨_, s₁', h₁', hr'⟩ := bind_eq_ok.1 hr'
  obtain ⟨_, s₂', h₂', hr'⟩ := bind_eq_ok.1 hr'
  obtain ⟨_, s₃', h₃', hr'⟩ := bind_eq_ok.1 hr'
  obtain ⟨_, s₄', h₄', hr'⟩ := bind_eq_ok.1 hr'
  have hput : ∀ d, Leads (Frames (· = r)) (putCell r d) := fun d =>
    confined_putCell (P := (· = r)) rfl d
  have hsizes : Leads (Frames (· = r)) (copySizes origin r withHeight) :=
    confined_copySizes (· = r) origin r withHeight
  have hframes := trans_of (Frames (· = r)) ((hput _).apply h₁) (hsizes.apply h₂)
  have hframes' := trans_of (Frames (· = r)) ((hput _).apply h₁') (hsizes.apply h₂')
  have hfind : (s₂.book.find? r.sheet).isSome = true := by
    rwa [Workbook.find?_isSome_iff hframes.titles]
  obtain ⟨hheld, hface⟩ :=
    aligned_copyHeld (ha.frames hframes hframes' fun _ h => h) hfind h₃ h₃'
  have hkept : Leads Extends (h.copyHeld origin r { c with font? := info.font?.or c.font? } info) :=
    h.leads_copyHeld _ _ _ _ (fun _ _ _ _ _ => extends_of_book (fun _ h => h) rfl rfl rfl rfl rfl)
      fun _ _ => extends_of_book (fun _ h => h) rfl rfl rfl rfl rfl
  have htargets : s₃.Targets r :=
    (ht.mono fun _ => hframes.grown.mem).mono (hkept.apply h₃).journal
  have hmet := hheld.met (.of_eq htargets hface)
  have hg₄ : s₄.Apart later := by
    cases hr
    exact ⟨hg.copies, hg.blocks⟩
  have hmerged := (agree_copyBlock origin r _ _ _ _ _ _ hmet h₄ h₄' hg₄).1
  exact ((agree_note origin fun x => x.addTarget r).ends hmerged hr hr').1

theorem agree_copy (h : FillHost) (origin r : CellRef) (withHeight : Bool) :
    AgreeOn (Apart later) (Aligned w later fun _ => False) (h.copy origin r withHeight)
      (h.copy origin r withHeight) := by
  intro s s' _ _ t t' ha hr hr' hg
  refine ⟨?_, trivial⟩
  have hmem : .copy origin r ∈ t.journal := by
    rw [h.copy_journal hr]
    exact List.mem_cons_self
  have hkept : Leads Extends (h.copy origin r withHeight) :=
    h.leads_copy leads_extends_merge _ _ _ (fun s => extends_write s _) fun _ _ =>
      extends_of_book (fun _ h => h) rfl rfl rfl rfl rfl
  -- The target lies in no area that is still to be cleared, since the end of the copy is good.
  have hplace := hg.copies origin r hmem
  rw [(hkept.apply hr).template, ha.template] at hplace
  have hnone := (ha.faces r id).covered hplace
  obtain ⟨_, s₁, h₁, hr⟩ := bind_eq_ok.1 hr
  obtain ⟨_, s₁', h₁', hr'⟩ := bind_eq_ok.1 hr'
  cases h₁
  cases h₁'
  have hrecord : ∀ u : FillState, Frames (· = r) u { u with journal := .copy origin r :: u.journal } :=
    frames_write (P := (· = r)) rfl
  have ha : Aligned w later (· = r) { s with journal := .copy origin r :: s.journal }
      { s' with journal := .copy origin r :: s'.journal } :=
    (ha.blinded fun _ => False.elim).frames (hrecord s) (hrecord s') fun _ h => h
  have htargets : FillState.Targets { s with journal := .copy origin r :: s.journal } r :=
    ⟨_, List.mem_cons_self, rfl⟩
  have hskip : ∀ x, False → x = r := fun _ => False.elim
  -- The target is open in both fills or covered in both.
  rcases open?_cases ha.deleted hr with ⟨hs, hframes⟩ | ⟨c, u, hs, hframes, hu, hr⟩
  · rcases open?_cases ha.deleted' hr' with ⟨hs', hframes'⟩ | ⟨c', u', hs', -, -, -⟩
    · refine (ha.frames hframes hframes' hskip).met (.of_eq (htargets.mono ?_) ?_)
      · exact fun _ => hframes.grown.mem
      · rw [hframes.face r id, hframes'.face r id, hs, hs']
    · rw [hnone.2 hs] at hs'
      cases hs'
  · rcases open?_cases ha.deleted' hr' with ⟨hs', -⟩ | ⟨c', u', hs', hframes', hu', hr'⟩
    · rw [hnone.1 hs'] at hs
      cases hs
    · have ha := ha.frames hframes hframes' hskip
      have htargets := htargets.mono fun _ => hframes.grown.mem
      obtain ⟨_, v, hget, hr⟩ := bind_eq_ok.1 hr
      obtain ⟨_, v', hget', hr'⟩ := bind_eq_ok.1 hr'
      cases hget
      cases hget'
      rw [ha.template', ← ha.template] at hr'
      cases hinfo : u.template.cell? origin with
      | none =>
        rw [hinfo] at hr hr'
        have hblank : ∀ d, Leads (Frames (· = r)) (copyNothing r d) := by
          intro d
          unfold copyNothing
          split
          · exact leads_pure _
          · exact confined_putCell (P := (· = r)) rfl _
        have ha := ha.frames ((hblank c).apply hr) ((hblank c').apply hr') fun _ h => h
        refine ha.met (.of_eq (htargets.mono ?_) ?_)
        · exact fun _ => ((hblank c).apply hr).grown.mem
        · rw [copyNothing_face hu hr, copyNothing_face hu' hr']
      | some info =>
        rw [hinfo] at hr hr'
        exact aligned_copyInfo ha (Workbook.find?_of_face? hu) htargets hr hr' hg

end FillHost

namespace FillM

variable {w : Renewal} {later : List Area} {blind : CellRef → Prop} {Good : FillState → Prop}

theorem agree_addImage (r : CellRef) (v : Value) (scaleX scaleY : Float) :
    AgreeOn Good (Aligned w later blind) (addImage r v scaleX scaleY) (addImage r v scaleX scaleY) := by
  intro s s' _ _ t t' h hr hr' _
  refine ⟨?_, trivial⟩
  have hsome : (s'.sheet? r.sheet).isSome = (s.sheet? r.sheet).isSome := by
    rw [sheet?_of_deleted h.deleted, sheet?_of_deleted h.deleted', h.find?_isSome]
  rcases addImage_cases hr with ⟨hs, hnone⟩ | ⟨hsheet, i, hlook, hs⟩
  · rcases addImage_cases hr' with ⟨hs', -⟩ | ⟨hsheet', -⟩
    · exact h.frames (frames_of_remarked hs) (frames_of_remarked hs') fun _ => False.elim
    · rw [hsome, hnone rfl] at hsheet'
      cases hsheet'
  · rcases addImage_cases hr' with ⟨-, hnone'⟩ | ⟨-, i', hlook', hs'⟩
    · rw [← hsome, hnone' rfl] at hsheet
      cases hsheet
    · rw [hlook] at hlook'
      exact h.pictured hs hs' (Option.some.inj hlook').symm

end FillM

namespace FillHost.Stateless

variable {h : FillHost} {w : Renewal} {later : List Area} {blind : CellRef → Prop}
  {Good : FillState → Prop}

theorem agree_before (hh : h.Stateless) (l : Nat) (origin target : CellRef) :
    Agree Good (Aligned w later blind) Eq (h.before l origin target) (h.before l origin target) := by
  intro s s' a a' t t' ha hr hr' _
  have hframes : ∀ {u v : FillState} {b}, exec (h.before l origin target) u = (b, v) →
      Frames (fun _ => False) u v := fun hu => frames_of_remarked ((hh.before _ _ _).apply hu)
  exact ⟨ha.frames (hframes hr) (hframes hr') fun _ => False.elim,
    (hh.allows _ _ _ _ _ _ _ _ _ ha.context hr hr').symm⟩

theorem agree_after (hh : h.Stateless) (l : Nat) (origin target : CellRef) :
    AgreeOn Good (Aligned w later blind) (h.after l origin target) (h.after l origin target) :=
  agree_of_frames (P := fun _ => False) ((hh.after _ _ _).mono fun _ _ => frames_of_remarked)
    ((hh.after _ _ _).mono fun _ _ => frames_of_remarked) fun _ => False.elim

theorem agree_isAllowed (hh : h.Stateless) (c : CellCopy) (listeners : List Nat) :
    Agree Good (Aligned w later blind) Eq (Area.isAllowed h c listeners)
      (Area.isAllowed h c listeners) := by
  apply Agree.of_true
  induction listeners with
  | nil => exact agree_pure rfl
  | cons l rest ih =>
    refine (hh.agree_before _ _ _).bind ?_ fun _ => leads_spoils_true _
    rintro allowed _ rfl
    split
    · exact ih
    · exact agree_pure rfl

theorem agree_copyCell (hh : h.Stateless) (listeners : List Nat) (origin r : CellRef) :
    AgreeOn (Apart later) (Aligned w later fun _ => False) (Area.copyCell h listeners ⟨origin, r⟩)
      (Area.copyCell h listeners ⟨origin, r⟩) := by
  have hs : h.Steps (Command.Stays True) (Spoils (Apart later)) := hh.steps spoils_of_extends
  have hafter : Leads (Spoils (Apart later)) (listeners.forM fun l => h.after l origin r) :=
    leads_forM fun l _ => hs.after _ _ _
  have hafters : AgreeOn (Apart later) (Aligned w later fun _ => False)
      (listeners.forM fun l => h.after l origin r) (listeners.forM fun l => h.after l origin r) :=
    agree_forM (List.forall₂_same.2 fun l _ => hh.agree_after _ _ _) fun l => hs.after _ _ _
  have hplace : Agree (Apart later) (Aligned w later fun _ => False) Eq
      (onContext fun c => c.place r) (onContext fun c => c.place r) := (inward_onContext _).agree
  refine hplace.bind (fun _ _ _ => ?_) fun _ => ?_
  · refine (hh.agree_isAllowed _ _).bind ?_ fun allowed => ?_
    · rintro allowed _ rfl
      split
      · exact (FillHost.agree_copy h origin r true).bind (fun _ _ _ => hafters) fun _ => hafter
      · exact hafters
    · split
      · exact (hs.copy _ _).bind fun _ => hafter
      · exact hafter
  · refine (hs.isAllowed _ _).bind fun allowed => ?_
    split
    · exact (hs.copy _ _).bind fun _ => hafter
    · exact hafter

theorem updateCell_covered (hh : h.Stateless) {n : Nat} {r : CellRef} {s t : FillState}
    (hd : s.deleted = []) (hr : exec (Updater.updateCell h n r) s = (.ok (), t)) :
    t.book.face? r = none ↔ s.book.face? r = none := by
  obtain ⟨before, u, hu, hr⟩ := bind_eq_ok.1 hr
  obtain ⟨after, v, hv, hr⟩ := bind_eq_ok.1 hr
  have hsu : Frames (fun _ => False) s u := (confined_outputCell (fun _ => False) r).apply hu
  have huv : Frames (fun _ => False) u v := frames_of_remarked ((hh.update _ _ _).apply hv)
  rw [← hsu.face r id, ← huv.face r id]
  have hdeleted : v.deleted = [] := by rw [huv.deleted, hsu.deleted, hd]
  have hface : ∀ {Q : Cell → Prop}, ((v.book.face? r = none ∧ t.book.face? r = none) ∨
      ∃ c d, v.book.face? r = some c ∧ Q d ∧ t.book.face? r = some d.content) →
        (t.book.face? r = none ↔ v.book.face? r = none) := by
    rintro Q (⟨hnone, hnone'⟩ | ⟨c, d, hsome, -, hsome'⟩)
    · rw [hnone, hnone']
    · simp [hsome, hsome']
  split at hr
  · cases hr
    exact Iff.rfl
  · split at hr
    · exact hface (setFormula_face hdeleted hr).2
    · exact hface (setValue_face hdeleted hr).2

theorem agree_updateCell (hh : h.Stateless)
    (hrenewed : ∀ r, Outside w.roots r → w.cleared.face? r = w.fresh.face? r) (n : Nat) (r : CellRef) :
    AgreeOn Good (Aligned w later fun _ => False) (Updater.updateCell h n r)
      (Updater.updateCell h n r) := by
  apply Agree.of_true
  have hframes : Leads (Frames (· = r)) (Updater.updateCell h n r) := by
    refine (confined_outputCell (· = r) r).bind fun before => ?_
    refine Leads.bind ((hh.update _ _ _).mono fun _ _ => frames_of_remarked) fun after => ?_
    split
    · exact leads_pure _
    · split
      · exact confined_setFormula (P := (· = r)) rfl _ (frames_write rfl)
      · exact confined_setValue (P := (· = r)) rfl _ _ (frames_write rfl)
  intro s s' _ _ t t' ha hr hr' _
  -- Outside of the areas to be cleared the updater is told the same in both fills.
  by_cases hout : Outside later r
  · have hface : s'.book.face? r = s.book.face? r := by
      rcases (ha.faces r id).eq_or hout with hsame | ⟨-, hroots, hfresh, hcleared⟩
      · exact hsame
      · rw [← hfresh, ← hcleared, hrenewed r hroots]
    obtain ⟨before, s₁, h₁, hr⟩ := bind_eq_ok.1 hr
    obtain ⟨before', s₁', h₁', hr'⟩ := bind_eq_ok.1 hr'
    obtain ⟨after, s₂, h₂, hr⟩ := bind_eq_ok.1 hr
    obtain ⟨after', s₂', h₂', hr'⟩ := bind_eq_ok.1 hr'
    have htold := outputCell_matches ha.deleted h₁
    have htold' := outputCell_matches ha.deleted' h₁'
    rw [hface] at htold'
    have hbefore : before.Matches before' := htold.trans htold'
    have houtput : ∀ {u v : FillState} {i}, exec (outputCell r) u = (i, v) →
        Frames (fun _ => False) u v := fun hu => (confined_outputCell (fun _ => False) r).apply hu
    have hasked : ∀ {u v : FillState} {i out}, exec (h.update n i r) u = (out, v) →
        Frames (fun _ => False) u v := fun hu => frames_of_remarked ((hh.update _ _ _).apply hu)
    have ha₁ := ha.frames (houtput h₁) (houtput h₁') fun _ => False.elim
    have ha₂ := ha₁.frames (hasked h₂) (hasked h₂') fun _ => False.elim
    have hafter := hh.makes _ _ _ _ _ _ _ _ _ _ ha₁.context hbefore h₂ h₂'
    have hformula : after'.activeFormula? = after.activeFormula? := by
      rw [CellInfo.activeFormula?, hafter.formula?, CellInfo.activeFormula?]
    rw [hafter.value, hafter.formula?, hbefore.value, hbefore.formula?, hformula] at hr'
    split at hr
    · next hsame =>
      rw [if_pos hsame] at hr'
      cases hr
      cases hr'
      exact ⟨ha₂, trivial⟩
    · next hchanged =>
      rw [if_neg hchanged] at hr'
      split at hr
      · next f hf =>
        rw [hf] at hr'
        exact (agree_setFormula r f).ends ha₂ hr hr'
      · next hf =>
        rw [hf] at hr'
        exact (agree_setValue r _ none).ends ha₂ hr hr'
  · -- What is written there is not looked at before the area is cleared.
    have hblind : Aligned w later (· = r) t t' :=
      (ha.blinded fun _ => False.elim).frames (hframes.apply hr) (hframes.apply hr') fun _ h => h
    refine ⟨hblind.met (.of_later hout fun hnot => ?_), trivial⟩
    rw [hh.updateCell_covered ha.deleted hr, hh.updateCell_covered ha.deleted' hr']
    exact (ha.faces r id).covered (.inr hnot)

end FillHost.Stateless

theorem FillHost.Stateless.twins {h : FillHost} (hh : h.Stateless) {updates : Prop} (w : Renewal)
    (later : List Area)
    (hrenewed : updates → ∀ r, Outside w.roots r → w.cleared.face? r = w.fresh.face? r) :
    h.Twins (Command.Stays updates) (Apart later) Eq (fun _ => True)
      (Aligned w later fun _ => False) where
  steps := hh.steps spoils_of_extends
  offset := by
    rintro r _ rfl i j
    rfl
  log := agree_log
  bind name index? item i m m' _ hm := agree_binding name index? item _ hm
  copy := by
    rintro listeners origin r _ rfl
    exact hh.agree_copyCell listeners origin r
  font := by
    intro inner? row col s s' font? font?' t t' ha hr hr' _
    cases inner? with
    | none =>
      cases hr
      cases hr'
      exact ⟨ha, rfl⟩
    | some inner =>
      cases hr
      cases hr'
      refine ⟨ha, ?_⟩
      rw [ha.template', ha.template]
  value := by
    rintro r _ rfl v font?
    exact agree_setValue r v font?
  merge := by
    rintro m - r _ rfl i j
    exact agree_merge _ _
  height := by
    rintro r _ rfl i
    exact agree_of_frames (P := fun _ => False) (confined_clearRowHeight (fun _ => False) _ _)
      (confined_clearRowHeight (fun _ => False) _ _) fun _ => False.elim
  resolve e he := ⟨he, (EachSpec.inward_resolve h e).agree.mono fun _ _ hsame => ⟨hsame.symm, fun _ _ => trivial⟩⟩
  condition c _ := (inward_isTrue h _ _ _).agree
  grid g _ := ⟨(GridSpec.inward_itemsOf h _ _).agree, (GridSpec.inward_itemsOf h _ _).agree⟩
  image := by
    rintro i - r _ rfl
    have hs : h.Steps (Command.Stays True) (Spoils (Apart later)) := hh.steps spoils_of_extends
    refine (inward_evaluate h _ _ _).agree.bind ?_ fun v => ?_
    · rintro v _ rfl
      split
      · exact (agree_log _ _ _ _).bind (fun _ _ _ => agree_pure rfl) fun _ => leads_pure _
      · split
        · exact (agree_addImage _ _ _ _).bind (fun _ _ _ => agree_pure rfl) fun _ => leads_pure _
        · exact (agree_addImage _ _ _ _).bind (fun _ _ _ => agree_pure rfl) fun _ => leads_pure _
        · exact agree_throw _ _
    · split
      · exact (hs.log _ _ _).bind fun _ => leads_pure _
      · split
        · exact (hs.image _ _ _ _).bind fun _ => leads_pure _
        · exact (hs.image _ _ _ _).bind fun _ => leads_pure _
        · exact leads_throw _
  dimension m _ replayed :=
    ⟨(MergeSpec.inward_dimension h _ _ _).agree, (MergeSpec.inward_dimension h _ _ _).agree⟩
  updater name hupdates := by
    refine ⟨Eq, (Updater.inward_resolve name).agree, ?_⟩
    rintro id _ rfl r _ rfl
    exact hh.agree_updateCell (hrenewed hupdates) id r
  hosted _ hc := hc.elim

end SheetTemplate
