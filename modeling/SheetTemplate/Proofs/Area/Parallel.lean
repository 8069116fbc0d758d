import SheetTemplate.Proofs.Area.Copying
import SheetTemplate.Proofs.Area.Twins
import SheetTemplate.Proofs.Fill.Parallel

namespace SheetTemplate

open FillM FillState

namespace FillHost

variable {T : Template} {V : Value → Prop} {f : Footprint} {s s' t t' : FillState}
  {origin r : CellRef} {c c' : Cell} {info : CellInfo} {h : FillHost}

theorem parallels_text {text : String}
    (hq : SheetTemplate.Definite V (fun m => h.evaluator.evaluateText h.marks m text) fun v =>
      (v.stored, v.shown)) :
    Parallels T V f (fun v v' => (v'.stored, v'.shown) = (v.stored, v.shown))
      (atCell origin (h.evaluateText text)) (atCell origin (h.evaluateText text)) :=
  (((answers_names _).mapFailure _).parallels hq)

theorem parallels_note (origin : CellRef) {p p' : Copies → Copies}
    (hp : ∀ c c' : Copies, c.Alike c' → (p c).Alike (p' c')) :
    Parallels T V f (fun _ _ => True) (modify (note origin p)) (modify (note origin p')) := by
  intro s s' _ _ t t' hR hr hr' _
  cases hr
  cases hr'
  exact ⟨hR.noted origin hp, trivial⟩

theorem parallels_formulaFor {formula : String}
    (hq : ∀ text, h.expressionText? (.text formula) = some text →
      SheetTemplate.Definite V (fun m => h.evaluator.evaluateText h.marks m text) fun v =>
        (v.stored, v.shown)) :
    Parallels T V f Eq (h.formulaFor origin r formula) (h.formulaFor origin r formula) := by
  unfold formulaFor
  split
  · exact agree_pure rfl
  · next text htext =>
    refine (parallels_text (hq text htext)).bind (fun v v' hv => ?_) fun _ => leads_spoils_true _
    have hshown : v'.shown = v.shown := congrArg Prod.snd hv
    refine (parallels_note origin fun x x' hx => ?_).bind (fun _ _ _ => agree_pure hshown.symm)
      fun _ => leads_spoils_true _
    refine ⟨hx.targets, ?_⟩
    rw [hshown, Copies.setFormula, Copies.setFormula, hx.formulas]

theorem putOr_parallel {old old' d d' : Cell} {c? c?' : Option Cell}
    (hR : Parallel T V (f.except r) s s') (hfind : (s.book.find? r.sheet).isSome = true)
    (hsame : f.cells r → ∀ x x', c? = some x → c?' = some x' → x'.settled = x.settled)
    (hr : exec (putOr r old c?) s = (.ok d, t)) (hr' : exec (putOr r old' c?') s' = (.ok d', t')) :
    Parallel T V (f.except r) t t' ∧ (f.cells r → d'.settled = d.settled) ∧
      (t.book.find? r.sheet).isSome = true ∧
      (f.cells r → t'.book.look? r = t.book.look? r) := by
  have hfind' : (s'.book.find? r.sheet).isSome = true := by
    rwa [Workbook.find?_isSome_iff hR.titles]
  obtain ⟨hd, hlook⟩ := putOr_look hfind hr
  obtain ⟨hd', hlook'⟩ := putOr_look hfind' hr'
  have htouches : ∀ (x : Cell) x?, Leads (Touches (· = r)) (putOr r x x?) := fun x x? =>
    confined_putOr (P := (· = r)) rfl x x?
  have hsettled : f.cells r → d'.settled = d.settled := fun hcells => hsame hcells d d' hd hd'
  refine ⟨hR.wrote ((htouches _ _).apply hr) ((htouches _ _).apply hr'), hsettled,
    Workbook.find?_of_look? hlook, fun hcells => ?_⟩
  rw [hlook, hlook', hsettled hcells]

theorem find?_kept {α : Type} {m : FillM α} {u v : FillState} {a : Except Failure α} {title : String}
    (hm : Leads Extends m) (hr : exec m u = (a, v)) (hfind : (u.book.find? title).isSome = true) :
    (v.book.find? title).isSome = true := by
  rwa [Workbook.find?_isSome_iff (hm.apply hr).titles]

theorem copyFormula_parallel {formula : String} (hR : Parallel T V (f.except r) s s')
    (hq : ∀ text, h.expressionText? (.text formula) = some text →
      SheetTemplate.Definite V (fun m => h.evaluator.evaluateText h.marks m text) fun v =>
        (v.stored, v.shown))
    (hc : f.cells r → c'.settled = c.settled) (hfind : (s.book.find? r.sheet).isSome = true)
    (hr : exec (h.copyFormula origin r c formula) s = (.ok (), t))
    (hr' : exec (h.copyFormula origin r c' formula) s' = (.ok (), t')) :
    Parallel T V (f.except r) t t' ∧ (f.cells r → t'.book.look? r = t.book.look? r) := by
  obtain ⟨text, u, hu, hr⟩ := bind_eq_ok.1 hr
  obtain ⟨text', u', hu', hr'⟩ := bind_eq_ok.1 hr'
  obtain ⟨hR, rfl⟩ := (parallels_formulaFor hq).ends hR hu hu'
  have hkept : Leads Extends (h.formulaFor origin r formula) :=
    h.leads_formulaFor _ _ _ fun _ _ _ => extends_of_book (fun _ h => h) rfl rfl rfl rfl rfl
  obtain ⟨d, hput⟩ := discard_eq_ok hr
  obtain ⟨d', hput'⟩ := discard_eq_ok hr'
  obtain ⟨hR, -, -, hlook⟩ := putOr_parallel hR (find?_kept hkept hu hfind)
    (fun hcells _ _ hx hx' => Cell.settled_put? (hc hcells) hx hx') hput hput'
  exact ⟨hR, hlook⟩

theorem copyValue_parallel (hR : Parallel T V (f.except r) s s')
    (hq : ∀ text, h.expressionText? info.value = some text →
      SheetTemplate.Definite V (fun m => h.evaluator.evaluateText h.marks m text) fun v =>
        (v.stored, v.shown))
    (hc : f.cells r → c'.settled = c.settled) (hfind : (s.book.find? r.sheet).isSome = true)
    (hr : exec (h.copyValue origin r c info) s = (.ok (), t))
    (hr' : exec (h.copyValue origin r c' info) s' = (.ok (), t')) :
    Parallel T V (f.except r) t t' ∧ (f.cells r → t'.book.look? r = t.book.look? r) := by
  unfold copyValue at hr hr'
  split at hr
  · next text htext =>
    rw [htext] at hr'
    obtain ⟨v, u, hu, hr⟩ := bind_eq_ok.1 hr
    obtain ⟨v', u', hu', hr'⟩ := bind_eq_ok.1 hr'
    obtain ⟨hR, hv⟩ := (parallels_text (hq text htext)).ends hR hu hu'
    have hstored : v'.stored = v.stored := congrArg Prod.fst hv
    have hkept : Leads Extends (atCell origin (h.evaluateText text)) :=
      leads_atCell (FillHost.Asks.evaluateText text) _
    obtain ⟨_, x, hx, hr⟩ := bind_eq_ok.1 hr
    obtain ⟨_, x', hx', hr'⟩ := bind_eq_ok.1 hr'
    have hnote : Parallels T V (f.except r) (fun _ _ => True)
        (modify (note origin fun x => { x with result := v }))
        (modify (note origin fun x => { x with result := v' })) :=
      parallels_note origin fun x x' hx => ⟨hx.targets, hx.formulas⟩
    have hR := (hnote.ends hR hx hx').1
    have hfind := find?_kept hkept hu hfind
    cases hx
    obtain ⟨d, hput⟩ := discard_eq_ok hr
    obtain ⟨d', hput'⟩ := discard_eq_ok hr'
    obtain ⟨hR, -, -, hlook⟩ := putOr_parallel hR hfind
      (fun hcells _ _ hx hx' => Cell.settled_write? (hc hcells) hstored hx hx') hput hput'
    exact ⟨hR, hlook⟩
  · next htext =>
    rw [htext] at hr'
    obtain ⟨d, u, hput, hr⟩ := bind_eq_ok.1 hr
    obtain ⟨d', u', hput', hr'⟩ := bind_eq_ok.1 hr'
    obtain ⟨hR, hd, hfind, hlook⟩ := putOr_parallel hR hfind
      (fun hcells _ _ hx hx' => Cell.settled_put? (hc hcells) hx hx') hput hput'
    split at hr
    · next url hurl =>
      rw [hurl] at hr'
      obtain ⟨e, hlink⟩ := discard_eq_ok hr
      obtain ⟨e', hlink'⟩ := discard_eq_ok hr'
      obtain ⟨hR, -, -, hlook⟩ := putOr_parallel hR hfind
        (fun hcells _ _ hx hx' => Cell.settled_setLink? (hd hcells) hx hx') hlink hlink'
      exact ⟨hR, hlook⟩
    · next hurl =>
      rw [hurl] at hr'
      cases hr
      cases hr'
      exact ⟨hR, hlook⟩

theorem copyHeld_parallel (hR : Parallel T V (f.except r) s s')
    (hq : ∀ text, h.expressionText? info.source = some text →
      SheetTemplate.Definite V (fun m => h.evaluator.evaluateText h.marks m text) fun v =>
        (v.stored, v.shown))
    (hc : f.cells r → c'.settled = c.settled) (hfind : (s.book.find? r.sheet).isSome = true)
    (hr : exec (h.copyHeld origin r c info) s = (.ok (), t))
    (hr' : exec (h.copyHeld origin r c' info) s' = (.ok (), t')) :
    Parallel T V (f.except r) t t' ∧ (f.cells r → t'.book.look? r = t.book.look? r) := by
  unfold copyHeld at hr hr'
  rw [CellInfo.source] at hq
  cases hformula : info.activeFormula? with
  | some formula =>
    rw [hformula] at hr hr' hq
    exact copyFormula_parallel hR hq hc hfind hr hr'
  | none =>
    rw [hformula] at hr hr' hq
    exact copyValue_parallel hR hq hc hfind hr hr'

theorem copyInfo_parallel {withHeight : Bool} (hT : T.Bare) (hR : Parallel T V f s s')
    (hq : ∀ text, h.expressionText? info.source = some text →
      SheetTemplate.Definite V (fun m => h.evaluator.evaluateText h.marks m text) fun v =>
        (v.stored, v.shown))
    (hc : f.cells r → c'.settled = c.settled) (hfind : (s.book.find? r.sheet).isSome = true)
    (hr : exec (h.copyInfo origin r c info withHeight) s = (.ok (), t))
    (hr' : exec (h.copyInfo origin r c' info withHeight) s' = (.ok (), t')) :
    Parallel T V f t t' := by
  obtain ⟨_, s₁, h₁, hr⟩ := bind_eq_ok.1 hr
  obtain ⟨_, s₂, h₂, hr⟩ := bind_eq_ok.1 hr
  obtain ⟨_, s₃, h₃, hr⟩ := bind_eq_ok.1 hr
  obtain ⟨_, s₄, h₄, hr⟩ := bind_eq_ok.1 hr
  obtain ⟨_, s₁', h₁', hr'⟩ := bind_eq_ok.1 hr'
  obtain ⟨_, s₂', h₂', hr'⟩ := bind_eq_ok.1 hr'
  obtain ⟨_, s₃', h₃', hr'⟩ := bind_eq_ok.1 hr'
  obtain ⟨_, s₄', h₄', hr'⟩ := bind_eq_ok.1 hr'
  have hput : ∀ d, Leads (Touches (· = r)) (putCell r d) := fun d =>
    confined_putCell (P := (· = r)) rfl d
  have hsizes : Leads (Touches (· = r)) (copySizes origin r withHeight) :=
    confined_copySizes (· = r) origin r withHeight
  have htouches := trans_of (Touches (· = r)) ((hput _).apply h₁) (hsizes.apply h₂)
  have htouches' := trans_of (Touches (· = r)) ((hput _).apply h₁') (hsizes.apply h₂')
  obtain ⟨hheld, hlook⟩ := copyHeld_parallel ((hR.without r).wrote htouches htouches') hq
    (fun hcells => Cell.settled_withFont (hc hcells) info.font?)
    (by rwa [Workbook.find?_isSome_iff htouches.titles]) h₃ h₃'
  have hmet := hheld.met hlook
  -- Nothing is merged, since the template has no merged blocks.
  have hblock : ∀ {u : FillState}, u.Level T V → exec (copyBlock origin r) u = (.ok (), u) :=
    fun hu => copyBlock_unmerged r fun x hx => hT origin.sheet x (by rwa [hu.template] at hx)
  rw [hblock hmet.left] at h₄
  rw [hblock hmet.right] at h₄'
  cases h₄
  cases h₄'
  refine ((parallels_note origin fun x x' hx => ?_).ends hmet hr hr').1
  refine ⟨?_, hx.formulas⟩
  rw [Copies.addTarget, Copies.addTarget, hx.targets]

theorem copyNothing_look (hc : c'.settled = c.settled) (hfind : (s.book.find? r.sheet).isSome = true)
    (hfind' : (s'.book.find? r.sheet).isSome = true) (hlook : s'.book.look? r = s.book.look? r)
    (hr : exec (copyNothing r c) s = (.ok (), t)) (hr' : exec (copyNothing r c') s' = (.ok (), t')) :
    t'.book.look? r = t.book.look? r := by
  obtain ⟨hvalue, -, hrest⟩ := Cell.settled_eq_iff.1 hc
  unfold copyNothing at hr hr'
  cases hheld : c.value with
  | null =>
    rw [hheld] at hr
    rw [hvalue, hheld] at hr'
    cases hr
    cases hr'
    exact hlook
  | _ =>
    rw [hheld] at hr
    rw [hvalue, hheld] at hr'
    rw [putCell_look hfind hr, putCell_look hfind' hr']
    exact congrArg some (Cell.settled_eq_iff.2 ⟨rfl, rfl, hrest⟩)

theorem parallels_copy (hT : T.Bare) (hq : h.Definite V T) (origin r : CellRef) (withHeight : Bool) :
    Parallels T V f (fun _ _ => True) (h.copy origin r withHeight) (h.copy origin r withHeight) := by
  intro s s' _ _ t t' hR hr hr' _
  refine ⟨?_, trivial⟩
  obtain ⟨_, u, hu, hr⟩ := bind_eq_ok.1 hr
  obtain ⟨_, u', hu', hr'⟩ := bind_eq_ok.1 hr'
  cases hu
  cases hu'
  have hrecorded := hR.touched (touches_write s (.copy origin r)) (touches_write s' (.copy origin r))
  rcases open?_parallel hrecorded hr hr' with hend | ⟨c, c', u, u', hu, hc, hfind, hfind', hr, hr'⟩
  · exact hend
  obtain ⟨_, v, hget, hr⟩ := bind_eq_ok.1 hr
  obtain ⟨_, v', hget', hr'⟩ := bind_eq_ok.1 hr'
  cases hget
  cases hget'
  rw [hu.left.template] at hr
  rw [hu.right.template] at hr'
  cases hinfo : T.cell? origin with
  | some info =>
    rw [hinfo] at hr hr'
    exact copyInfo_parallel hT hu (fun text => hq origin info text hinfo) hc hfind hr hr'
  | none =>
    rw [hinfo] at hr hr'
    have hblank : ∀ d, Leads (Touches (· = r)) (copyNothing r d) := fun d =>
      confined_copyNothing (P := (· = r)) rfl d
    refine ((hu.without r).wrote ((hblank c).apply hr) ((hblank c').apply hr')).met fun hcells => ?_
    exact copyNothing_look (hc hcells) hfind hfind' (hu.looks r hcells) hr hr'

end FillHost

namespace FillHost.Memoryless

variable {T : Template} {V : Value → Prop} {f : Footprint} {h : FillHost}

theorem parallels_before (hh : h.Memoryless) (l : Nat) (origin target : CellRef) :
    Parallels T V f Eq (h.before l origin target) (h.before l origin target) := by
  intro s s' a a' t t' hR hr hr' _
  refine ⟨hR.touched ?_ ?_, (hh.allows _ _ _ _ _ _ _ _ _ hR.data hR.run hr hr').symm⟩
  · exact touches_of_remarked ((hh.before _ _ _).apply hr)
  · exact touches_of_remarked ((hh.before _ _ _).apply hr')

theorem parallels_isAllowed (hh : h.Memoryless) (c : CellCopy) (listeners : List Nat) :
    Parallels T V f Eq (Area.isAllowed h c listeners) (Area.isAllowed h c listeners) := by
  induction listeners with
  | nil => exact agree_pure rfl
  | cons l rest ih =>
    refine (hh.parallels_before _ _ _).bind ?_ fun _ => leads_spoils_true _
    rintro allowed _ rfl
    split
    · exact ih
    · exact agree_pure rfl

theorem parallels_copyCell (hh : h.Memoryless) (hT : T.Bare) (hq : h.Definite V T)
    (hV : ∀ i, V (.int i)) (listeners : List Nat) (c : CellCopy) :
    Parallels T V f (fun _ _ => True) (Area.copyCell h listeners c) (Area.copyCell h listeners c) := by
  have hplace : Parallels T V f (fun _ _ => True) (onContext fun x => x.place c.target)
      (onContext fun x => x.place c.target) := by
    intro s s' _ _ t t' hR hr hr' _
    cases hr
    cases hr'
    exact ⟨hR.placed hV c.target, trivial⟩
  have hafters : Parallels T V f (fun _ _ => True)
      (listeners.forM fun l => h.after l c.origin c.target)
      (listeners.forM fun l => h.after l c.origin c.target) := by
    refine agree_forM (List.forall₂_same.2 fun l _ => ?_) fun _ => leads_spoils_true _
    exact parallels_of_touched ((hh.after _ _ _).mono fun _ _ => touches_of_remarked)
      ((hh.after _ _ _).mono fun _ _ => touches_of_remarked)
  refine hplace.bind (fun _ _ _ => ?_) fun _ => leads_spoils_true _
  refine (hh.parallels_isAllowed c listeners).bind ?_ fun _ => leads_spoils_true _
  rintro allowed _ rfl
  split
  · exact (FillHost.parallels_copy hT hq c.origin c.target true).bind (fun _ _ _ => hafters)
      fun _ => leads_spoils_true _
  · exact hafters

theorem parallels_updateCell (hh : h.Memoryless) (n : Nat) (r : CellRef) :
    Parallels T V f (fun _ _ => True) (Updater.updateCell h n r) (Updater.updateCell h n r) := by
  have htouches : Leads (Touches (· = r)) (Updater.updateCell h n r) := by
    refine (confined_outputCell (· = r) r).bind fun before => ?_
    refine Leads.bind ((hh.update _ _ _).mono fun _ _ => touches_of_remarked) fun after => ?_
    split
    · exact leads_pure _
    · split
      · exact confined_setFormula (P := (· = r)) rfl _ fun s => touches_write s _
      · exact confined_setValue (P := (· = r)) rfl _ _ fun s => touches_write s _
  intro s s' _ _ t t' hR hr hr' _
  by_cases hcells : f.cells r
  · obtain ⟨before, s₁, h₁, hr⟩ := bind_eq_ok.1 hr
    obtain ⟨before', s₁', h₁', hr'⟩ := bind_eq_ok.1 hr'
    obtain ⟨after, s₂, h₂, hr⟩ := bind_eq_ok.1 hr
    obtain ⟨after', s₂', h₂', hr'⟩ := bind_eq_ok.1 hr'
    have hbefore : before'.settled = before.settled := by
      rw [outputCell_settled hR.left.deleted h₁, outputCell_settled hR.right.deleted h₁',
        hR.looks r hcells]
    have hR₁ := hR.touched ((confined_outputCell (fun _ => False) r).apply h₁)
      ((confined_outputCell (fun _ => False) r).apply h₁')
    have hR₂ := hR₁.touched (touches_of_remarked ((hh.update _ _ _).apply h₂))
      (touches_of_remarked ((hh.update _ _ _).apply h₂'))
    obtain ⟨hvalue, hformula⟩ := hh.makes _ _ _ _ _ _ _ _ _ _ hR₁.data hR₁.run hbefore h₂ h₂'
    have hactive : after'.activeFormula? = after.activeFormula? := by
      rw [CellInfo.activeFormula?, hformula, CellInfo.activeFormula?]
    have hbvalue : before'.value = before.value := (congrArg CellInfo.value hbefore :)
    have hbformula : before'.formula? = before.formula? := (congrArg CellInfo.formula? hbefore :)
    rw [hvalue, hformula, hbvalue, hbformula, hactive] at hr'
    split at hr
    · next hsame =>
      rw [if_pos hsame] at hr'
      cases hr
      cases hr'
      exact ⟨hR₂, trivial⟩
    · next hchanged =>
      rw [if_neg hchanged] at hr'
      split at hr
      · next g hg =>
        rw [hg] at hr'
        exact (parallels_setFormula r g).ends hR₂ hr hr'
      · next hg =>
        rw [hg] at hr'
        exact (parallels_setValue r _ none).ends hR₂ hr hr'
  · refine ⟨hR.touches (htouches.apply hr) (htouches.apply hr') ?_, trivial⟩
    rintro x rfl
    exact hcells

theorem twins (hh : h.Memoryless) (hT : T.Bare) (hq : h.Definite V T) (hV : ∀ i, V (.int i))
    (f : Footprint) :
    h.Twins (Command.Definite h V) (fun _ => True) Eq V (Parallel T V f) where
  steps := .of_total fun _ _ _ => trivial
  offset := by
    rintro r _ rfl i j
    rfl
  log _ _ _ _ := parallels_of_touched (confined_log (fun _ => False) _ _ _)
    (confined_log (fun _ => False) _ _ _)
  bind name index? item i m m' hv hm := parallels_binding name index? hv (hV i) hm
  copy := by
    rintro listeners origin r _ rfl
    exact hh.parallels_copyCell hT hq hV listeners ⟨origin, r⟩
  font := parallels_font
  value := by
    rintro r _ rfl v font?
    exact parallels_setValue r v font?
  merge _ hm := hm.elim
  height := by
    rintro r _ rfl i
    exact parallels_of_touched (confined_clearRowHeight (fun _ => False) _ _)
      (confined_clearRowHeight (fun _ => False) _ _)
  resolve _ he := ⟨he.1, parallels_resolve he.2.1 he.2.2⟩
  condition _ hc := ((answers_isTrue h _ _ _).parallels hc).mono fun _ _ heq => heq.symm
  grid _ hg := ⟨((GridSpec.answers_itemsOf h _ _).parallels hg.1).mono fun _ _ heq => heq.symm,
    ((GridSpec.answers_itemsOf h _ _).parallels hg.2).mono fun _ _ heq => heq.symm⟩
  image := by
    rintro i - r _ rfl
    exact parallels_image i r
  dimension _ hm := hm.elim
  updater name _ := by
    refine ⟨Eq, parallels_updater name, ?_⟩
    rintro id _ rfl r _ rfl
    exact hh.parallels_updateCell id r
  hosted _ hc := hc.elim

end FillHost.Memoryless

end SheetTemplate
