import SheetTemplate.Proofs.Command.Answers
import SheetTemplate.Proofs.Fill.Agreeing
import SheetTemplate.Proofs.Fill.Touching

/-!
Two fills of one template at one moment, in workbooks that differ elsewhere. When names mean the same
and no answer depends on what is left of streams, a write that is made in both leaves the cells in
agreement that agreed before.
-/

namespace SheetTemplate

open FillM FillState

def Meaning.AllIn (V : Value → Prop) (m : Meaning) : Prop := ∀ n v, m n = some v → V v

namespace Meaning.AllIn

variable {V : Value → Prop} {m : Meaning}

theorem bind (h : m.AllIn V) (n : String) {v : Value} (hv : V v) : (m.bind n v).AllIn V := by
  intro x w hw
  rw [Meaning.bind] at hw
  split at hw
  · cases hw
    exact hv
  · exact h x w hw

theorem item (h : m.AllIn V) (e : EachSpec) {v i : Value} (hv : V v) (hi : V i) :
    (m.item e v (some i)).AllIn V := by
  unfold Meaning.item
  split
  · next hindex =>
    cases hindex
    exact (h.bind _ hv).bind _ hi
  · exact h.bind _ hv

theorem placed (h : m.AllIn V) (hV : ∀ i, V (.int i)) (r : CellRef) : (m.placed r).AllIn V :=
  (h.bind _ (hV _)).bind _ (hV _)

end Meaning.AllIn

def Definite {α β : Type} (V : Value → Prop) (q : Meaning → EvalM α) (f : α → β) : Prop :=
  ∀ m : Meaning, m.AllIn V → ∀ st st' a a' u u',
    (q m).run st = (.ok a, u) → (q m).run st' = (.ok a', u') → f a' = f a

def Command.Definite (h : FillHost) (V : Value → Prop) : Command → Prop
  | .each e => e.multisheet? = none ∧ SheetTemplate.Definite V (e.resolveIn h) id ∧
    ∀ m : Meaning, m.AllIn V → ∀ st items u, (e.resolveIn h m).run st = (.ok items, u) →
      ∀ v ∈ items, V v
  | .if condition => SheetTemplate.Definite V (fun m => h.evaluator.isTrue m condition) id
  | .grid g => SheetTemplate.Definite V (h.itemsIn g.headers) id ∧
    SheetTemplate.Definite V (h.itemsIn g.rows) id
  | .image _ | .updateCell _ | .autoRowHeight => True
  | .mergeCells _ | .hosted _ => False

def FillHost.Definite (h : FillHost) (V : Value → Prop) (T : Template) : Prop :=
  ∀ r info text, T.cell? r = some info → h.expressionText? info.source = some text →
    SheetTemplate.Definite V (fun m => h.evaluator.evaluateText h.marks m text) fun v =>
      (v.stored, v.shown)

/-- Listeners and updaters that have no memory: what they answer is told by what the names of the
moment mean and by what they are asked, and all they leave behind is remarks. -/
structure FillHost.Memoryless (h : FillHost) : Prop where
  before : ∀ l origin target, Leads Remarked (h.before l origin target)
  after : ∀ l origin target, Leads Remarked (h.after l origin target)
  update : ∀ n info r, Leads Remarked (h.update n info r)
  allows : ∀ l origin target s s' allowed allowed' t t', s'.context.data = s.context.data →
    s'.context.runVars.find? = s.context.runVars.find? →
      exec (h.before l origin target) s = (.ok allowed, t) →
        exec (h.before l origin target) s' = (.ok allowed', t') → allowed' = allowed
  makes : ∀ n info info' r s s' out out' t t', s'.context.data = s.context.data →
    s'.context.runVars.find? = s.context.runVars.find? → info'.settled = info.settled →
      exec (h.update n info r) s = (.ok out, t) → exec (h.update n info' r) s' = (.ok out', t') →
        out'.value = out.value ∧ out'.formula? = out.formula?

def Template.Bare (T : Template) : Prop :=
  ∀ title snapshot, T.sheet? title = some snapshot → snapshot.merged = []

structure Workbook.Bare (w : Workbook) : Prop where
  blocks : ∀ title, w.blocks title = []
  free : ∀ r, w.look? r = none → w.find? r.sheet = none

structure Copies.Alike (c d : Copies) : Prop where
  targets : d.targets = c.targets
  formulas : d.formulas = c.formulas

structure Footprint where
  cells : CellRef → Prop
  origins : CellRef → Prop

def Footprint.except (f : Footprint) (r : CellRef) : Footprint :=
  { f with cells := fun x => f.cells x ∧ x ≠ r }

namespace FillState

structure Level (T : Template) (V : Value → Prop) (s : FillState) : Prop where
  template : s.template = T
  deleted : s.deleted = []
  bare : s.book.Bare
  sound : s.context.Sound
  data : Meaning.AllIn V s.context.data.find?
  run : Meaning.AllIn V s.context.runVars.find?

structure Parallel (T : Template) (V : Value → Prop) (f : Footprint) (s s' : FillState) :
    Prop where
  left : s.Level T V
  right : s'.Level T V
  titles : s'.book.titles = s.book.titles
  data : s'.context.data = s.context.data
  run : s'.context.runVars.find? = s.context.runVars.find?
  looks : ∀ r, f.cells r → s'.book.look? r = s.book.look? r
  history : ∀ r, f.origins r → (s.history.of r).Alike (s'.history.of r)

variable {T : Template} {V : Value → Prop} {f g : Footprint} {P : CellRef → Prop}
  {s s' t t' u : FillState} {r : CellRef}

theorem Level.touches (h : s.Level T V) (hst : Touches P s t) : t.Level T V := by
  refine ⟨hst.template.trans h.template, hst.deleted.trans h.deleted,
    ⟨fun title => (hst.blocks title).trans (h.bare.blocks title), fun r hr => ?_⟩, ?_, ?_, ?_⟩
  · have hnone := h.bare.free r (hst.free r hr)
    have hsome := Workbook.find?_isSome_iff hst.titles r.sheet
    rwa [hnone, Option.isSome_none, Option.isSome_eq_false_iff, Option.isNone_iff_eq_none] at hsome
  · exact hst.context ▸ h.sound
  · exact hst.context ▸ h.data
  · exact hst.context ▸ h.run

theorem Level.of_context (h : s.Level T V) (htemplate : t.template = s.template)
    (hdeleted : t.deleted = s.deleted) (hbook : t.book = s.book) (hsound : t.context.Sound)
    (hdata : Meaning.AllIn V t.context.data.find?) (hrun : Meaning.AllIn V t.context.runVars.find?) :
    t.Level T V :=
  ⟨htemplate.trans h.template, hdeleted.trans h.deleted, hbook ▸ h.bare, hsound, hdata, hrun⟩

theorem Level.names (h : s.Level T V) : Meaning.AllIn V s.context.get? := by
  intro n v hv
  rw [Context.get?, Option.or_eq_some_iff] at hv
  rcases hv with hv | ⟨-, hv⟩
  · exact h.run n v hv
  · exact h.data n v hv

namespace Parallel

theorem refl (h : s.Level T V) (f : Footprint) : Parallel T V f s s :=
  ⟨h, h, rfl, rfl, rfl, fun _ _ => rfl, fun _ _ => ⟨rfl, rfl⟩⟩

theorem symm (h : Parallel T V f s s') : Parallel T V f s' s where
  left := h.right
  right := h.left
  titles := h.titles.symm
  data := h.data.symm
  run := h.run.symm
  looks r hr := (h.looks r hr).symm
  history r hr := ⟨(h.history r hr).targets.symm, (h.history r hr).formulas.symm⟩

theorem trans (h : Parallel T V f s t) (h' : Parallel T V f t u) : Parallel T V f s u where
  left := h.left
  right := h'.right
  titles := h'.titles.trans h.titles
  data := h'.data.trans h.data
  run := h'.run.trans h.run
  looks r hr := (h'.looks r hr).trans (h.looks r hr)
  history r hr := ⟨(h'.history r hr).targets.trans (h.history r hr).targets,
    (h'.history r hr).formulas.trans (h.history r hr).formulas⟩

theorem mono (h : Parallel T V f s s') (hcells : ∀ r, g.cells r → f.cells r)
    (horigins : ∀ r, g.origins r → f.origins r) : Parallel T V g s s' :=
  { h with
    looks := fun r hr => h.looks r (hcells r hr)
    history := fun r hr => h.history r (horigins r hr) }

theorem get? (h : Parallel T V f s s') : s'.context.get? = s.context.get? := by
  funext n
  rw [Context.get?, Context.get?, h.data, h.run]

theorem covered (h : Parallel T V f s s') (r : CellRef) :
    s'.book.look? r = none ↔ s.book.look? r = none := by
  have hnone : ∀ {x : FillState}, x.Level T V →
      (x.book.look? r = none ↔ (x.book.find? r.sheet).isSome = false) := by
    intro x hx
    rw [Option.isSome_eq_false_iff, Option.isNone_iff_eq_none]
    refine ⟨hx.bare.free r, fun hfind => ?_⟩
    rw [Workbook.look?, hfind]
    rfl
  rw [hnone h.left, hnone h.right, Workbook.find?_isSome_iff h.titles]

theorem touches (h : Parallel T V f s s') (hs : Touches P s t) (hs' : Touches P s' t')
    (hP : ∀ r, P r → ¬ f.cells r) : Parallel T V f t t' where
  left := h.left.touches hs
  right := h.right.touches hs'
  titles := by rw [hs'.titles, h.titles, hs.titles]
  data := by rw [hs'.context, h.data, hs.context]
  run := by rw [hs'.context, h.run, hs.context]
  looks r hr := by rw [hs'.looks r fun hp => hP r hp hr, h.looks r hr, hs.looks r fun hp => hP r hp hr]
  history r hr := by
    rw [hs.history, hs'.history]
    exact h.history r hr

theorem touched (h : Parallel T V f s s') (hs : Touches (fun _ => False) s t)
    (hs' : Touches (fun _ => False) s' t') : Parallel T V f t t' := h.touches hs hs' fun _ => False.elim

theorem without (h : Parallel T V f s s') (r : CellRef) : Parallel T V (f.except r) s s' :=
  h.mono (fun _ hx => hx.1) fun _ hx => hx

theorem met (h : Parallel T V (f.except r) s s')
    (hr : f.cells r → s'.book.look? r = s.book.look? r) : Parallel T V f s s' := by
  refine { h with looks := fun x hx => ?_ }
  by_cases hxr : x = r
  · subst hxr
    exact hr hx
  · exact h.looks x ⟨hx, hxr⟩

theorem wrote (h : Parallel T V (f.except r) s s') (hs : Touches (· = r) s t)
    (hs' : Touches (· = r) s' t') : Parallel T V (f.except r) t t' :=
  h.touches hs hs' fun _ hx hcells => hcells.2 hx

theorem renamed (h : Parallel T V f s s') {c c' : Context} (hsound : c.Sound) (hsound' : c'.Sound)
    (hdata : c.data = s.context.data) (hdata' : c'.data = s'.context.data)
    (hrun : c'.runVars.find? = c.runVars.find?) (hall : Meaning.AllIn V c.runVars.find?) :
    Parallel T V f { s with context := c } { s' with context := c' } where
  left := h.left.of_context rfl rfl rfl hsound (hdata ▸ h.left.data) hall
  right := h.right.of_context rfl rfl rfl hsound' (hdata' ▸ h.right.data) (hrun ▸ hall)
  titles := h.titles
  data := by rw [hdata', h.data, hdata]
  run := hrun
  looks := h.looks
  history := h.history

theorem placed (h : Parallel T V f s s') (hV : ∀ i, V (.int i)) (r : CellRef) :
    Parallel T V f { s with context := s.context.place r }
      { s' with context := s'.context.place r } := by
  have hplace : ∀ c : Context, (c.place r).runVars.find? = Meaning.placed c.runVars.find? r := by
    intro c
    rw [Context.place, Context.run_setRun, Context.run_setRun]
    rfl
  refine h.renamed (h.left.sound.place r) (h.right.sound.place r) rfl rfl ?_ ?_
  · rw [hplace, hplace, h.run]
  · rw [hplace]
    exact h.left.run.placed hV r

theorem asked {st st' : Streams} (h : Parallel T V f s s') (hs : Asked st s t)
    (hs' : Asked st' s' t') : Parallel T V f t t' := by
  have htemplate : ∀ {x y : FillState} {z}, Asked z x y →
      y = { x with context := y.context, streams := y.streams } := fun hx => hx.evaluated
  have hrenamed := h.renamed hs.sound hs'.sound hs.data hs'.data
    (by rw [hs'.run, h.run, hs.run]) (hs.run ▸ h.left.run)
  rw [htemplate hs, htemplate hs']
  exact { hrenamed with
    left := hrenamed.left.of_context rfl rfl rfl hrenamed.left.sound hrenamed.left.data
      hrenamed.left.run
    right := hrenamed.right.of_context rfl rfl rfl hrenamed.right.sound hrenamed.right.data
      hrenamed.right.run }

theorem noted (h : Parallel T V f s s') (origin : CellRef) {p p' : Copies → Copies}
    (hp : ∀ c c' : Copies, c.Alike c' → (p c).Alike (p' c')) :
    Parallel T V f (FillHost.note origin p s) (FillHost.note origin p' s') where
  left := h.left.of_context rfl rfl rfl h.left.sound h.left.data h.left.run
  right := h.right.of_context rfl rfl rfl h.right.sound h.right.data h.right.run
  titles := h.titles
  data := h.data
  run := h.run
  looks := h.looks
  history r hr := by
    rw [FillHost.note, FillHost.note, History.of_modify, History.of_modify]
    split
    · next heq =>
      rw [heq] at hr
      exact hp _ _ (h.history origin hr)
    · exact h.history r hr

variable (e : EachSpec) {item i : Value}

theorem opened (h : Parallel T V f s s') (hv : V item) (hi : V i) :
    Parallel T V f
      { s with context := (Guard.open s.context e.var e.varIndex?).set s.context item (some i) }
      { s' with context :=
        (Guard.open s'.context e.var e.varIndex?).set s'.context item (some i) } := by
  refine h.renamed (Guard.sound_set e item _ h.left.sound) (Guard.sound_set e item _ h.right.sound)
    (Guard.set_data e item _) (Guard.set_data e item _) ?_ ?_
  · rw [Guard.run_item, Guard.run_item, h.run]
  · rw [Guard.run_item]
    exact h.left.run.item e hv hi

theorem closed (h : Parallel T V f s s') (hu : Parallel T V f t t') :
    Parallel T V f
      { t with context := ((Guard.open s.context e.var e.varIndex?).close t.context).2 }
      { t' with context := ((Guard.open s'.context e.var e.varIndex?).close t'.context).2 } := by
  refine hu.renamed (Guard.sound_close hu.left.sound _) (Guard.sound_close hu.right.sound _)
    (Guard.close_data _ _) (Guard.close_data _ _) ?_ fun n v hv => ?_
  · funext n
    rw [Guard.run_close_eq, Guard.run_close_eq, h.run, hu.run]
  · rw [Guard.run_close_eq] at hv
    split at hv
    · exact h.left.run n v hv
    · exact hu.left.run n v hv

end Parallel

end FillState

namespace FillM

variable {α β : Type} {T : Template} {V : Value → Prop} {f : Footprint} {P : CellRef → Prop}
  {s s' t t' : FillState} {r : CellRef} {h : FillHost}

abbrev Parallels (T : Template) (V : Value → Prop) (f : Footprint) (Q : α → α → Prop)
    (m m' : FillM α) : Prop :=
  Agree (fun _ => True) (Parallel T V f) Q m m'

theorem parallels_of_touches {m m' : FillM α} (hm : Leads (Touches P) m)
    (hm' : Leads (Touches P) m') (hP : ∀ r, P r → ¬ f.cells r) :
    Parallels T V f (fun _ _ => True) m m' := by
  intro s s' a a' t t' hR hr hr' _
  exact ⟨hR.touches (hm.apply hr) (hm'.apply hr') hP, trivial⟩

theorem parallels_of_touched {m m' : FillM α} (hm : Leads (Touches fun _ => False) m)
    (hm' : Leads (Touches fun _ => False) m') : Parallels T V f (fun _ _ => True) m m' :=
  parallels_of_touches hm hm' fun _ => False.elim

theorem Answers.parallels {m : FillM α} {q : Meaning → EvalM α} {see : α → β} (hm : Answers m q)
    (hq : Definite V q see) : Parallels T V f (fun a a' => see a' = see a) m m := by
  intro s s' a a' t t' hR hr hr' _
  obtain ⟨st, ha, hasked⟩ := hm s a t hR.left.sound hr
  obtain ⟨st', ha', hasked'⟩ := hm s' a' t' hR.right.sound hr'
  rw [hR.get?] at ha'
  exact ⟨hR.asked hasked hasked', hq _ hR.left.names _ _ _ _ _ _ ha ha'⟩

theorem parallels_resolve {e : EachSpec} (hq : Definite V (e.resolveIn h) id)
    (hv : ∀ m : Meaning, m.AllIn V → ∀ st items u, (e.resolveIn h m).run st = (.ok items, u) →
      ∀ v ∈ items, V v) :
    Parallels T V f (fun items items' => items' = items ∧ ∀ v ∈ items, V v)
      (e.resolve h) (e.resolve h) := by
  intro s s' items items' t t' hR hr hr' _
  obtain ⟨hR', hsame⟩ := (EachSpec.answers_resolve.parallels hq).ends hR hr hr'
  obtain ⟨st, hitems, -⟩ := EachSpec.answers_resolve s items t hR.left.sound hr
  exact ⟨hR', hsame, hv _ hR.left.names _ _ _ hitems⟩

theorem parallels_binding {Q : α → α → Prop} (name : String) (index? : Option String)
    {item i : Value} (hv : V item) (hi : V i) {m m' : FillM α} (hm : Parallels T V f Q m m') :
    Parallels T V f Q (binding name index? item (some i) m)
      (binding name index? item (some i) m') := by
  intro s s' a a' t t' hR hr hr' _
  obtain ⟨u, hu, rfl⟩ := binding_eq_ok hr
  obtain ⟨u', hu', rfl⟩ := binding_eq_ok hr'
  let e : EachSpec := { items := "", var := name, varIndex? := index? }
  obtain ⟨hR', hq⟩ := hm.ends (hR.opened e hv hi) hu hu'
  exact ⟨hR.closed e hR', hq⟩

theorem parallels_font (inner? : Option Inner) (row col : Int) :
    Parallels T V f Eq (GridSpec.font? inner? row col) (GridSpec.font? inner? row col) := by
  intro s s' font? font?' t t' hR hr hr' _
  cases inner? with
  | none =>
    cases hr
    cases hr'
    exact ⟨hR, rfl⟩
  | some inner =>
    cases hr
    cases hr'
    refine ⟨hR, ?_⟩
    rw [hR.left.template, hR.right.template]

theorem parallels_updater (name : String) :
    Parallels T V f Eq (Updater.resolve name) (Updater.resolve name) := by
  intro s s' id id' t t' hR hr hr' _
  obtain ⟨_, _, hget, hr⟩ := bind_eq_ok.1 hr
  obtain ⟨_, _, hget', hr'⟩ := bind_eq_ok.1 hr'
  cases hget
  cases hget'
  rw [hR.get?] at hr'
  split at hr
  · cases hr
  · next v hv =>
    rw [hv] at hr'
    split at hr
    · cases hr
    · cases hr
      cases hr'
      exact ⟨hR, rfl⟩
    · cases hr

theorem image_touches {i : ImageSpec} {size : Size} (hr : exec (i.run h r) s = (.ok size, t)) :
    size = ⟨1, 1⟩ ∧ ∃ v u, exec (within "image" "src" (h.evaluate i.picture)) s = (.ok v, u) ∧
      Touches (fun _ => False) u t := by
  obtain ⟨v, u, hu, hr⟩ := bind_eq_ok.1 hr
  split at hr
  · obtain ⟨_, w, hlog, hr⟩ := bind_eq_ok.1 hr
    cases hr
    exact ⟨rfl, _, u, hu, (confined_log (fun _ => False) _ _ _).apply hlog⟩
  · split at hr
    · obtain ⟨_, w, hadd, hr⟩ := bind_eq_ok.1 hr
      cases hr
      exact ⟨rfl, _, u, hu, (leads_touches_addImage _ _ _ _).apply hadd⟩
    · obtain ⟨_, w, hadd, hr⟩ := bind_eq_ok.1 hr
      cases hr
      exact ⟨rfl, _, u, hu, (leads_touches_addImage _ _ _ _).apply hadd⟩
    · cases hr

theorem parallels_image (i : ImageSpec) (r : CellRef) :
    Parallels T V f Eq (i.run h r) (i.run h r) := by
  intro s s' size size' t t' hR hr hr' _
  obtain ⟨rfl, v, u, hv, ht⟩ := image_touches hr
  obtain ⟨rfl, v', u', hv', ht'⟩ := image_touches hr'
  obtain ⟨st, -, hasked⟩ := answers_evaluate h _ _ _ s v u hR.left.sound hv
  obtain ⟨st', -, hasked'⟩ := answers_evaluate h _ _ _ s' v' u' hR.right.sound hv'
  exact ⟨(hR.asked hasked hasked').touched ht ht', rfl⟩

theorem open?_parallel {k k' : Cell → FillM Unit} (hR : Parallel T V f s s')
    (hr : exec (do
      match ← open? r with
      | none => return
      | some c => k c) s = (.ok (), t))
    (hr' : exec (do
      match ← open? r with
      | none => return
      | some c => k' c) s' = (.ok (), t')) :
    Parallel T V f t t' ∨ ∃ c c' u u', Parallel T V f u u' ∧ (f.cells r → c'.settled = c.settled) ∧
      (u.book.find? r.sheet).isSome = true ∧ (u'.book.find? r.sheet).isSome = true ∧
      exec (k c) u = (.ok (), t) ∧ exec (k' c') u' = (.ok (), t') := by
  obtain ⟨c?, u, hu, hr⟩ := bind_eq_ok.1 hr
  obtain ⟨c'?, u', hu', hr'⟩ := bind_eq_ok.1 hr'
  have hlook := open?_look hR.left.deleted hu
  have hlook' := open?_look hR.right.deleted hu'
  have hopened := hR.touched ((confined_open? (fun _ => False) r).apply hu)
    ((confined_open? (fun _ => False) r).apply hu')
  have hcovered := hR.covered r
  -- A position is covered in both workbooks or in neither.
  cases c? with
  | none =>
    cases c'? with
    | none =>
      cases hr
      cases hr'
      exact .inl hopened
    | some c' =>
      rw [hlook, hlook'] at hcovered
      cases hcovered.2 rfl
  | some c =>
    cases c'? with
    | none =>
      rw [hlook, hlook'] at hcovered
      cases hcovered.1 rfl
    | some c' =>
      have hfind : (u.book.find? r.sheet).isSome = true := by
        have htouches : Leads (Touches fun _ => False) (open? r) := confined_open? (fun _ => False) r
        rw [Workbook.find?_isSome_iff (htouches.apply hu).titles]
        exact Workbook.find?_of_look? hlook
      have hfind' : (u'.book.find? r.sheet).isSome = true := by
        rwa [Workbook.find?_isSome_iff hopened.titles]
      refine .inr ⟨c, c', u, u', hopened, fun hcells => ?_, hfind, hfind', hr, hr'⟩
      have := hR.looks r hcells
      rw [hlook, hlook'] at this
      exact Option.some.inj this

theorem parallels_write {w : Write} {k : Cell → FillM Unit} (hk : ∀ c, Leads (Touches (· = r)) (k c))
    (hsame : ∀ c c' u u' t t', c'.settled = c.settled → (u.book.find? r.sheet).isSome = true →
      (u'.book.find? r.sheet).isSome = true → exec (k c) u = (.ok (), t) →
        exec (k c') u' = (.ok (), t') → t'.book.look? r = t.book.look? r) :
    Parallels T V f (fun _ _ => True)
      (do
        record w
        match ← open? r with
        | none => return
        | some c => k c)
      (do
        record w
        match ← open? r with
        | none => return
        | some c => k c) := by
  intro s s' _ _ t t' hR hr hr' _
  obtain ⟨_, u, hu, hr⟩ := bind_eq_ok.1 hr
  obtain ⟨_, u', hu', hr'⟩ := bind_eq_ok.1 hr'
  cases hu
  cases hu'
  have hrecorded := hR.touched (touches_write s w) (touches_write s' w)
  refine ⟨?_, trivial⟩
  rcases open?_parallel hrecorded hr hr' with hend | ⟨c, c', u, u', hu, hc, hfind, hfind', hr, hr'⟩
  · exact hend
  · refine ((hu.without r).wrote ((hk c).apply hr) ((hk c').apply hr')).met fun hcells => ?_
    exact hsame c c' u u' t t' (hc hcells) hfind hfind' hr hr'

theorem discard_putOr_look {old : Cell} {c? : Option Cell}
    (hfind : (s.book.find? r.sheet).isSome = true)
    (hr : exec (discard (putOr r old c?)) s = (.ok (), t)) :
    ∃ d, c? = some d ∧ t.book.look? r = some d.settled := by
  obtain ⟨d, hput⟩ := discard_eq_ok hr
  exact ⟨d, putOr_look hfind hput⟩

theorem parallels_setValue (r : CellRef) (v : Value) (font? : Option Font) :
    Parallels T V f (fun _ _ => True) (setValue r v font?) (setValue r v font?) := by
  refine parallels_write (fun c => ?_) fun c c' u u' t t' hc hfind hfind' hr hr' => ?_
  · refine (leads_modify fun s => Confined.written (· = r) s _).bind fun _ => ?_
    exact leads_discard (confined_putOr (P := (· = r)) rfl _ _)
  · obtain ⟨_, x, hx, hr⟩ := bind_eq_ok.1 hr
    obtain ⟨_, x', hx', hr'⟩ := bind_eq_ok.1 hr'
    cases hx
    cases hx'
    obtain ⟨d, hd, hlook⟩ :=
      discard_putOr_look (s := { u with written := r :: u.written }) hfind hr
    obtain ⟨d', hd', hlook'⟩ :=
      discard_putOr_look (s := { u' with written := r :: u'.written }) hfind' hr'
    rw [hlook, hlook', Cell.settled_write? (Cell.settled_withFont hc font?) rfl hd hd']

theorem parallels_setFormula (r : CellRef) (formula : String) :
    Parallels T V f (fun _ _ => True) (setFormula r formula) (setFormula r formula) := by
  refine parallels_write (fun c => ?_) fun c c' u u' t t' hc hfind hfind' hr hr' => ?_
  · exact leads_discard (confined_putOr (P := (· = r)) rfl _ _)
  · obtain ⟨d, hd, hlook⟩ := discard_putOr_look hfind hr
    obtain ⟨d', hd', hlook'⟩ := discard_putOr_look hfind' hr'
    rw [hlook, hlook', Cell.settled_put? hc hd hd']

theorem parallels_clearCell (r : CellRef) :
    Parallels T V f (fun _ _ => True) (clearCell r) (clearCell r) := by
  have htouches : Leads (Touches (· = r)) (clearCell r) :=
    confined_clearCell (P := (· = r)) rfl fun s => touches_write s _
  intro s s' _ _ t t' hR hr hr' _
  refine ⟨((hR.without r).wrote (htouches.apply hr) (htouches.apply hr')).met fun hcells => ?_, trivial⟩
  rw [clearCell_look hR.left.deleted hr, clearCell_look hR.right.deleted hr', hR.looks r hcells]

end FillM

end SheetTemplate
