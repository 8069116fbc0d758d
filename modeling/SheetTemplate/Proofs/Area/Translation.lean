import SheetTemplate.Proofs.Area.Twins
import SheetTemplate.Proofs.Command.Answers

/-!
A replay at another target. What an area fills and which cells it copies where, seen from the target,
do not depend on the target, nor on what the workbook holds.
-/

namespace SheetTemplate

open FillM FillState

structure CopyMove where
  origin : CellRef
  down : Int
  right : Int

def CopyMove.at (m : CopyMove) (target : CellRef) : CellCopy :=
  ⟨m.origin, target.offset m.down m.right⟩

def Write.copy? : Write → Option CellCopy
  | .copy origin target => some ⟨origin, target⟩
  | _ => none

namespace FillState

def copies (s : FillState) : List CellCopy := s.journal.reverse.filterMap Write.copy?

structure Adds (new : List CellCopy) (s t : FillState) : Prop where
  sound : s.context.Sound → t.context.Sound
  near : s.context.Sound → Context.Near s.context t.context
  template : t.template = s.template
  copies : t.copies = s.copies ++ new

variable {s t u : FillState} {new more : List CellCopy}

theorem Adds.trans (h : Adds new s t) (h' : Adds more t u) : Adds (new ++ more) s u := by
  refine ⟨fun hs => h'.sound (h.sound hs), fun hs => (h.near hs).trans (h'.near (h.sound hs)),
    h'.template.trans h.template, ?_⟩
  rw [h'.copies, h.copies, List.append_assoc]

theorem adds_of_context (hsound : s.context.Sound → t.context.Sound)
    (hnear : s.context.Sound → Context.Near s.context t.context) (htemplate : t.template = s.template)
    (hjournal : t.journal = s.journal) : Adds [] s t := by
  refine ⟨hsound, hnear, htemplate, ?_⟩
  rw [copies, hjournal, copies, List.append_nil]

theorem adds_of_eq (hcontext : t.context = s.context) (htemplate : t.template = s.template)
    (hjournal : t.journal = s.journal) : Adds [] s t := by
  refine adds_of_context (fun hs => hcontext ▸ hs) (fun _ => ?_) htemplate hjournal
  rw [hcontext]
  exact .refl _

theorem adds_write (s : FillState) (w : Write) :
    Adds w.copy?.toList s { s with journal := w :: s.journal } := by
  refine ⟨fun hs => hs, fun _ => .refl _, rfl, ?_⟩
  rw [copies, List.reverse_cons, List.filterMap_append, copies]
  cases hw : w.copy? with
  | none => simp [hw]
  | some c => simp [hw]

theorem adds_write_of_none {w : Write} (hw : w.copy? = none) (s : FillState) :
    Adds [] s { s with journal := w :: s.journal } := by
  have h := adds_write s w
  rwa [hw] at h

instance : IsPreorder FillState (Adds []) where
  refl _ := adds_of_eq rfl rfl rfl
  trans _ _ _ hst htu := hst.trans htu

instance : Loose (Adds []) where
  sheet _ _ _ _ := adds_of_eq rfl rfl rfl
  written _ _ := adds_of_eq rfl rfl rfl
  images _ _ _ := adds_of_eq rfl rfl rfl
  log _ _ := adds_of_eq rfl rfl rfl
  book _ _ := adds_of_eq rfl rfl rfl
  sheets _ _ _ := adds_of_eq rfl rfl rfl

end FillState

namespace FillM

theorem leads_adds_names : Leads (Adds []) names := by
  have hkeep : Leads (Adds []) (onContext Context.keepView) := leads_modify fun _ =>
    adds_of_context Context.Sound.keepView (fun _ => Context.near_of_kept (.inr rfl)) rfl rfl
  exact hkeep.bind fun _ => leads_get.bind fun _ => leads_pure _

theorem leads_adds_eval {α : Type} (m : EvalM α) : Leads (Adds []) (eval m) :=
  leads_eval m fun _ _ => adds_of_eq rfl rfl rfl

instance (h : FillHost) : h.Asks (Adds []) :=
  ⟨fun _ => leads_adds_names.bind fun _ => leads_adds_eval _⟩

end FillM

/-- Listeners that answer by the cell that is copied alone, and hooks that ask for no copies and leave
the names and the template alone. -/
structure FillHost.Impartial (h : FillHost) (allows : Nat → CellRef → Bool) : Prop where
  answer : ∀ l origin target s allowed t,
    exec (h.before l origin target) s = (.ok allowed, t) → allowed = allows l origin
  before : ∀ l origin target, Leads (Adds []) (h.before l origin target)
  after : ∀ l origin target, Leads (Adds []) (h.after l origin target)
  update : ∀ n info r, Leads (Adds []) (h.update n info r)

namespace FillHost.Impartial

variable {h : FillHost} {allows : Nat → CellRef → Bool} {s t : FillState} {c : CellCopy}

theorem updateCell (hi : h.Impartial allows) (id : Nat) (r : CellRef) :
    Leads (Adds []) (Updater.updateCell h id r) := by
  refine (leads_outputCell r).bind fun before => (hi.update _ _ _).bind fun after => ?_
  split
  · exact leads_pure _
  · split
    · exact leads_setFormula _ _ fun s => adds_write_of_none rfl s
    · exact leads_setValue _ _ _ fun s => adds_write_of_none rfl s

theorem isAllowed (hi : h.Impartial allows) {listeners : List Nat} {allowed : Bool}
    (hr : exec (Area.isAllowed h c listeners) s = (.ok allowed, t)) :
    allowed = (listeners.all fun l => allows l c.origin) ∧ Adds [] s t := by
  induction listeners generalizing s with
  | nil =>
    cases hr
    exact ⟨rfl, refl_of _ _⟩
  | cons l rest ih =>
    obtain ⟨first, u, hu, hr⟩ := bind_eq_ok.1 hr
    have hanswer := hi.answer _ _ _ _ _ _ hu
    have hadds := (hi.before _ _ _).apply hu
    cases hfirst : first with
    | true =>
      rw [if_pos hfirst] at hr
      obtain ⟨hrest, hmore⟩ := ih hr
      refine ⟨?_, hadds.trans hmore⟩
      rw [List.all_cons, ← hanswer, hfirst, Bool.true_and, hrest]
    | false =>
      rw [if_neg (by rw [hfirst]; exact Bool.false_ne_true)] at hr
      cases hr
      refine ⟨?_, hadds⟩
      rw [List.all_cons, ← hanswer, hfirst, Bool.false_and]

theorem copyCell (hi : h.Impartial allows) {listeners : List Nat}
    (hr : exec (Area.copyCell h listeners c) s = (.ok (), t)) :
    Adds (if listeners.all fun l => allows l c.origin then [c] else []) s t := by
  obtain ⟨_, s₁, h₁, hr⟩ := bind_eq_ok.1 hr
  obtain ⟨allowed, s₂, h₂, hr⟩ := bind_eq_ok.1 hr
  have hplaced : Adds [] s s₁ := by
    cases h₁
    exact adds_of_context (fun hs => hs.place _) (fun _ => Context.near_place _ _) rfl rfl
  obtain ⟨hallowed, hasked⟩ := hi.isAllowed h₂
  have hafter : Leads (Adds []) (listeners.forM fun l => h.after l c.origin c.target) :=
    leads_forM fun l _ => hi.after l c.origin c.target
  rw [← hallowed]
  cases allowed with
  | true =>
    obtain ⟨_, s₃, h₃, hr⟩ := bind_eq_ok.1 hr
    obtain ⟨_, u, hu, hover⟩ := bind_eq_ok.1 h₃
    cases hu
    have hnoted : Leads (Adds []) (h.copyOver c.origin c.target true) :=
      h.leads_copyOver (leads_merge Loose.book) _ _ _ fun _ _ _ => adds_of_eq rfl rfl rfl
    have hcopied := (adds_write s₂ (.copy c.origin c.target)).trans (hnoted.apply hover)
    exact ((hplaced.trans hasked).trans hcopied).trans (hafter.apply hr)
  | false => exact (hplaced.trans hasked).trans (hafter.apply hr)

end FillHost.Impartial

/-- Names that mean values which satisfy `V`, but for the row and the column of a copy. -/
def Meaning.Among (V : Value → Prop) (m : Meaning) : Prop :=
  ∀ n v, n ≠ Context.rowName → n ≠ Context.columnName → m n = some v → V v

namespace Meaning.Among

variable {V : Value → Prop} {m m' : Meaning}

theorem near (h : m.Among V) (hn : m.Near m') : m'.Among V := by
  intro n v hrow hcol hv
  rw [hn n hrow hcol] at hv
  exact h n v hrow hcol hv

theorem bind (h : m.Among V) (n : String) {v : Value} (hv : V v) : (m.bind n v).Among V := by
  intro x w hrow hcol hw
  rw [Meaning.bind] at hw
  split at hw
  · cases hw
    exact hv
  · exact h x w hrow hcol hw

theorem item (h : m.Among V) (e : EachSpec) {v i : Value} (hv : V v) (hi : V i) :
    (m.item e v (some i)).Among V := by
  unfold Meaning.item
  split
  · next hindex =>
    cases hindex
    exact (h.bind _ hv).bind _ hi
  · exact h.bind _ hv

end Meaning.Among

def Steady {α : Type} (V : Value → Prop) (q : Meaning → EvalM α) : Prop :=
  ∀ m m' : Meaning, m.Among V → m'.Among V → m.Near m' → ∀ st st' a a' u u',
    (q m).run st = (.ok a, u) → (q m').run st' = (.ok a', u') → a' = a

def Command.Steady (h : FillHost) (V : Value → Prop) : Command → Prop
  | .each e => e.multisheet? = none ∧ SheetTemplate.Steady V (e.resolveIn h) ∧
    ∀ m : Meaning, m.Among V → ∀ st items u, (e.resolveIn h m).run st = (.ok items, u) →
      ∀ v ∈ items, V v
  | .if condition => SheetTemplate.Steady V fun m => h.evaluator.isTrue m condition
  | .grid g => SheetTemplate.Steady V (h.itemsIn g.headers) ∧ SheetTemplate.Steady V (h.itemsIn g.rows)
  | .mergeCells m => (∀ text ∈ m.cols?, SheetTemplate.Steady V (h.wholeIn (Text.stripText text))) ∧
    ∀ text ∈ m.rows?, SheetTemplate.Steady V (h.wholeIn (Text.stripText text))
  | .image _ | .updateCell _ | .autoRowHeight => True
  | .hosted _ => False

structure FillState.Mirrored (V : Value → Prop) (base base' : CellRef) (j j' : List CellCopy)
    (s s' : FillState) : Prop where
  template : s'.template = s.template
  sound : s.context.Sound
  sound' : s'.context.Sound
  near : Context.Near s.context s'.context
  data : Meaning.Among V s.context.data.find?
  run : Meaning.Among V s.context.runVars.find?
  moves : ∃ moves : List CopyMove, s.copies = j ++ moves.map (·.at base) ∧
    s'.copies = j' ++ moves.map (·.at base')

namespace FillState.Mirrored

variable {V : Value → Prop} {base base' : CellRef} {j j' : List CellCopy} {s s' t t' : FillState}

theorem among (h : Mirrored V base base' j j' s s') : Meaning.Among V s.context.get? := by
  intro n v hrow hcol hv
  rw [Context.get?, Option.or_eq_some_iff] at hv
  rcases hv with hv | ⟨-, hv⟩
  · exact h.run n v hrow hcol hv
  · exact h.data n v hrow hcol hv

theorem among' (h : Mirrored V base base' j j' s s') : Meaning.Among V s'.context.get? :=
  h.among.near h.near.get?

theorem adds (h : Mirrored V base base' j j' s s') (new : List CopyMove)
    (hs : Adds (new.map (·.at base)) s t) (hs' : Adds (new.map (·.at base')) s' t') :
    Mirrored V base base' j j' t t' := by
  have hnear := hs.near h.sound
  have hnear' := hs'.near h.sound'
  obtain ⟨moves, hmoves, hmoves'⟩ := h.moves
  refine ⟨?_, hs.sound h.sound, hs'.sound h.sound', ⟨?_, fun n hrow hcol => ?_⟩, ?_,
    h.run.near hnear.run, moves ++ new, ?_, ?_⟩
  · rw [hs'.template, h.template, hs.template]
  · rw [hnear'.data, h.near.data, hnear.data]
  · rw [hnear'.run n hrow hcol, h.near.run n hrow hcol, hnear.run n hrow hcol]
  · rw [hnear.data]
    exact h.data
  · rw [hs.copies, hmoves, List.map_append, List.append_assoc]
  · rw [hs'.copies, hmoves', List.map_append, List.append_assoc]

variable (e : EachSpec) {item i : Value}

theorem opened (h : Mirrored V base base' j j' s s') (hv : V item) (hi : V i) :
    Mirrored V base base' j j'
      { s with context := (Guard.open s.context e.var e.varIndex?).set s.context item (some i) }
      { s' with context :=
        (Guard.open s'.context e.var e.varIndex?).set s'.context item (some i) } := by
  refine ⟨h.template, Guard.sound_set e item _ h.sound, Guard.sound_set e item _ h.sound', ⟨?_, ?_⟩,
    ?_, ?_, h.moves⟩
  · rw [Guard.set_data, Guard.set_data, h.near.data]
  · rw [Guard.run_item, Guard.run_item]
    exact h.near.run.item e item (some i)
  · rw [Guard.set_data]
    exact h.data
  · rw [Guard.run_item]
    exact h.run.item e hv hi

theorem closed (h : Mirrored V base base' j j' s s') (hu : Mirrored V base base' j j' t t') :
    Mirrored V base base' j j'
      { t with context := ((Guard.open s.context e.var e.varIndex?).close t.context).2 }
      { t' with context := ((Guard.open s'.context e.var e.varIndex?).close t'.context).2 } := by
  refine ⟨hu.template, Guard.sound_close hu.sound _, Guard.sound_close hu.sound' _,
    ⟨?_, fun n hrow hcol => ?_⟩, ?_, fun n v hrow hcol hv => ?_, hu.moves⟩
  · rw [Guard.close_data, Guard.close_data, hu.near.data]
  · rw [Guard.run_close_eq, Guard.run_close_eq]
    split
    · exact h.near.run n hrow hcol
    · exact hu.near.run n hrow hcol
  · rw [Guard.close_data]
    exact hu.data
  · rw [Guard.run_close_eq] at hv
    split at hv
    · exact h.run n v hrow hcol hv
    · exact hu.run n v hrow hcol hv

end FillState.Mirrored

theorem FillState.Asked.adds {s t : FillState} {st : Streams} (h : Asked st s t) : Adds [] s t := by
  have hevaluated := h.evaluated
  refine adds_of_context (fun _ => h.sound) (fun _ => h.near) ?_ ?_
  · rw [hevaluated]
  · rw [hevaluated]

theorem CellRef.offset_offset (r : CellRef) (i j k l : Int) :
    (r.offset i j).offset k l = r.offset (i + k) (j + l) := by
  simp only [offset, Int.add_assoc]

namespace FillM

variable {α : Type} {V : Value → Prop} {base base' : CellRef} {j j' : List CellCopy} {h : FillHost}

abbrev Mirrors (V : Value → Prop) (base base' : CellRef) (j j' : List CellCopy) (Q : α → α → Prop)
    (m m' : FillM α) : Prop :=
  Agree (fun _ => True) (Mirrored V base base' j j') Q m m'

theorem mirrors_of_adds {m m' : FillM α} (hm : Leads (Adds []) m) (hm' : Leads (Adds []) m') :
    Mirrors V base base' j j' (fun _ _ => True) m m' := by
  intro s s' a a' t t' hR hr hr' _
  exact ⟨hR.adds [] (hm.apply hr) (hm'.apply hr'), trivial⟩

theorem Answers.mirrors {m : FillM α} {q : Meaning → EvalM α} (hm : Answers m q) (hq : Steady V q) :
    Mirrors V base base' j j' Eq m m := by
  intro s s' a a' t t' hR hr hr' _
  obtain ⟨st, ha, hasked⟩ := hm s a t hR.sound hr
  obtain ⟨st', ha', hasked'⟩ := hm s' a' t' hR.sound' hr'
  have hsame := hq _ _ hR.among hR.among' hR.near.get? _ _ _ _ _ _ ha ha'
  exact ⟨hR.adds [] hasked.adds hasked'.adds, hsame.symm⟩

theorem mirrors_resolve {e : EachSpec} (hq : Steady V (e.resolveIn h))
    (hv : ∀ m : Meaning, m.Among V → ∀ st items u, (e.resolveIn h m).run st = (.ok items, u) →
      ∀ v ∈ items, V v) :
    Mirrors V base base' j j' (fun items items' => items' = items ∧ ∀ v ∈ items, V v)
      (e.resolve h) (e.resolve h) := by
  intro s s' items items' t t' hR hr hr' _
  obtain ⟨hR', hsame⟩ :=
    EachSpec.answers_resolve.mirrors hq s s' items items' t t' hR hr hr' trivial
  obtain ⟨st, hitems, -⟩ := EachSpec.answers_resolve s items t hR.sound hr
  exact ⟨hR', hsame.symm, hv _ hR.among _ _ _ hitems⟩

theorem mirrors_dimension {key : String} {given? : Option String}
    (hq : ∀ text ∈ given?, Steady V (h.wholeIn (Text.stripText text))) (replayed : Int) :
    Mirrors V base base' j j' Eq (MergeSpec.dimension h key given? replayed)
      (MergeSpec.dimension h key given? replayed) := by
  rcases MergeSpec.dimension_answers h key given? replayed with ⟨n, hn⟩ | ⟨text, htext, ht⟩
  · refine hn.mirrors fun _ _ _ _ _ st st' a a' u u' ha ha' => ?_
    cases n with
    | ok n =>
      cases ha
      cases ha'
      rfl
    | error f => cases ha
  · exact ht.mirrors (hq text htext)

theorem mirrors_image (i : ImageSpec) (r r' : CellRef) :
    Mirrors V base base' j j' Eq (i.run h r) (i.run h r') := by
  have hleads : ∀ r, Leads (Adds []) (i.run h r) := by
    intro r
    have hask : Leads (Adds []) (within "image" "src" (h.evaluate i.picture)) :=
      leads_within (leads_adds_names.bind fun _ => leads_adds_eval _) _ _
    refine hask.bind fun v => ?_
    split
    · exact (leads_log _ _ _).bind fun _ => leads_pure _
    · split
      · exact (leads_addImage _ _ _ _).bind fun _ => leads_pure _
      · exact (leads_addImage _ _ _ _).bind fun _ => leads_pure _
      · exact leads_throw _
  have hsize : ∀ r s size t, exec (i.run h r) s = (.ok size, t) → size = ⟨1, 1⟩ := by
    intro r s size t hr
    obtain ⟨v, u, -, hr⟩ := bind_eq_ok.1 hr
    split at hr
    · obtain ⟨_, _, -, hr⟩ := bind_eq_ok.1 hr
      cases hr
      rfl
    · split at hr
      · obtain ⟨_, _, -, hr⟩ := bind_eq_ok.1 hr
        cases hr
        rfl
      · obtain ⟨_, _, -, hr⟩ := bind_eq_ok.1 hr
        cases hr
        rfl
      · cases hr
  intro s s' size size' t t' hR hr hr' _
  refine ⟨hR.adds [] ((hleads r).apply hr) ((hleads r').apply hr'), ?_⟩
  rw [hsize r s size t hr, hsize r' s' size' t' hr']

theorem mirrors_binding {Q : Size → Size → Prop} (name : String) (index? : Option String)
    {item i : Value} (hv : V item) (hi : V i) {m m' : FillM Size}
    (hm : Mirrors V base base' j j' Q m m') :
    Mirrors V base base' j j' Q (binding name index? item (some i) m)
      (binding name index? item (some i) m') := by
  intro s s' size size' t t' hR hr hr' _
  obtain ⟨u, hu, rfl⟩ := binding_eq_ok hr
  obtain ⟨u', hu', rfl⟩ := binding_eq_ok hr'
  let e : EachSpec := { items := "", var := name, varIndex? := index? }
  obtain ⟨hR', hq⟩ := hm _ _ _ _ _ _ (hR.opened e hv hi) hu hu' trivial
  exact ⟨hR.closed e hR', hq⟩

theorem mirrors_copy {allows : Nat → CellRef → Bool} (hi : h.Impartial allows) (listeners : List Nat)
    (origin : CellRef) (down right : Int) :
    Mirrors V base base' j j' (fun _ _ => True)
      (Area.copyCell h listeners ⟨origin, base.offset down right⟩)
      (Area.copyCell h listeners ⟨origin, base'.offset down right⟩) := by
  intro s s' _ _ t t' hR hr hr' _
  have hcopied := hi.copyCell hr
  have hcopied' := hi.copyCell hr'
  refine ⟨?_, trivial⟩
  cases hall : listeners.all fun l => allows l origin with
  | true =>
    rw [if_pos hall] at hcopied hcopied'
    exact hR.adds [⟨origin, down, right⟩] hcopied hcopied'
  | false =>
    rw [if_neg (by rw [hall]; exact Bool.false_ne_true)] at hcopied hcopied'
    exact hR.adds [] hcopied hcopied'

theorem mirrors_font (inner? : Option Inner) (row col : Int) :
    Mirrors V base base' j j' Eq (GridSpec.font? inner? row col) (GridSpec.font? inner? row col) := by
  intro s s' font? font?' t t' hR hr hr' _
  cases inner? with
  | none =>
    cases hr
    cases hr'
    exact ⟨hR, rfl⟩
  | some inner =>
    cases hr
    cases hr'
    refine ⟨hR, ?_⟩
    rw [hR.template]

end FillM

def Corresponding (base base' r r' : CellRef) : Prop :=
  ∃ down right, r = base.offset down right ∧ r' = base'.offset down right

theorem FillHost.Impartial.twins {h : FillHost} {allows : Nat → CellRef → Bool}
    (hi : h.Impartial allows) {V : Value → Prop} (hV : ∀ i, V (.int i)) (base base' : CellRef)
    (j j' : List CellCopy) :
    h.Twins (Command.Steady h V) (fun _ => True) (Corresponding base base') V
      (Mirrored V base base' j j') where
  steps := .of_total fun _ _ _ => trivial
  offset := by
    rintro _ _ ⟨down, right, rfl, rfl⟩ i k
    exact ⟨down + i, right + k, CellRef.offset_offset _ _ _ _ _, CellRef.offset_offset _ _ _ _ _⟩
  log _ _ _ _ := mirrors_of_adds (leads_log _ _ _) (leads_log _ _ _)
  bind name index? item i m m' hv hm := mirrors_binding name index? hv (hV i) hm
  copy := by
    rintro listeners origin _ _ ⟨down, right, rfl, rfl⟩
    exact mirrors_copy hi listeners origin down right
  font := mirrors_font
  value _ v font? := mirrors_of_adds
    (leads_setValue _ _ _ fun s => adds_write_of_none rfl s)
    (leads_setValue _ _ _ fun s => adds_write_of_none rfl s)
  merge _ _ _ _ _ _ _ := mirrors_of_adds (leads_merge Loose.book _ _) (leads_merge Loose.book _ _)
  height _ _ := mirrors_of_adds (leads_clearRowHeight _ _) (leads_clearRowHeight _ _)
  resolve _ he := ⟨he.1, mirrors_resolve he.2.1 he.2.2⟩
  condition _ hc := (answers_isTrue h _ _ _).mirrors hc
  grid _ hg := ⟨(GridSpec.answers_itemsOf h _ _).mirrors hg.1,
    (GridSpec.answers_itemsOf h _ _).mirrors hg.2⟩
  image i _ _ _ _ := mirrors_image i _ _
  dimension _ hm replayed := ⟨mirrors_dimension hm.1 _, mirrors_dimension hm.2 _⟩
  updater name _ := ⟨fun _ _ => True,
    mirrors_of_adds (Updater.leads_resolve name) (Updater.leads_resolve name),
    fun id id' _ _ _ _ => mirrors_of_adds (hi.updateCell id _) (hi.updateCell id' _)⟩
  hosted _ hc := hc.elim

namespace Area

/-- Replay is equivariant under translation. A tree of areas whose commands do not depend on the row
and the column of a copy, replayed at two targets of two workbooks read from one template, with the
same names, fills the same size and asks for the same copies in the same order, each as seen from its
target. -/
theorem replay_translates (h : FillHost) {allows : Nat → CellRef → Bool} (hi : h.Impartial allows)
    {V : Value → Prop} (hV : ∀ i, V (.int i)) (a : Area) (ha : a.Uses (Command.Steady h V))
    (target target' : CellRef) (s s' t t' : FillState) (size size' : Size)
    (htemplate : s'.template = s.template) (hs : s.context.Sound) (hs' : s'.context.Sound)
    (hnear : Context.Near s.context s'.context) (hdata : Meaning.Among V s.context.data.find?)
    (hrun : Meaning.Among V s.context.runVars.find?)
    (hr : exec (a.replay h target) s = (.ok size, t))
    (hr' : exec (a.replay h target') s' = (.ok size', t')) :
    size' = size ∧ ∃ moves : List CopyMove,
      t.copies = s.copies ++ moves.map (·.at target) ∧
        t'.copies = s'.copies ++ moves.map (·.at target') := by
  have hbegin : Mirrored V target target' s.copies s'.copies s s' :=
    ⟨htemplate, hs, hs', hnear, hdata, hrun, [], by simp, by simp⟩
  have hmeet : Corresponding target target' target target' :=
    ⟨0, 0, by simp [CellRef.offset], by simp [CellRef.offset]⟩
  have htwins := hi.twins hV target target' s.copies s'.copies
  obtain ⟨hend, hsize⟩ :=
    htwins.replay ha hmeet s s' size size' t t' hbegin hr hr' trivial
  exact ⟨hsize.symm, hend.moves⟩

def IsPlain (v : Value) : Prop := (∃ i, v = .int i) ∨ ∃ l : List Int, v = .list (l.map .int)

def columnSpec : EachSpec := { items := "items", var := "e" }

theorem columnSpec_resolveIn (m : Meaning) :
    columnSpec.resolveIn {} m = (({} : Evaluator).named "items" m).itemList := by
  have hname : Expr.compile (Text.stripText "items") = .ok (.name "items") := rfl
  have heval : ({} : Evaluator).evaluate m "items" = pure (({} : Evaluator).named "items" m) :=
    Evaluator.evaluate_name _ (by decide +kernel) hname (by decide) m
  have hplain : columnSpec.resolveIn {} m = ({} : Evaluator).evaluate m "items" >>= Value.itemList :=
    EachSpec.resolveIn_plain rfl rfl rfl m
  rw [hplain, heval, pure_bind]

theorem columnSpec_items {m : Meaning} (hm : m.Among IsPlain) {st u : Streams} {items : List Value}
    (hr : (columnSpec.resolveIn {} m).run st = (.ok items, u)) :
    (∀ st', (({} : Evaluator).named "items" m).itemList.run st' = (.ok items, st')) ∧
      ∀ v ∈ items, IsPlain v := by
  rw [columnSpec_resolveIn] at hr
  cases hv : m "items" with
  | none =>
    have hnull : ({} : Evaluator).named "items" m = .null := by
      have hfunction : Value.builtins.find? "items" = none := by decide +kernel
      simp only [Evaluator.named, hv, hfunction]
      rfl
    rw [hnull] at hr ⊢
    cases hr
    exact ⟨fun _ => rfl, fun _ h => absurd h List.not_mem_nil⟩
  | some v =>
    have hnamed : IsPlain v → ({} : Evaluator).named "items" m = v := by
      rintro (⟨i, rfl⟩ | ⟨l, rfl⟩)
      · simp only [Evaluator.named, hv]
        rfl
      · simp only [Evaluator.named, hv]
        rfl
    have hplain : IsPlain v := hm "items" v (by decide) (by decide) hv
    rw [hnamed hplain] at hr ⊢
    rcases hplain with ⟨i, rfl⟩ | ⟨l, rfl⟩
    · cases hr
    · cases hr
      refine ⟨fun _ => rfl, fun v hv => ?_⟩
      obtain ⟨i, -, rfl⟩ := List.mem_map.1 hv
      exact .inl ⟨i, rfl⟩

def columnArea : Area :=
  { start := ⟨"S", 0, 0⟩
    size := ⟨1, 2⟩
    bindings := [⟨.each columnSpec, ⟨"S", 1, 0⟩, ⟨1, 1⟩,
      [{ start := ⟨"S", 1, 0⟩, size := ⟨1, 1⟩ }]⟩] }

theorem columnArea_steady : columnArea.Uses (Command.Steady {} IsPlain) := by
  have hsteady : Command.Steady {} IsPlain (.each columnSpec) := by
    refine ⟨rfl, ?_, fun m hm st items u hr => (columnSpec_items hm hr).2⟩
    intro m m' hm hm' hnear st st' items items' u u' hr hr'
    have hitems := (columnSpec_items hm hr).1 st'
    have hitems' := (columnSpec_items hm' hr').1 st'
    rw [Evaluator.named_near _ hnear (by decide) (by decide), hitems] at hitems'
    cases hitems'
    rfl
  exact ⟨hsteady, ⟨trivial, trivial⟩, trivial⟩

def columnState : FillState :=
  { FillState.ofWorkbook
      { sheets := [((({ title := "S" } : Sheet).setCell ⟨0, 0⟩ { value := .text "items" }).setCell
          ⟨1, 0⟩ { value := .text "${e}" }), { title := "T" }] } with
    context := { data := [("items", .list [.int 1, .int 2, .int 3])] } }

def usedState : FillState :=
  { columnState with
    book := { sheets := [{ title := "S" },
      ({ title := "T" } : Sheet).setCell ⟨6, 3⟩ { value := .text "${items}" }] }
    journal := [.clear ⟨"S", 0, 0⟩]
    context := columnState.context.place ⟨"S", 7, 8⟩ }

def columnRun : Except Failure Size × FillState := exec (columnArea.replay {} ⟨"S", 0, 0⟩) columnState

def usedRun : Except Failure Size × FillState := exec (columnArea.replay {} ⟨"T", 5, 3⟩) usedState

theorem columnArea_translates :
    ({} : FillHost).Impartial (fun _ _ => true) ∧ columnArea.Uses (Command.Steady {} IsPlain) ∧
      (columnRun.2.copies.map fun c => (c.origin.row, c.target)) =
        [(0, ⟨"S", 0, 0⟩), (1, ⟨"S", 1, 0⟩), (1, ⟨"S", 2, 0⟩), (1, ⟨"S", 3, 0⟩)] ∧
      columnRun.1 = .ok ⟨1, 4⟩ ∧ usedRun.1 = .ok ⟨1, 4⟩ ∧
      ∃ moves : List CopyMove, columnRun.2.copies = columnState.copies ++ moves.map (·.at ⟨"S", 0, 0⟩) ∧
        usedRun.2.copies = usedState.copies ++ moves.map (·.at ⟨"T", 5, 3⟩) := by
  have hi : ({} : FillHost).Impartial fun _ _ => true := by
    refine ⟨fun _ _ _ _ _ _ h => ?_, fun _ _ _ => leads_pure _, fun _ _ _ => leads_pure _,
      fun _ _ _ => leads_pure _⟩
    cases h
    rfl
  have hs : columnState.context.Sound := Context.sound_of_data _
  have hdata : Meaning.Among IsPlain columnState.context.data.find? := by
    intro n v _ _ hv
    simp only [columnState, Names.find?, List.lookup_cons, List.lookup_nil] at hv
    split at hv
    · cases hv
      exact .inr ⟨[1, 2, 3], rfl⟩
    · cases hv
  have hok : columnRun.1 = .ok ⟨1, 4⟩ := by decide +kernel
  have hok' : usedRun.1 = .ok ⟨1, 4⟩ := by decide +kernel
  have hr : exec (columnArea.replay {} ⟨"S", 0, 0⟩) columnState = (.ok ⟨1, 4⟩, columnRun.2) := by
    rw [← hok, ← columnRun]
  have hr' : exec (columnArea.replay {} ⟨"T", 5, 3⟩) usedState = (.ok ⟨1, 4⟩, usedRun.2) := by
    rw [← hok', ← usedRun]
  obtain ⟨-, hmoves⟩ := replay_translates {} hi (fun i => .inl ⟨i, rfl⟩) columnArea columnArea_steady
    ⟨"S", 0, 0⟩ ⟨"T", 5, 3⟩ columnState usedState columnRun.2 usedRun.2 _ _ rfl hs
    (hs.place ⟨"S", 7, 8⟩) (Context.near_place _ _) hdata
    (fun _ _ _ _ hv => absurd hv.symm (Option.some_ne_none _)) hr hr'
  exact ⟨hi, columnArea_steady, by decide +kernel, hok, hok', hmoves⟩

end Area

end SheetTemplate
