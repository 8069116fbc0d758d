import SheetTemplate.Proofs.Area.Visiting
import SheetTemplate.Proofs.Command.Asking
import SheetTemplate.Proofs.Fill.Depositing
import SheetTemplate.Proofs.Fill.Extending
import SheetTemplate.Proofs.Fill.Stages
import SheetTemplate.Proofs.Formula.Overruling

/-!
Where the formulas of a filled workbook come from. Each sheet has a lineage: it was opened, or copied
from another sheet as that stood, and then written to. A formula that the sheet shows is followed back
through the lineage to the write that brought it.
-/

namespace SheetTemplate

open FillM FillState

/-- What became of a sheet: the one that was opened, a copy of another, or a sheet that was written to
after the writes `earlier` had been asked for. -/
inductive Lineage where
  | opened (x : Sheet)
  | copied (l : Lineage)
  | written (w : Write) (earlier : List Write) (l : Lineage)

/-- The last write to the position brings a formula, or nothing was written there and the sheet showed
a formula when it was opened. -/
def Lineage.Explains (h : FillHost) (T : Template) (Visited : CellRef → CellRef → FillState → Prop)
    (p : Pos) : Lineage → Prop
  | .opened x => x.HoldsFormula p
  | .copied l => l.Explains h T Visited p
  | .written w earlier l =>
    if w.target.pos = p then w.Brings h T Visited earlier else l.Explains h T Visited p

structure Traced where
  sheet : Sheet
  lineage : Lineage

/-- The course of a fill from the state `s` on, with the lineages of the sheets that now stand. A write
is in the lineage of the sheet that it went to, unless there was no such sheet. -/
inductive Course (s : FillState) : FillState → List Traced → Prop
  | start : Course s s (s.book.sheets.map fun x => ⟨x, .opened x⟩)
  | rest {t u : FillState} {A B : List Traced} : Course s t A →
    u.journal = t.journal → B.map Traced.sheet = u.book.sheets →
    (∀ b ∈ B, ∃ a ∈ A, a.sheet.title = b.sheet.title ∧
      a.sheet.Passes (fun _ => False) b.sheet ∧ b.lineage = a.lineage) →
    Course s u B
  | write {t u : FillState} {A B : List Traced} {w : Write} : Course s t A →
    u.journal = w :: t.journal → B.map Traced.sheet = u.book.sheets →
    (∀ b ∈ B, ∃ a ∈ A, a.sheet.title = b.sheet.title ∧
      (w.target.sheet = b.sheet.title ∧ a.sheet.Passes (· = w.target.pos) b.sheet ∧
          b.lineage = .written w t.journal a.lineage ∨
        a.sheet.Passes (fun _ => False) b.sheet ∧ b.lineage = a.lineage ∧
          (w.target.sheet = b.sheet.title →
            t.sheet? w.target.sheet = none ∨ ¬ u.book.titles.Nodup))) →
    Course s u B
  | copy {t u : FillState} {A B : List Traced} {origin title : String} {after? : Option String} :
    Course s t A → exec (copySheet origin title after?) t = (.ok (), u) →
    B.map Traced.sheet = u.book.sheets →
    (∀ b ∈ B, ∃ a ∈ A, a.sheet.Passes (fun _ => False) b.sheet ∧
      (a.sheet.title = b.sheet.title ∧ b.lineage = a.lineage ∨
        a.sheet.title = origin ∧ b.lineage = .copied a.lineage)) →
    Course s u B

theorem exists_traced {l : List Sheet} {Q : Traced → Prop} (h : ∀ x ∈ l, ∃ m, Q ⟨x, m⟩) :
    ∃ B : List Traced, B.map Traced.sheet = l ∧ ∀ b ∈ B, Q b := by
  induction l with
  | nil => exact ⟨[], rfl, fun _ hb => absurd hb List.not_mem_nil⟩
  | cons x l ih =>
    obtain ⟨m, hm⟩ := h x List.mem_cons_self
    obtain ⟨B, hB, hQ⟩ := ih fun y hy => h y (List.mem_cons_of_mem x hy)
    refine ⟨⟨x, m⟩ :: B, congrArg (x :: ·) hB, fun b hb => ?_⟩
    rcases List.mem_cons.1 hb with rfl | hb
    · exact hm
    · exact hQ b hb

namespace Workbook

variable {w : Workbook}

theorem passes_showActive {M : CellRef → Prop} {v : Workbook} (h : w.Passes M v) :
    w.Passes M v.showActive := by
  rw [Passes, sheets_showActive]
  exact h

theorem find?_of_mem (hw : w.titles.Nodup) {x : Sheet} (hx : x ∈ w.sheets) :
    w.find? x.title = some x := by
  have hsome : (w.find? x.title).isSome = true := w.mem_titles.1 (List.mem_map_of_mem hx)
  obtain ⟨y, hy⟩ := Option.isSome_iff_exists.1 hsome
  rw [hy, List.inj_on_of_nodup_map hw (List.mem_of_find?_eq_some hy) hx (w.find?_title hy)]

end Workbook

namespace FillState

structure Calm (s t : FillState) : Prop where
  template : t.template = s.template
  sheets : s.book.Passes (fun _ => False) t.book
  journal : t.journal = s.journal

variable {s t u : FillState}

theorem calm_of_passes (h : Passes (fun _ => False) s t) (hjournal : t.journal = s.journal) :
    Calm s t := ⟨h.template, h.sheets, hjournal⟩

theorem calm_of_book (htemplate : t.template = s.template) (hbook : t.book = s.book)
    (hjournal : t.journal = s.journal) : Calm s t :=
  calm_of_passes (passes_of_book htemplate hbook) hjournal

instance : Confined (fun _ => False) Calm where
  refl _ := calm_of_book rfl rfl rfl
  trans _ _ _ h h' :=
    ⟨h'.template.trans h.template, h.sheets.trans h'.sheets, h'.journal.trans h.journal⟩
  touch s r := calm_of_passes (Confined.touch (fun _ => False) s r) rfl
  cell _ _ _ h := h.elim
  inert s title f hf := calm_of_passes (Confined.inert (fun _ => False) s title f hf) rfl
  written _ _ := calm_of_book rfl rfl rfl
  log _ _ := calm_of_book rfl rfl rfl

theorem calm_of_evaluated (h : Evaluated s t) : Calm s t := by
  rw [Evaluated] at h
  rw [h]
  exact calm_of_book rfl rfl rfl

end FillState

namespace FillM

theorem leads_calm {α : Type} {m : FillM α} (hpass : Leads (FillState.Passes fun _ => False) m)
    (hgrown : Leads (Grown fun _ => False) m) : Leads Calm m :=
  fun s => calm_of_passes (hpass s) (hgrown s).journal_eq

theorem calm_setHidden (title : String) (hidden : Bool) : Leads Calm (setHidden title hidden) := by
  refine leads_get.bind fun s => ?_
  split
  · exact leads_throw _
  · refine leads_modify fun u => ⟨rfl, Workbook.passes_showActive ?_, rfl⟩
    have hhide : ∀ x : Sheet, x.Passes (fun _ => False) { x with hidden := hidden } := fun x =>
      Sheet.passes_of_face fun _ => Sheet.face?_congr rfl
    exact Workbook.passes_modify (M := fun _ => False) (fun _ => rfl) fun x _ => hhide x

theorem calm_deleteSheet (title : String) : Leads Calm (deleteSheet title) := by
  refine leads_get.bind fun s => ?_
  split
  · exact leads_pure _
  · refine leads_modify fun u => ⟨rfl, Workbook.passes_showActive ?_, rfl⟩
    exact Workbook.passes_of_subset List.eraseP_subset

theorem calm_retireSheet (title : String) : Leads Calm (retireSheet title) := by
  intro s
  rw [retireSheet, exec_bind, exec_get]
  dsimp only
  split
  · exact refl_of Calm s
  · have hretired : Calm s { s with retired := s.retired ++ [title] } := calm_of_book rfl rfl rfl
    refine trans_of Calm hretired ?_
    split
    · exact refl_of Calm _
    · exact calm_setHidden _ _ _
    · exact calm_deleteSheet _ _

end FillM

/-- Filling root areas from a state comes to copy a cell to a place from `u`. -/
def FillOptions.Visits (o : FillOptions) (roots : List Area) (s : FillState)
    (origin place : CellRef) (u : FillState) : Prop :=
  ∃ before a after t v, roots = before ++ a :: after ∧
    exec (before.forM o.fillArea) s = (.ok (), t) ∧ exec (clearArea a.ref) t = (.ok (), v) ∧
      a.Visits o.host origin place u a.start v

structure FillState.Tracked (h : FillHost) (Visited : CellRef → CellRef → FillState → Prop)
    (s t : FillState) : Prop where
  template : t.template = s.template
  course : ∃ A, Course s t A ∧ A.map Traced.sheet = t.book.sheets ∧
    ∀ a ∈ A, ∀ p, a.sheet.HoldsFormula p → a.lineage.Explains h s.template Visited p

namespace FillState

variable {h : FillHost} {Visited : CellRef → CellRef → FillState → Prop} {s t u : FillState}
  {w : Write}

theorem tracked_self (s : FillState) : Tracked h Visited s s := by
  refine ⟨rfl, _, .start, ?_, fun a ha p hp => ?_⟩
  · rw [List.map_map]
    exact List.map_id _
  · obtain ⟨x, -, rfl⟩ := List.mem_map.1 ha
    exact hp

theorem holds_of_passes {x y : Sheet} {p : Pos} (hpass : x.Passes (fun _ => False) y)
    (hp : y.HoldsFormula p) : x.HoldsFormula p := by
  rcases hpass p hp with hsame | hfalse
  · rwa [Sheet.HoldsFormula, ← hsame]
  · exact hfalse.elim

theorem Tracked.extend {Q : Traced → Traced → Prop} (hs : Tracked h Visited s t)
    (htemplate : u.template = t.template)
    (hsheets : ∀ y ∈ u.book.sheets, ∃ x ∈ t.book.sheets, ∀ l, ∃ m, Q ⟨x, l⟩ ⟨y, m⟩)
    (hexplains : ∀ a b, Q a b → (∀ p, a.sheet.HoldsFormula p →
      a.lineage.Explains h s.template Visited p) → ∀ p, b.sheet.HoldsFormula p →
        b.lineage.Explains h s.template Visited p)
    (hcourse : ∀ A B, Course s t A → B.map Traced.sheet = u.book.sheets →
      (∀ b ∈ B, ∃ a ∈ A, Q a b) → Course s u B) : Tracked h Visited s u := by
  obtain ⟨A, hA, hlist, hexplained⟩ := hs.course
  obtain ⟨B, hB, htraced⟩ := exists_traced (Q := fun b => ∃ a ∈ A, Q a b) fun y hy => by
    obtain ⟨x, hx, hQ⟩ := hsheets y hy
    rw [← hlist] at hx
    obtain ⟨a, ha, rfl⟩ := List.mem_map.1 hx
    obtain ⟨m, hm⟩ := hQ a.lineage
    exact ⟨m, a, ha, hm⟩
  refine ⟨htemplate.trans hs.template, B, hcourse A B hA hB htraced, hB, fun b hb => ?_⟩
  obtain ⟨a, ha, hab⟩ := htraced b hb
  exact hexplains a b hab (hexplained a ha)

theorem Tracked.calm (hs : Tracked h Visited s t) (hcalm : Calm t u) : Tracked h Visited s u := by
  apply hs.extend hcalm.template (Q := fun a b => a.sheet.title = b.sheet.title ∧
      a.sheet.Passes (fun _ => False) b.sheet ∧ b.lineage = a.lineage)
  · intro y hy
    obtain ⟨x, hx, htitle, hpass⟩ := hcalm.sheets y hy
    exact ⟨x, hx, fun l => ⟨l, htitle, hpass, rfl⟩⟩
  · rintro a b ⟨-, hpass, hline⟩ ha p hp
    rw [hline]
    exact ha p (holds_of_passes hpass hp)
  · exact fun A B hA hB => hA.rest hcalm.journal hB

theorem Deposits.brings_of_holds {brings : Prop} (hw : Deposits w brings t u)
    (hsheet : t.sheet? w.target.sheet ≠ none) (hu : u.book.titles.Nodup) {y : Sheet}
    (hy : y ∈ u.book.sheets) (htitle : w.target.sheet = y.title)
    (hp : y.HoldsFormula w.target.pos) : brings := by
  have hfind : u.book.find? w.target.sheet = some y := htitle ▸ Workbook.find?_of_mem hu hy
  rcases hw.target (by rwa [Workbook.content_of_find? hfind]) with hb | hnone
  · exact hb
  · exact absurd hnone hsheet

def Deposited (w : Write) (brings : Prop) (t u : FillState) (a b : Traced) : Prop :=
  a.sheet.title = b.sheet.title ∧
    (w.target.sheet = b.sheet.title ∧ a.sheet.Passes (· = w.target.pos) b.sheet ∧
        b.lineage = .written w t.journal a.lineage ∧
        (b.sheet.HoldsFormula w.target.pos → brings) ∨
      a.sheet.Passes (fun _ => False) b.sheet ∧ b.lineage = a.lineage ∧
        (w.target.sheet = b.sheet.title →
          t.sheet? w.target.sheet = none ∨ ¬ u.book.titles.Nodup))

theorem Deposits.exists_deposited {brings : Prop} (hw : Deposits w brings t u) {y : Sheet}
    (hy : y ∈ u.book.sheets) :
    ∃ x ∈ t.book.sheets, ∀ l, ∃ m, Deposited w brings t u ⟨x, l⟩ ⟨y, m⟩ := by
  by_cases hsheet : t.sheet? w.target.sheet = none
  · obtain ⟨x, hx, htitle, hpass⟩ := (hw.absent hsheet).sheets y hy
    exact ⟨x, hx, fun l => ⟨l, htitle, .inr ⟨hpass, rfl, fun _ => .inl hsheet⟩⟩⟩
  obtain ⟨x, hx, htitle, hpass⟩ := hw.passes.sheets y hy
  have hpos : x.Passes (· = w.target.pos) y := by
    intro p hp
    rcases hpass p hp with hsame | ⟨htarget, -⟩
    · exact .inl hsame
    · exact .inr (congrArg CellRef.pos htarget)
  by_cases hhere : w.target.sheet = y.title
  · -- A write that can bring no formula is left out of the lineage only where two sheets have one
    -- title, since then it may have gone to the other one.
    by_cases hb : brings
    · exact ⟨x, hx, fun l => ⟨.written w t.journal l, htitle, .inl ⟨hhere, hpos, rfl, fun _ => hb⟩⟩⟩
    by_cases hu : u.book.titles.Nodup
    · exact ⟨x, hx, fun l => ⟨.written w t.journal l, htitle,
        .inl ⟨hhere, hpos, rfl, hw.brings_of_holds hsheet hu hy hhere⟩⟩⟩
    · have hplain : x.Passes (fun _ => False) y := fun p hp =>
        (hpass p hp).imp_right fun hm => hb hm.2
      exact ⟨x, hx, fun l => ⟨l, htitle, .inr ⟨hplain, rfl, fun _ => .inr hu⟩⟩⟩
  · have hplain : x.Passes (fun _ => False) y := fun p hp =>
      (hpass p hp).imp_right fun hm => hhere ((congrArg CellRef.sheet hm.1).symm.trans htitle)
    exact ⟨x, hx, fun l => ⟨l, htitle, .inr ⟨hplain, rfl, fun h => absurd h hhere⟩⟩⟩

theorem Deposited.explains {T : Template} {a b : Traced}
    (hab : Deposited w (w.Brings h T Visited t.journal) t u a b)
    (ha : ∀ p, a.sheet.HoldsFormula p → a.lineage.Explains h T Visited p) {p : Pos}
    (hp : b.sheet.HoldsFormula p) : b.lineage.Explains h T Visited p := by
  obtain ⟨-, ⟨-, hpos, hline, hbrings⟩ | ⟨hpass, hline, -⟩⟩ := hab
  · rw [hline, Lineage.Explains]
    split
    · next heq => exact hbrings (heq ▸ hp)
    · next hne =>
      rcases hpos p hp with hsame | heq
      · rw [Sheet.HoldsFormula, hsame] at hp
        exact ha p hp
      · exact absurd heq.symm hne
  · rw [hline]
    exact ha p (holds_of_passes hpass hp)

theorem Tracked.deposits (hs : Tracked h Visited s t)
    (hw : Deposits w (w.Brings h t.template Visited t.journal) t u) : Tracked h Visited s u := by
  rw [hs.template] at hw
  apply hs.extend hw.passes.template
    (Q := Deposited w (w.Brings h s.template Visited t.journal) t u)
  · exact fun y hy => hw.exists_deposited hy
  · exact fun a b hab ha p hp => hab.explains ha hp
  · intro A B hA hB htraced
    refine hA.write hw.journal hB fun b hb => ?_
    obtain ⟨a, ha, htitle, hcase⟩ := htraced b hb
    refine ⟨a, ha, htitle, hcase.imp_left ?_⟩
    rintro ⟨hhere, hpos, hline, -⟩
    exact ⟨hhere, hpos, hline⟩

theorem cases_of_mem_withCopy {w : Workbook} {x y : Sheet} {title anchor : String}
    (hy : y ∈ (w.withCopy x title anchor).sheets) :
    (∀ p, y.content p = x.content p) ∨ y ∈ w.sheets := by
  rw [Workbook.sheets_withCopy rfl] at hy
  rcases List.eq_or_mem_of_mem_insertIdx hy with rfl | hy
  · exact .inl (x.content_duplicate _)
  · exact .inr hy

theorem Tracked.copySheet {origin title : String} {after? : Option String}
    (hs : Tracked h Visited s t) (hcopy : exec (FillM.copySheet origin title after?) t = (.ok (), u)) :
    Tracked h Visited s u := by
  obtain ⟨x, hx, hu, -⟩ := copySheet_eq_ok hcopy
  have hbook : u.book = t.book.withCopy x title (anchorOf origin after?) := hu ▸ rfl
  have hjournal : u.journal = t.journal := hu ▸ rfl
  apply hs.extend (hu ▸ rfl) (Q := fun a b => a.sheet.Passes (fun _ => False) b.sheet ∧
      (a.sheet.title = b.sheet.title ∧ b.lineage = a.lineage ∨
        a.sheet.title = origin ∧ b.lineage = .copied a.lineage))
  · intro y hy
    rcases cases_of_mem_withCopy (hbook ▸ hy) with hcontent | hy
    · exact ⟨x, List.mem_of_find?_eq_some hx, fun l => ⟨.copied l, Sheet.passes_of_content hcontent,
        .inr ⟨t.book.find?_title hx, rfl⟩⟩⟩
    · exact ⟨y, hy, fun l => ⟨l, Sheet.passes_of_content fun _ => rfl, .inl ⟨rfl, rfl⟩⟩⟩
  · rintro a b ⟨hpass, hline⟩ ha p hp
    have hexplained := ha p (holds_of_passes hpass hp)
    rcases hline with ⟨-, hline⟩ | ⟨-, hline⟩
    · rwa [hline]
    · rw [hline]
      exact hexplained
  · exact fun A B hA hB => hA.copy hcopy hB

end FillState

def Command.IsUnaided : Command → Prop
  | .updateCell _ | .hosted _ => False
  | _ => True

structure FillHost.KeepsCalm (h : FillHost) : Prop where
  before : ∀ l origin target, Leads Calm (h.before l origin target)
  after : ∀ l origin target, Leads Calm (h.after l origin target)

namespace FillHost

variable {h : FillHost} {Visited : CellRef → CellRef → FillState → Prop} {s : FillState}

theorem preserves_calm {α : Type} {m : FillM α} (hm : Leads Calm m) :
    Preserves (Tracked h Visited s) (fun _ => True) m :=
  preserves_of_leads hm fun _ _ hs hcalm => hs.calm hcalm

theorem preserves_evaluated {α : Type} {m : FillM α} (hm : Leads Evaluated m) :
    Preserves (Tracked h Visited s) (fun _ => True) m :=
  preserves_calm (hm.mono fun _ _ => calm_of_evaluated)

theorem preserves_deposits {m : FillM Unit} {w : Write}
    (hm : ∀ t u, exec m t = (.ok (), u) → Deposits w (w.Brings h t.template Visited t.journal) t u) :
    Preserves (Tracked h Visited s) (fun _ => True) m :=
  preserves_of_ok fun t _ u ht hr => ht.deposits (hm t u hr)

theorem preserves_image (i : ImageSpec) (r : CellRef) :
    Preserves (Tracked h Visited s) (fun _ => True) (i.run h r) := by
  have hadd : ∀ v scaleX scaleY, Preserves (Tracked h Visited s) (fun _ => True)
      (addImage r v scaleX scaleY) := fun v scaleX scaleY =>
    preserves_calm (leads_calm (leads_passes_addImage _ _ _ _) (leads_addImage _ _ _ _))
  refine (preserves_evaluated (leads_within (h.leads_evaluate _) _ _)).bind fun v => ?_
  split
  · exact (preserves_calm (confined_log (fun _ => False) _ _ _)).bind fun _ => preserves_pure _
  · split
    · exact (hadd _ _ _).bind fun _ => preserves_pure _
    · exact (hadd _ _ _).bind fun _ => preserves_pure _
    · exact preserves_throw trivial

theorem KeepsCalm.preserving (hh : h.KeepsCalm) :
    h.Preserving Command.IsUnaided (fun _ => False) (fun _ => True) (Tracked h Visited s)
      fun _ => True where
  located _ _ _ _ := trivial
  unbound _ := trivial
  log _ _ _ := preserves_calm (confined_log (fun _ => False) _ _ _)
  place _ := preserves_evaluated (leads_onContext _)
  before l origin target _ := preserves_calm (hh.before l origin target)
  after l origin target _ := preserves_calm (hh.after l origin target)
  copy _ _ ho _ := ho.elim
  resolve e _ := ⟨preserves_evaluated (e.leads_resolve h), trivial⟩
  bind _ _ item index _ hm := hm.binding (fun _ _ hs => hs.calm (calm_of_book rfl rfl rfl)) _ _ _ _
  titles _ _ _ _ := by
    refine ⟨preserves_evaluated ?_, fun _ _ _ _ => ?_, fun _ _ => ?_, fun _ => trivial⟩
    · exact (leads_within (h.leads_evaluate _) _ _).bind fun _ => leads_itemsOr _ _ _ _ _
    · exact preserves_of_ok fun _ _ _ hs hr => hs.copySheet hr
    · exact preserves_calm (calm_retireSheet _)
  condition _ _ := preserves_evaluated (leads_within (h.leads_isTrue _) _ _)
  grid _ _ := ⟨preserves_evaluated (GridSpec.leads_itemsOf _ _),
    preserves_evaluated (GridSpec.leads_itemsOf _ _),
    fun r v font? _ => preserves_deposits fun _ _ hr => deposits_setValue hr⟩
  image i _ r _ := preserves_image i r
  merge m _ := ⟨fun n => preserves_evaluated (MergeSpec.inward_dimension _ _ _ n).evaluated,
    fun n => preserves_evaluated (MergeSpec.inward_dimension _ _ _ n).evaluated,
    fun _ _ _ => preserves_calm (leads_calm (leads_passes_merge _ _) (leads_merge Loose.book _ _))⟩
  updater _ hn := hn.elim
  height _ _ _ _ := preserves_calm (confined_clearRowHeight (fun _ => False) _ _)
  hosted _ hc := hc.elim

end FillHost

namespace FillOptions

variable {o : FillOptions} {Visited : CellRef → CellRef → FillState → Prop} {s t u : FillState}
  {roots : List Area}

theorem tracked_clearCell (r : CellRef) :
    Preserves (Tracked o.host Visited s) (fun _ => True) (clearCell r) :=
  FillHost.preserves_deposits fun _ _ hr => deposits_clearCell hr

theorem tracked_clearArea (area : AreaRef) :
    Preserves (Tracked o.host Visited s) (fun _ => True) (clearArea area) := by
  refine (FillHost.preserves_calm (confined_sheet? (fun _ => False) _)).bind fun x? => ?_
  cases x? with
  | none => exact preserves_pure _
  | some x =>
    refine (FillHost.preserves_calm ?_).bind fun _ => preserves_forM fun p _ => tracked_clearCell _
    exact leads_calm (leads_passes_unmergeAll _ _ _) (leads_unmergeAll Loose.book _ _ _)

theorem tracked_fillArea (hh : o.host.KeepsCalm) {a : Area} (ha : a.Uses Command.IsUnaided)
    (hvisits : ∀ v, exec (clearArea a.ref) t = (.ok (), v) → ∀ origin place x,
      a.Visits o.host origin place x a.start v → Visited origin place x)
    (ht : Tracked o.host Visited s t) (h : exec (o.fillArea a) t = (.ok (), u)) :
    Tracked o.host Visited s u := by
  obtain ⟨v, w, size, c, log, hclear, hreplay, rfl, -⟩ := fillArea_eq_ok h
  have hcopies : ∀ origin place x, a.Visits o.host origin place x a.start v →
      KeepsFrom (Tracked o.host Visited s) x (o.host.copy origin place true) := by
    intro origin place x hx _ y hs hcopy
    exact hs.deposits ((o.host.deposits_copy hcopy).mono fun hformula =>
      ⟨x, hvisits v hclear origin place x hx, rfl, hformula⟩)
  have hreplayed : Tracked o.host Visited s w :=
    hh.preserving.keeps (fun _ _ hs => hs.calm (calm_of_book rfl rfl rfl)) ha a.start v hcopies
      size w ((tracked_clearArea a.ref).ends ht hclear) hreplay
  exact hreplayed.calm (calm_of_book rfl rfl rfl)

theorem tracked_rest (hh : o.host.KeepsCalm) (hroots : ∀ a ∈ roots, a.Uses Command.IsUnaided)
    {before rest : List Area} (hlist : roots = before ++ rest)
    (hbefore : exec (before.forM o.fillArea) s = (.ok (), t))
    (ht : Tracked o.host (o.Visits roots s) s t) (h : exec (rest.forM o.fillArea) t = (.ok (), u)) :
    Tracked o.host (o.Visits roots s) s u := by
  induction rest generalizing before t with
  | nil =>
    cases h
    exact ht
  | cons a rest ih =>
    obtain ⟨_, v, harea, hrest⟩ := bind_eq_ok.1 h
    have hv : Tracked o.host (o.Visits roots s) s v := by
      refine tracked_fillArea hh (hroots a ?_) (fun w hclear origin place x hx => ?_) ht harea
      · rw [hlist]
        exact List.mem_append_right _ List.mem_cons_self
      · exact ⟨before, a, rest, t, w, hlist, hbefore, hclear, hx⟩
    refine ih (hlist.trans (List.append_cons before a rest)) ?_ hv hrest
    exact (congrArg (exec · s) List.forM_append).trans
      (bind_eq_ok.2 ⟨(), t, hbefore, bind_eq_ok.2 ⟨(), v, harea, rfl⟩⟩)

theorem tracked_relocateArea {a : Area} (hs : Tracked o.host Visited s t)
    (hcopies : ∀ origin r, r ∈ t.history.targets origin → Write.copy origin r ∈ t.journal)
    (h : exec (Formula.relocateArea a) t = (.ok (), u)) :
    Tracked o.host Visited s u ∧ t.journal ⊆ u.journal := by
  obtain ⟨_, _, hget, h⟩ := bind_eq_ok.1 h
  cases hget
  obtain ⟨_, v, hput, hlog⟩ := bind_eq_ok.1 h
  cases hlog
  have hcopy : ∀ c ∈ Formula.relocations a t.template t.history,
      Preserves (fun v => Tracked o.host Visited s v ∧ t.journal ⊆ v.journal) (fun _ => True)
        (Formula.putCopy c) := by
    intro c hc
    refine preserves_of_ok fun v _ u ⟨hv, hsub⟩ hr => ?_
    obtain ⟨formula, w, hformula, hset⟩ := bind_eq_ok.1 hr
    obtain ⟨-, rfl⟩ := ofExcept_eq_ok.1 hformula
    obtain ⟨info, hinfo, hc⟩ := List.mem_flatMap.1 hc
    obtain ⟨target, htarget, rfl⟩ := List.mem_map.1 hc
    have hbrings : (Write.formula target formula).Brings o.host v.template Visited v.journal := by
      rw [hv.template, ← hs.template]
      exact ⟨info, List.mem_of_mem_filter hinfo, hsub (hcopies _ _ htarget)⟩
    have hdeposits := deposits_setFormula hbrings hset
    refine ⟨hv.deposits hdeposits, fun w hw => ?_⟩
    rw [hdeposits.journal]
    exact List.mem_cons_of_mem _ (hsub hw)
  obtain ⟨hv, hsub⟩ := (preserves_forM hcopy).ends ⟨hs, List.Subset.refl _⟩ hput
  exact ⟨hv.calm (calm_of_book rfl rfl rfl), hsub⟩

theorem tracked_relocateAreas (hs : Tracked o.host Visited s t)
    (hcopies : ∀ origin r, r ∈ t.history.targets origin → Write.copy origin r ∈ t.journal)
    (h : exec (roots.forM Formula.relocateArea) t = (.ok (), u)) :
    Tracked o.host Visited s u := by
  induction roots generalizing t with
  | nil =>
    cases h
    exact hs
  | cons a rest ih =>
    obtain ⟨_, v, hmove, hrest⟩ := bind_eq_ok.1 h
    obtain ⟨hv, hsub⟩ := tracked_relocateArea hs hcopies hmove
    refine ih hv (fun origin r hr => ?_) hrest
    rw [(Formula.relocateArea_overruled hmove).stands.history] at hr
    exact hsub (hcopies origin r hr)

theorem tracked_clearTemplate : Preserves (Tracked o.host Visited s) (fun _ => True) o.clearTemplate := by
  have hunused : ∀ info, Preserves (Tracked o.host Visited s) (fun _ => True) (o.clearUnused info) := by
    intro info
    unfold clearUnused
    split
    · exact preserves_pure _
    · refine (FillHost.preserves_calm (confined_outputCell (fun _ => False) _)).bind fun cell => ?_
      split
      · split
        · exact tracked_clearCell _
        · exact preserves_pure _
      · exact preserves_pure _
  unfold clearTemplate
  split
  · exact preserves_get.bind fun _ => preserves_forM fun info _ => hunused info
  · exact preserves_pure _

theorem tracked_fillAreas (hh : o.host.KeepsCalm) (hr : o.host.Records)
    (hwrite : Leads Calm o.beforeWrite) (hroots : ∀ a ∈ roots, a.Uses Command.IsUnaided)
    (hnew : s.history = ∅) (h : exec (o.fillAreas roots) s = (.ok (), t)) :
    Tracked o.host (o.Visits roots s) s t := by
  obtain ⟨_, u, hfill, h⟩ := bind_eq_ok.1 h
  obtain ⟨_, v, hmove, h⟩ := bind_eq_ok.1 h
  have hfilled : Tracked o.host (o.Visits roots s) s u :=
    tracked_rest hh hroots (List.nil_append roots).symm rfl (tracked_self s) hfill
  have hmoved : Tracked o.host (o.Visits roots s) s v := by
    refine tracked_relocateAreas hfilled (fun origin r hr' => ?_) hmove
    have hrecorded : Recorded s u := (leads_forM fun a _ => leads_recorded_fillArea hr a).apply hfill
    rcases hrecorded.copies origin r hr' with hempty | hcopy
    · rw [hnew] at hempty
      exact absurd hempty List.not_mem_nil
    · exact hcopy
  have hcomments : Leads Calm (removeComments Directive.mark) := by
    refine leads_modify fun u => ⟨rfl, ?_, rfl⟩
    exact Workbook.passes_map (stripSheet_title _) fun x =>
      Sheet.passes_of_face fun p => stripSheet_face? _ x p
  have hrest : Preserves (Tracked o.host (o.Visits roots s) s) (fun _ => True) (do
      o.clearTemplate
      removeComments Directive.mark
      o.markRecalculation
      o.beforeWrite) := by
    refine tracked_clearTemplate.bind fun _ => (FillHost.preserves_calm hcomments).bind fun _ => ?_
    refine (FillHost.preserves_calm ?_).bind fun _ => FillHost.preserves_calm hwrite
    unfold markRecalculation
    split
    · exact leads_modify fun u => ⟨rfl, Workbook.passes_of_subset (List.Subset.refl _), rfl⟩
    · exact leads_pure _
  exact hrest.ends hmoved h

/-- Every formula in a filled workbook is accounted for: the last write to its cell copied a template
cell with a formula, moved such a formula, or stored a link whose text reads as one. What a copy
stores is what its cell comes to from the state in which the fill makes this copy. -/
theorem process_accounts_for_formulas {name : String} {c : Context} {streams : Streams}
    {book : Workbook} {roots : List Area} (hh : o.host.KeepsCalm) (hr : o.host.Records)
    (hwrite : Leads Calm o.beforeWrite) (hroots : ∀ a ∈ roots, a.Uses Command.IsUnaided)
    (h : o.process name c streams book = (.ok (), t, some ⟨t, roots⟩)) :
    ∃ s, exec (o.build c streams) (o.opened name book) = (.ok roots, s) ∧
      s.book = (o.opened name book).book ∧ s.journal = [] ∧
      ∃ A, Course s t A ∧ A.map Traced.sheet = t.book.sheets ∧
        ∀ a ∈ A, ∀ p, a.sheet.HoldsFormula p →
          a.lineage.Explains o.host s.template (o.Visits roots s) p := by
  obtain ⟨s, hbuild, hfill⟩ := process_eq_ok.1 h
  have hs := build_annotated hbuild
  have htracked := tracked_fillAreas hh hr hwrite hroots hs.history hfill
  exact ⟨s, hbuild, hs.book, hs.journal, htracked.course⟩

def linkCell : Workbook where
  sheets :=
    [({ title := "S" } : Sheet).setCell ⟨0, 0⟩
      { value := .text "${h}", type := .text, comment? := some "jx:area(lastCell=\"A1\")" }]

def linkedSum : Context := { data := [("h", .link "http://x" "=1+1")] }

def linkedFilled : FillState := (process {} "link" linkedSum [] linkCell).2.1

theorem linkCell_accounted :
    ∃ s roots, exec (build {} linkedSum []) (opened {} "link" linkCell) = (.ok roots, s) ∧
      process {} "link" linkedSum [] linkCell = (.ok (), linkedFilled, some ⟨linkedFilled, roots⟩) ∧
      (linkedFilled.book.content ⟨"S", 0, 0⟩).type = .formula ∧
      linkedFilled.journal.map Write.target = [⟨"S", 0, 0⟩, ⟨"S", 0, 0⟩] ∧
      ∃ A, Course s linkedFilled A ∧ A.map Traced.sheet = linkedFilled.book.sheets ∧
        ∀ a ∈ A, ∀ p, a.sheet.HoldsFormula p →
          a.lineage.Explains {} s.template (Visits {} roots s) p := by
  obtain ⟨roots, hprocess⟩ := process_of_toOption
    (show (process {} "link" linkedSum [] linkCell).1.toOption = some () by decide +kernel)
  have hh : ({} : FillHost).KeepsCalm := ⟨fun _ _ _ => leads_pure _, fun _ _ _ => leads_pure _⟩
  have hr : ({} : FillHost).Records :=
    ⟨fun _ _ _ => leads_pure _, fun _ _ _ => leads_pure _, fun _ _ _ => leads_pure _,
      fun _ _ => leads_pure _⟩
  have hbare : (exec (build {} linkedSum []) (opened {} "link" linkCell)).1.toOption.map
      (fun roots => roots.all fun a => a.bindings.isEmpty) = some true := by decide +kernel
  have hroots : ∀ a ∈ roots, a.Uses Command.IsUnaided := by
    obtain ⟨s, hbuild, -⟩ := process_eq_ok.1 hprocess
    rw [hbuild] at hbare
    intro a ha
    have hempty := List.all_eq_true.1 (Option.some.inj hbare) a ha
    obtain ⟨start, size, bindings, listeners, bound⟩ := a
    cases List.isEmpty_iff.1 hempty
    trivial
  obtain ⟨s, hbuild, -, -, hcourse⟩ :=
    process_accounts_for_formulas hh hr (leads_pure _) hroots hprocess
  exact ⟨s, roots, hbuild, hprocess, by decide +kernel, by decide +kernel, hcourse⟩

end FillOptions

end SheetTemplate
