import SheetTemplate.Proofs.Area.Abreast
import SheetTemplate.Proofs.Fill.Repeating

/-!
Filling a template again. Clearing what the first fill wrote does not bring back what it overwrote
outside the areas; but as long as the merged blocks are back, a second fill takes every step that the
fill of a template just opened would take, and the workbooks differ in no other cells.
-/

namespace SheetTemplate

open FillM FillState

namespace FillState

variable {s t : FillState} {r : CellRef}

def Written (s : FillState) (r : CellRef) : Prop := ∃ v ∈ s.journal, v.target = r ∧ v ≠ .clear r

theorem Written.targets (h : s.Written r) : s.Targets r := by
  obtain ⟨v, hv, hr, -⟩ := h
  exact ⟨v, hv, hr⟩

def Sweeps (s t : FillState) : Prop := ∀ r, t.Written r → s.Written r

instance : Loose Sweeps where
  refl _ _ h := h
  trans _ _ _ hst htu r hr := hst r (htu r hr)
  sheet _ _ _ _ _ h := h
  written _ _ _ h := h
  images _ _ _ _ h := h
  log _ _ _ h := h
  book _ _ _ h := h
  sheets _ _ _ _ h := h

theorem sweeps_clear (r : CellRef) (s : FillState) :
    Sweeps s { s with journal := .clear r :: s.journal } := by
  rintro x ⟨v, hv, hx, hne⟩
  rcases List.mem_cons.1 hv with rfl | hv
  · exact absurd (congrArg Write.clear hx) hne
  · exact ⟨v, hv, hx, hne⟩

structure Recalls (s t : FillState) : Prop where
  context : t.context = s.context
  streams : t.streams = s.streams

instance : Loose Recalls where
  refl _ := ⟨rfl, rfl⟩
  trans _ _ _ hst htu := ⟨htu.context.trans hst.context, htu.streams.trans hst.streams⟩
  sheet _ _ _ _ := ⟨rfl, rfl⟩
  written _ _ := ⟨rfl, rfl⟩
  images _ _ _ := ⟨rfl, rfl⟩
  log _ _ := ⟨rfl, rfl⟩
  book _ _ := ⟨rfl, rfl⟩
  sheets _ _ _ := ⟨rfl, rfl⟩

end FillState

theorem FillM.leads_clearTargets {R : FillState → FillState → Prop} [Loose R]
    (hclear : ∀ r (s : FillState), R s { s with journal := .clear r :: s.journal }) :
    Leads R clearTargets := by
  refine leads_get.bind fun s => Leads.bind ?_ fun _ => leads_modify fun u => ?_
  · refine leads_forM fun r _ => (leads_sheet? _).bind fun x? => ?_
    cases x? with
    | none => exact leads_pure _
    | some x =>
      refine (leads_unmergeAll Loose.book _ _ _).bind fun _ => ?_
      exact leads_clearCell r (hclear r)
  · have hbook := Loose.book (R := R) u { u.book with sheets := u.book.sheets.map (.without u.ownImages) }
    have hwritten := Storable.written (R := R)
      { u with book := { u.book with sheets := u.book.sheets.map (.without u.ownImages) } } []
    exact trans_of R (trans_of R hbook hwritten) (Storable.images _ u.nextImage [])

namespace FillOptions

variable {o : FillOptions} {updates : Prop} {w : Renewal} {later roots : List Area} {a : Area}
  {s s' t t' : FillState}

/-- Each area is as it was until its turn comes: nothing is copied to cells in it that the template
covers, and no block that is listed crosses its border. -/
def KeepsApart (o : FillOptions) : List Area → FillState → Prop
  | [], _ => True
  | a :: rest, s => s.Apart (a :: rest) ∧
      ∀ t, exec (o.fillArea a) s = (.ok (), t) → o.KeepsApart rest t

theorem KeepsApart.apart (h : o.KeepsApart later s) : s.Apart later := by
  cases later with
  | nil => exact ⟨fun _ _ _ => .inl fun _ ha => (nomatch ha), fun _ _ _ _ ha => (nomatch ha)⟩
  | cons a rest => exact h.1

theorem fillArea_eq_ok (h : exec (o.fillArea a) s = (.ok (), t)) :
    ∃ u v size c log, exec (clearArea a.ref) s = (.ok (), u) ∧
      exec (a.replay o.host a.start) u = (.ok size, v) ∧ t = { v with context := c, log := log } ∧
        c = (v.context.removeRun Context.rowName).removeRun Context.columnName := by
  obtain ⟨_, u, hclear, h⟩ := bind_eq_ok.1 h
  obtain ⟨size, v, hreplay, hlog⟩ := bind_eq_ok.1 h
  rw [exec_ensuring] at hreplay
  obtain ⟨hr, hv⟩ := Prod.mk.inj hreplay
  cases hlog
  exact ⟨u, _, size, _, _, hclear, Prod.ext hr rfl, by rw [← hv], rfl⟩

section Aligned

variable (hh : o.host.Stateless)
  (hrenewed : updates → ∀ r, Outside w.roots r → w.cleared.face? r = w.fresh.face? r)

include hh hrenewed

theorem aligned_fillArea (ha : a.Uses (Command.Stays updates))
    (h : Aligned w (a :: later) (fun _ => False) s s') (hs : s.Apart (a :: later))
    (ht : t.Apart later) (hr : exec (o.fillArea a) s = (.ok (), t))
    (hr' : exec (o.fillArea a) s' = (.ok (), t')) : Aligned w later (fun _ => False) t t' := by
  obtain ⟨u, v, size, c, log, hclear, hreplay, rfl, rfl⟩ := fillArea_eq_ok hr
  obtain ⟨u', v', size', c', log', hclear', hreplay', rfl, rfl⟩ := fillArea_eq_ok hr'
  have hrespects : ∀ {book : Workbook}, book.Respects (a :: later) → book.Respects [a] := by
    intro book hbook title b hb x hx
    rw [List.mem_singleton.1 hx]
    exact hbook title b hb a List.mem_cons_self
  have hvacated := clearArea_vacated h.deleted h.tucked (hrespects hs.blocks) hclear
  have hvacated' := clearArea_vacated h.deleted' h.tucked' (hrespects h.respects) hclear'
  have hu : Aligned w later (fun _ => False) u u' :=
    h.vacated hvacated hvacated' (yields_kept_clearArea _ _ _ _ hclear)
      (yields_kept_clearArea _ _ _ _ hclear')
  have hv : Aligned w later (fun _ => False) v v' :=
    ((hh.twins w later hrenewed).replay ha rfl u u' size size' v v' hu hreplay hreplay'
      ⟨ht.copies, ht.blocks⟩).1
  refine hv.settle rfl rfl rfl rfl rfl rfl rfl hv.history ?_ hv.streams
  rw [hv.context]

-- By induction on the areas: each is cleared in both fills before anything is said of its cells.
theorem aligned_roots (hroots : ∀ a ∈ roots, a.Uses (Command.Stays updates))
    (h : Aligned w roots (fun _ => False) s s') (hs : o.KeepsApart roots s)
    (hr : exec (roots.forM o.fillArea) s = (.ok (), t))
    (hr' : exec (roots.forM o.fillArea) s' = (.ok (), t')) : Aligned w [] (fun _ => False) t t' := by
  induction roots generalizing s s' with
  | nil =>
    cases hr
    cases hr'
    exact h
  | cons a rest ih =>
    obtain ⟨_, u, hu, hr⟩ := bind_eq_ok.1 hr
    obtain ⟨_, u', hu', hr'⟩ := bind_eq_ok.1 hr'
    have hrest := hs.2 u hu
    have ha := hroots a List.mem_cons_self
    refine ih (fun x hx => hroots x (List.mem_cons_of_mem a hx)) ?_ hrest hr hr'
    exact aligned_fillArea hh hrenewed ha h hs.1 hrest.apart hu hu'

end Aligned

theorem agree_relocateArea {Good : FillState → Prop} (a : Area) :
    AgreeOn Good (Aligned w later fun _ => False) (Formula.relocateArea a)
      (Formula.relocateArea a) := by
  apply Agree.of_true
  intro s s' _ _ t t' h hr hr' _
  obtain ⟨_, _, hget, hr⟩ := bind_eq_ok.1 hr
  obtain ⟨_, _, hget', hr'⟩ := bind_eq_ok.1 hr'
  cases hget
  cases hget'
  rw [h.template', ← h.template, h.history] at hr'
  have hput : ∀ c, AgreeOn (fun _ => True) (Aligned w later fun _ => False) (Formula.putCopy c)
      (Formula.putCopy c) := by
    rintro ⟨target, formula⟩
    cases formula with
    | error f => exact agree_throw f _
    | ok formula => exact agree_setFormula target formula
  have hcopies : AgreeOn (fun _ => True) (Aligned w later fun _ => False)
      ((Formula.relocations a s.template s.history).forM Formula.putCopy)
      ((Formula.relocations a s.template s.history).forM Formula.putCopy) :=
    agree_forM (List.forall₂_same.2 fun c _ => hput c) fun _ => leads_spoils_true _
  exact (hcopies.bind (fun _ _ _ => agree_log _ _ _ _) fun _ => leads_spoils_true _).ends h hr hr'

theorem aligned_relocateAreas (h : Aligned w [] (fun _ => False) s s')
    (hr : exec (roots.forM Formula.relocateArea) s = (.ok (), t))
    (hr' : exec (roots.forM Formula.relocateArea) s' = (.ok (), t')) :
    Aligned w [] (fun _ => False) t t' := by
  have hagree : AgreeOn (fun _ => True) (Aligned w [] fun _ => False)
      (roots.forM Formula.relocateArea) (roots.forM Formula.relocateArea) :=
    agree_forM (List.forall₂_same.2 fun a _ => agree_relocateArea a) fun _ => leads_spoils_true _
  exact (hagree.ends h hr hr').1

theorem Spares.unique {T : Template} {r : CellRef} {c out out' : Content} (h : o.Spares T r c out)
    (h' : o.Spares T r c out') : out' = out := by
  by_cases hwipes : o.Wipes T r c
  · rw [h.wiped hwipes, h'.wiped hwipes]
  · rw [h.spared hwipes, h'.spared hwipes]

/-- A cell outside the areas that nothing is written to: it comes to what the workbook showed there
when the fill began, and that was not the same for both. -/
structure Stale (o : FillOptions) (w : Renewal) (t t' : FillState) (r : CellRef) : Prop where
  outside : Outside w.roots r
  unwritten : ¬ t.Written r
  differs : w.cleared.content r ≠ w.fresh.content r
  fresh : o.Spares w.template r (w.fresh.content r) (t.book.content r)
  last : o.Spares w.template r (w.cleared.content r) (t'.book.content r)

/-- A template that was filled again came to what a fill of the template comes to when it was just
opened, but for cells that neither fill wrote to. -/
structure Renews (o : FillOptions) (w : Renewal) (t t' : FillState) : Prop where
  titles : t'.book.titles = t.book.titles
  blocks : ∀ title, t'.book.blocks title = t.book.blocks title
  images : ∀ title, (t'.book.images title).map Image.look = (t.book.images title).map Image.look
  cells : ∀ r, t'.book.content r = t.book.content r ∨ o.Stale w t t' r

def lastSteps (o : FillOptions) : FillM Unit := do
  o.clearTemplate
  removeComments Directive.mark
  o.markRecalculation
  o.beforeWrite

theorem clearTemplate_content (hdeleted : s.deleted = []) (hkeyed : s.template.Keyed)
    (h : exec o.clearTemplate s = (.ok (), t)) (r : CellRef) :
    o.Spares s.template r (s.book.content r) (t.book.content r) := by
  obtain ⟨u, hu, hsettled, hspares⟩ := o.clearTemplate_spares hkeyed
  rw [hu] at h
  cases h
  cases hfind : (s.book.find? r.sheet).isSome with
  | true => exact hspares r (by rwa [sheet?_of_deleted hdeleted])
  | false =>
    rw [Workbook.content_of_missing rfl hfind, Workbook.content_of_missing hsettled.titles hfind]
    exact ⟨fun _ => rfl, fun _ => rfl⟩

theorem lastSteps_spares (hwrite : Leads Remarked o.beforeWrite) (hdeleted : s.deleted = [])
    (hkeyed : s.template.Keyed) (h : exec o.lastSteps s = (.ok (), t)) :
    Frames (fun _ => True) s t ∧ Sweeps s t ∧
      ∀ r : CellRef, o.Spares s.template r (s.book.content r) (t.book.content r) := by
  obtain ⟨_, u, hclear, h⟩ := bind_eq_ok.1 h
  have hclears : Leads (Frames fun _ => True) o.clearTemplate :=
    o.leads_clearTemplate fun r s => frames_write trivial s
  have hframes := hclears.apply hclear
  have hsweeps : Sweeps s u := (o.leads_clearTemplate sweeps_clear).apply hclear
  have hfinish : Frames (fun _ => False) u t := (leads_frames_finish _ hwrite).apply h
  refine ⟨trans_of _ hframes (hfinish.mono fun _ => False.elim), fun r hr => hsweeps r ?_, fun r => ?_⟩
  · obtain ⟨v, hv, hx⟩ := hr
    exact ⟨v, hfinish.grown.journal_eq ▸ hv, hx⟩
  · have := clearTemplate_content hdeleted hkeyed hclear r
    rwa [Workbook.content_congr (hfinish.face r id)]

theorem renews_of_aligned (hwrite : Leads Remarked o.beforeWrite) (hkeyed : w.template.Keyed)
    (h : Aligned w [] (fun _ => False) s s') (hr : exec o.lastSteps s = (.ok (), t))
    (hr' : exec o.lastSteps s' = (.ok (), t')) : o.Renews w t t' := by
  obtain ⟨hframes, hsweeps, hspares⟩ := lastSteps_spares hwrite h.deleted (h.template ▸ hkeyed) hr
  obtain ⟨hframes', -, hspares'⟩ := lastSteps_spares hwrite h.deleted' (h.template' ▸ hkeyed) hr'
  constructor
  case titles => rw [hframes'.titles, h.titles, hframes.titles]
  case blocks =>
    intro title
    have hblocks := h.blocks title
    have hall : Block.beginsOutside [] title = fun _ => true := rfl
    rw [hall, List.filter_true, List.filter_true] at hblocks
    rw [hframes'.blocks, hblocks, hframes.blocks]
  case images =>
    intro title
    rw [hframes'.images, h.images, hframes.images]
  case cells =>
    intro r
    have hspare := hspares r
    have hspare' := hspares' r
    rw [h.template] at hspare
    rw [h.template'] at hspare'
    -- What was the same before the last steps is the same afterwards.
    have hsame : s'.book.content r = s.book.content r → t'.book.content r = t.book.content r := by
      intro hcontent
      rw [hcontent] at hspare'
      exact hspare.unique hspare'
    rcases (h.faces r id).eq_or fun _ ha => nomatch ha with hface | ⟨hnot, hout, hfresh, hcleared⟩
    · exact .inl (hsame (Workbook.content_congr hface))
    · by_cases hcontent : s'.book.content r = s.book.content r
      · exact .inl (hsame hcontent)
      · rw [← Workbook.content_congr hfresh] at hspare
        rw [← Workbook.content_congr hcleared] at hspare'
        rw [← Workbook.content_congr hfresh, ← Workbook.content_congr hcleared] at hcontent
        exact .inr ⟨hout, fun hr => hnot (hsweeps r hr).targets, hcontent, hspare, hspare'⟩

end FillOptions

section Opened

variable (w : Workbook)

theorem FillState.ofWorkbook_titles : (ofWorkbook w).book.titles = w.titles :=
  Workbook.titles_map Sheet.filled_title

theorem FillState.ofWorkbook_face? (r : CellRef) : (ofWorkbook w).book.face? r = w.face? r := by
  refine (Workbook.face?_map Sheet.filled_title r).trans ?_
  rw [Workbook.face?]
  cases w.find? r.sheet with
  | none => rfl
  | some x => exact Sheet.face?_filled

theorem FillState.ofWorkbook_blocks (title : String) :
    (ofWorkbook w).book.blocks title = w.blocks title :=
  Workbook.blocks_map Sheet.filled_title Sheet.filled_merged title

theorem FillState.ofWorkbook_images (title : String) :
    (ofWorkbook w).book.images title = w.images title := by
  have hall : ∀ x : Sheet, x.filled.images = x.images.filter fun _ => true := by
    intro x
    rw [List.filter_true]
    exact x.foldl_touch_images _
  refine (Workbook.images_map Sheet.filled_title hall title).trans ?_
  rw [List.filter_true]

theorem FillState.ofWorkbook_pictures : Pictures w.images (ofWorkbook w) := by
  refine ⟨fun title => ?_, fun title i hi => ?_, fun n hn => nomatch hn⟩
  · rw [ofWorkbook_images]
    exact List.filter_true _
  · rw [ofWorkbook_images, Workbook.images] at hi
    cases hx : w.find? title with
    | none =>
      rw [hx] at hi
      cases hi
    | some x =>
      rw [hx] at hi
      have hmem : i ∈ w.sheets.flatMap Sheet.images :=
        List.mem_flatMap.2 ⟨x, List.mem_of_find?_eq_some hx, hi⟩
      exact List.le_max?_getD_of_mem (List.mem_map_of_mem (f := fun i : Image => i.id + 1) hmem)

variable {w}

theorem FillState.ofWorkbook_tucked (hw : w.Tucked) : (ofWorkbook w).book.Tucked := by
  refine hw.mono (ofWorkbook_titles w) (fun r _ hr => ?_) fun title => ?_
  · rwa [ofWorkbook_face?] at hr
  · rw [ofWorkbook_blocks]
    exact List.Subset.refl _

end Opened

def FillM.reopen (c : Context) (streams : Streams) : FillM Unit := do
  FillM.start c streams
  FillM.clearTargets
  FillM.resetHistory

def Filled.cleared (f : Filled) (c : Context) (streams : Streams) : FillState :=
  (exec (FillM.reopen c streams) f.state).2

/-- Outside the areas the merged blocks are back, and what they cover; and no block is left that the
template does not have. -/
structure Workbook.Restored (book : Workbook) (roots : List Area) (cleared : Workbook) : Prop where
  covered : ∀ r, Outside roots r → (cleared.face? r = none ↔ book.face? r = none)
  blocks : ∀ title, (cleared.blocks title).filter (Block.beginsOutside roots title) =
    (book.blocks title).filter (Block.beginsOutside roots title)
  within : ∀ title, ∀ b ∈ cleared.blocks title, ∃ outer ∈ book.blocks title, b.within outer = true

theorem Workbook.restored_of_unmerged {book cleared : Workbook} (roots : List Area)
    (hbook : book.Tucked) (hcleared : cleared.Tucked) (htitles : cleared.titles = book.titles)
    (hblocks : ∀ title, book.blocks title = []) (hblocks' : ∀ title, cleared.blocks title = []) :
    book.Restored roots cleared := by
  have hfree : ∀ {v : Workbook}, (∀ title, v.blocks title = []) → ∀ r : CellRef,
      ∀ b ∈ v.blocks r.sheet, r.pos ∉ b.hidden := by
    intro v hv r b hb
    rw [hv] at hb
    cases hb
  constructor
  case covered =>
    intro r _
    rw [hcleared.face?_eq_none (hfree hblocks' r), hbook.face?_eq_none (hfree hblocks r),
      Workbook.find?_isSome_iff htitles]
  case blocks =>
    intro title
    rw [hblocks, hblocks']
  case within =>
    intro title b hb
    rw [hblocks'] at hb
    cases hb

namespace FillOptions

variable {o : FillOptions} {updates : Prop} {name : String} {c c₁ c₂ : Context}
  {streams streams₁ streams₂ : Streams} {book : Workbook} {first last fresh : Filled}
  {roots roots' : List Area} {s s' t : FillState}

def ready (o : FillOptions) (name : String) (c : Context) (streams : Streams) (book : Workbook) :
    FillState :=
  (exec (o.build c streams) (o.opened name book)).2

theorem refill_eq_ok (h : o.refill c streams first = (.ok (), last)) :
    exec (reopen c streams) first.state = (.ok (), first.cleared c streams) ∧
      exec (o.fillAreas first.areas) (first.cleared c streams) = (.ok (), last.state) := by
  have hrun : exec (do
      FillM.refuseRetired
      FillM.start c streams
      FillM.clearTargets
      FillM.resetHistory
      o.fillAreas first.areas) first.state = (.ok (), last.state) := by
    obtain ⟨hr, hstate⟩ := Prod.mk.inj h
    exact Prod.ext hr (congrArg Filled.state hstate)
  obtain ⟨_, u, hrefuse, hrun⟩ := bind_eq_ok.1 hrun
  have hu : u = first.state := by
    obtain ⟨_, _, hget, hrefuse⟩ := bind_eq_ok.1 hrefuse
    cases hget
    split at hrefuse
    · cases hrefuse
      rfl
    · cases hrefuse
  subst hu
  obtain ⟨_, u₁, hstart, hrun⟩ := bind_eq_ok.1 hrun
  obtain ⟨_, u₂, hclear, hrun⟩ := bind_eq_ok.1 hrun
  obtain ⟨_, u₃, hreset, hrun⟩ := bind_eq_ok.1 hrun
  have hreopen : exec (reopen c streams) first.state = (.ok (), u₃) :=
    bind_eq_ok.2 ⟨_, _, hstart, bind_eq_ok.2 ⟨_, _, hclear, hreset⟩⟩
  rw [Filled.cleared, hreopen]
  exact ⟨rfl, hrun⟩

theorem reopen_cleared (h : exec (reopen c streams) s = (.ok (), t)) :
    Kept s t ∧ (∀ base, Pictures base s → ∀ title, t.book.images title = base title) ∧
      t.history = ∅ ∧ t.context = c ∧ t.streams = streams := by
  obtain ⟨_, u, hstart, h⟩ := bind_eq_ok.1 h
  cases hstart
  obtain ⟨_, v, hclear, hreset⟩ := bind_eq_ok.1 h
  cases hreset
  obtain ⟨hkept, himages⟩ := clearTargets_kept hclear
  have hrecalls : Recalls { s with context := c, streams := streams } v :=
    (leads_clearTargets fun _ _ => ⟨rfl, rfl⟩).apply hclear
  have hs : Kept s { s with context := c, streams := streams } := kept_of_book rfl rfl rfl rfl rfl
  refine ⟨trans_of Kept hs ?_, fun base hbase => himages base (hs.pictures base hbase), rfl,
    hrecalls.context, hrecalls.streams⟩
  refine ⟨hkept.template, hkept.deleted, hkept.titles, hkept.tucked, fun base hbase => ?_⟩
  exact ⟨(hkept.pictures base hbase).images, (hkept.pictures base hbase).numbered,
    (hkept.pictures base hbase).own⟩

theorem build_repeats (h : exec (o.build c₁ streams₁) (o.opened name book) = (.ok roots, s))
    (h' : exec (o.build c₂ streams₂) (o.opened name book) = (.ok roots', s')) :
    s'.template = s.template ∧ roots' = roots := by
  obtain ⟨_, u, hstart, h⟩ := bind_eq_ok.1 h
  obtain ⟨_, u', hstart', h'⟩ := bind_eq_ok.1 h'
  cases hstart
  cases hstart'
  have hsame : Congruent { o.opened name book with context := c₁, streams := streams₁ }
      { o.opened name book with context := c₂, streams := streams₂ } := rfl
  obtain ⟨htemplate, hroots⟩ := (repeats_buildAreas o.registry o.listeners).ends hsame h h'
  exact ⟨htemplate, hroots.symm⟩

theorem hides_of_mem_blocks {r : CellRef} {b : Block}
    (hs : Annotated { o.opened name book with context := c, streams := streams } s)
    (hb : b ∈ (ofWorkbook book).book.blocks r.sheet) (hp : r.pos ∈ b.hidden) : s.template.Hides r := by
  rw [Template.hides_congr (hs.merged r.sheet)]
  change (Template.ofWorkbook (ofWorkbook book).book).Hides r
  rw [Template.hides_ofWorkbook]
  cases hx : (ofWorkbook book).book.find? r.sheet with
  | none =>
    rw [Workbook.blocks, hx] at hb
    cases hb
  | some x =>
    rw [Workbook.blocks_of_find? hx] at hb
    exact ⟨x, rfl, b, hb, hp⟩

theorem not_hidden_of_restored {cleared : Workbook} {r : CellRef} {b : Block}
    (hs : Annotated { o.opened name book with context := c, streams := streams } s)
    (hrestored : book.Restored roots cleared) (hr : ¬ s.template.Hides r)
    (hb : b ∈ cleared.blocks r.sheet) : r.pos ∉ b.hidden := by
  intro hp
  obtain ⟨outer, houter, hwithin⟩ := hrestored.within r.sheet b hb
  rw [← ofWorkbook_blocks] at houter
  exact hr (hides_of_mem_blocks hs houter (Block.hidden_of_within hwithin hp))

theorem pictures_of_annotated
    (hs : Annotated { o.opened name book with context := c, streams := streams } s) :
    Pictures book.images s := by
  have hopened := ofWorkbook_pictures book
  have hbook : s.book = (ofWorkbook book).book := hs.book
  refine ⟨fun title => ?_, fun title i hi => ?_, fun n hn => ?_⟩
  · rw [hbook, hs.ownImages]
    exact hopened.images title
  · rw [hbook] at hi
    rw [hs.nextImage]
    exact hopened.numbered title i hi
  · rw [hs.ownImages] at hn
    cases hn

theorem cleared_tucked (hh : o.host.Stateless) (hwrite : Leads Remarked o.beforeWrite)
    (hroots : ∀ a ∈ first.areas, a.Uses (Command.Stays updates)) (htucked : book.Tucked)
    (hfirst : o.process name c₁ streams₁ book = (.ok (), first.state, some first))
    (hcleared : exec (reopen c₂ streams₂) first.state = (.ok (), t)) :
    t.book.titles = book.titles ∧ t.book.Tucked := by
  obtain ⟨u, hbuild, hfill⟩ := process_eq_ok.1 hfirst
  have hubook : u.book = (ofWorkbook book).book := (build_annotated hbuild).book
  have hkept : Kept u t :=
    trans_of Kept (yields_kept_fillAreas hh hroots hwrite _ _ _ hfill) (reopen_cleared hcleared).1
  refine ⟨?_, hkept.tucked ?_⟩
  · rw [hkept.titles, hubook, ofWorkbook_titles]
  · rw [hubook]
    exact ofWorkbook_tucked htucked

theorem aligned_cleared (hh : o.host.Stateless) (hwrite : Leads Remarked o.beforeWrite)
    (htucked : book.Tucked)
    (hroots : ∀ a ∈ first.areas, a.Uses (Command.Stays updates))
    (hfirst : o.process name c₁ streams₁ book = (.ok (), first.state, some first))
    (hready : exec (o.build c₂ streams₂) (o.opened name book) = (.ok roots, s))
    (hcleared : exec (reopen c₂ streams₂) first.state = (.ok (), t))
    (hapart : s.Apart first.areas) (hrestored : book.Restored first.areas t.book) :
    roots = first.areas ∧
      Aligned ⟨first.areas, s.template, book, t.book⟩ first.areas (fun _ => False) s t := by
  obtain ⟨u, hbuild, hfill⟩ := process_eq_ok.1 hfirst
  obtain ⟨htemplate, hareas⟩ := build_repeats hbuild hready
  have hu := build_annotated hbuild
  have hs := build_annotated hready
  have hsbook : s.book = (ofWorkbook book).book := hs.book
  have hubook : u.book = (ofWorkbook book).book := hu.book
  have hkept : Kept u first.state := yields_kept_fillAreas hh hroots hwrite _ _ _ hfill
  obtain ⟨hreopen, himages, hhistory, hcontext, hstreams⟩ := reopen_cleared hcleared
  have hall : Kept u t := trans_of Kept hkept hreopen
  have htitles : t.book.titles = s.book.titles := by rw [hall.titles, hubook, hsbook]
  have hread : s.book.Tucked := hsbook ▸ ofWorkbook_tucked htucked
  have htucked' := (cleared_tucked hh hwrite hroots htucked hfirst hcleared).2
  refine ⟨hareas, ?_⟩
  constructor
  case template => rfl
  case template' => rw [hall.template, htemplate]
  case history => exact hhistory.trans hs.history.symm
  case context => exact hcontext.trans hs.context.symm
  case streams => exact hstreams.trans hs.streams.symm
  case deleted => exact hs.deleted
  case deleted' => exact hall.deleted.trans hu.deleted
  case titles => exact htitles
  case faces =>
    intro r _
    -- The fresh fill has written nothing yet.
    have hunwritten : ¬ s.Targets r := by
      rintro ⟨v, hv, -⟩
      rw [hs.journal] at hv
      cases hv
    have hface : s.book.face? r = book.face? r := by rw [hsbook, ofWorkbook_face?]
    constructor
    · rintro (hr | hr)
      · rw [hface]
        exact hrestored.covered r hr
      · -- A block that hides the cell in either workbook would lie within one of the template.
        have hfree : ∀ b ∈ s.book.blocks r.sheet, r.pos ∉ b.hidden := fun b hb hp =>
          hr (hides_of_mem_blocks hs (hsbook ▸ hb) hp)
        have hfree' : ∀ b ∈ t.book.blocks r.sheet, r.pos ∉ b.hidden := fun b hb =>
          not_hidden_of_restored hs hrestored hr hb
        rw [htucked'.face?_eq_none hfree', hread.face?_eq_none hfree,
          Workbook.find?_isSome_iff htitles]
    · exact fun _ h => absurd h hunwritten
    · exact fun hr _ _ => ⟨hr, hface.symm, rfl⟩
  case blocks =>
    intro title
    rw [hrestored.blocks, hsbook, ofWorkbook_blocks]
  case images =>
    intro title
    rw [himages _ (hkept.pictures _ (pictures_of_annotated hu)), hsbook, ofWorkbook_images]
  case respects =>
    intro title b hb a ha
    obtain ⟨outer, houter, hwithin⟩ := hrestored.within title b hb
    rw [← ofWorkbook_blocks, ← hsbook] at houter
    exact (hapart.blocks title outer houter a ha).mono hwithin
  case tucked => exact hread
  case tucked' => exact htucked'

/-- A template that is filled again comes to what it comes to with the same data when it was just
opened, wherever the fill writes, and wherever the clearing brought back what the template shows. -/
theorem refill_as_fresh (hh : o.host.Stateless) (hwrite : Leads Remarked o.beforeWrite)
    (hbook : book.Regular) (htucked : book.Tucked)
    (hroots : ∀ a ∈ first.areas, a.Uses (Command.Stays updates))
    (hfirst : o.process name c₁ streams₁ book = (.ok (), first.state, some first))
    (hlast : o.refill c₂ streams₂ first = (.ok (), last))
    (hfresh : o.process name c₂ streams₂ book = (.ok (), fresh.state, some fresh))
    (hapart : o.KeepsApart first.areas (o.ready name c₂ streams₂ book))
    (hrestored : book.Restored first.areas (first.cleared c₂ streams₂).book)
    (hupdates : updates → ∀ r, Outside first.areas r →
      (first.cleared c₂ streams₂).book.face? r = book.face? r) :
    o.Renews ⟨first.areas, fresh.state.template, book, (first.cleared c₂ streams₂).book⟩
      fresh.state last.state := by
  obtain ⟨hreopen, hagain⟩ := refill_eq_ok hlast
  obtain ⟨s, hready, hfilled⟩ := process_eq_ok.1 hfresh
  rw [ready, hready] at hapart
  obtain ⟨hareas, hbegin⟩ :=
    aligned_cleared hh hwrite htucked hroots hfirst hready hreopen hapart.apart hrestored
  rw [hareas] at hfilled
  obtain ⟨_, u, hu, hfill⟩ := bind_eq_ok.1 hfilled
  obtain ⟨_, v, hv, hfill⟩ := bind_eq_ok.1 hfill
  obtain ⟨_, u', hu', hagain⟩ := bind_eq_ok.1 hagain
  obtain ⟨_, v', hv', hagain⟩ := bind_eq_ok.1 hagain
  have hreplayed := aligned_roots hh hupdates hroots hbegin hapart hu hu'
  have hmoved := aligned_relocateAreas hreplayed hv hv'
  have hkept : Kept s fresh.state :=
    yields_kept_fillAreas hh hroots hwrite s () fresh.state hfilled
  have hkeyed : s.template.Keyed := (build_annotated hready).keyed (keyed_ofWorkbook hbook)
  rw [hkept.template]
  exact renews_of_aligned hwrite hkeyed hmoved hfill hagain

def growing : Workbook where
  sheets :=
    [(({ title := "S" } : Sheet).setCell ⟨0, 0⟩
        { value := .text "${e}", type := .text
          comment? := some "jx:area(lastCell=\"A1\")\njx:each(items=\"items\" var=\"e\" lastCell=\"A1\")" }
      ).setCell ⟨1, 0⟩ { value := .text "below", type := .text }]

def growingBlock : RepeatedBlock where
  start := ⟨"S", 0, 0⟩
  width := 1
  head := 0
  body := 1
  foot := 0
  each := { items := "items", var := "e" }

def twoLines : Context := { data := [("items", .list [.text "a", .text "b"])] }

def oneLine : Context := { data := [("items", .list [.text "c"])] }

def growingFirst : Filled :=
  ⟨(process {} "growing" twoLines [] growing).2.1, [growingBlock.root]⟩

def growingLast : Filled := (refill {} oneLine [] growingFirst).2

def growingFresh : Filled :=
  ⟨(process {} "growing" oneLine [] growing).2.1, [growingBlock.root]⟩

theorem growing_processed {c : Context}
    (hbuild : (exec (build {} c []) (opened {} "growing" growing)).1.toOption.map
      (fun roots => roots.map growingBlock.isRoot) = some [true])
    (h : (process {} "growing" c [] growing).1.toOption = some ()) :
    process {} "growing" c [] growing = (.ok (), (process {} "growing" c [] growing).2.1,
      some ⟨(process {} "growing" c [] growing).2.1, [growingBlock.root]⟩) := by
  obtain ⟨roots, hprocess⟩ := process_of_toOption h
  obtain ⟨s, hready, -⟩ := process_eq_ok.1 hprocess
  rw [build_root hbuild] at hready
  cases hready
  exact hprocess

theorem blocks_of_titles {w : Workbook} (h : w.titles = ["S"]) (hblocks : w.blocks "S" = [])
    (title : String) : w.blocks title = [] := by
  by_cases ht : title = "S"
  · rw [ht, hblocks]
  · have hnot : title ∉ w.titles := by
      rw [h, List.mem_singleton]
      exact ht
    rw [Workbook.mem_titles, Option.not_isSome_iff_eq_none] at hnot
    rw [Workbook.blocks, hnot]
    rfl

/-- The second fill has one line less: the first one took the place of what stood below, and clearing
did not bring it back. -/
theorem growing_refills :
    process {} "growing" twoLines [] growing =
        (.ok (), growingFirst.state, some growingFirst) ∧
      refill {} oneLine [] growingFirst = (.ok (), growingLast) ∧
      process {} "growing" oneLine [] growing =
        (.ok (), growingFresh.state, some growingFresh) ∧
      Renews {} ⟨[growingBlock.root], growingFresh.state.template, growing,
        (growingFirst.cleared oneLine []).book⟩ growingFresh.state growingLast.state ∧
      (([0, 1] : List Int).map fun row =>
        (growingFresh.state.book.content ⟨"S", row, 0⟩).value.text?) = [some "c", some "below"] ∧
      (([0, 1] : List Int).map fun row =>
        (growingLast.state.book.content ⟨"S", row, 0⟩).value.text?) = [some "c", none] := by
  have hfirst : process {} "growing" twoLines [] growing =
      (.ok (), growingFirst.state, some growingFirst) :=
    growing_processed (by decide +kernel) (by decide +kernel)
  have hfresh : process {} "growing" oneLine [] growing =
      (.ok (), growingFresh.state, some growingFresh) :=
    growing_processed (by decide +kernel) (by decide +kernel)
  have hlast : refill {} oneLine [] growingFirst = (.ok (), growingLast) :=
    eq_ok_of_toOption (by decide +kernel)
  have hh : ({} : FillHost).Stateless := by
    constructor
    · exact fun _ _ _ => leads_pure _
    · exact fun _ _ _ => leads_pure _
    · exact fun _ _ _ => leads_pure _
    · intro l origin target s s' allowed allowed' t t' _ h h'
      cases h
      cases h'
      rfl
    · intro n info info' r s s' out out' t t' _ hinfo h h'
      cases h
      cases h'
      exact hinfo
  have hblocks : ∀ title, growing.blocks title = [] :=
    blocks_of_titles rfl (by decide +kernel)
  have hsheet : ∀ {title x}, growing.find? title = some x → x ∈ growing.sheets := fun hx =>
    List.mem_of_find?_eq_some hx
  have htucked : growing.Tucked := by
    intro r hr hface
    obtain ⟨x, hx⟩ := Option.isSome_iff_exists.1 hr
    rw [Workbook.face?_of_find? hx, List.mem_singleton.1 (hsheet hx), Sheet.face?_setCell] at hface
    split at hface
    · cases hface
    · rw [Sheet.face?_setCell] at hface
      split at hface
      · cases hface
      · cases hface
  have hregular : growing.Regular := by
    refine ⟨by decide, fun x hx b hb => ?_⟩
    rw [List.mem_singleton.1 hx] at hb
    cases hb
  have hroots : ∀ a ∈ growingFirst.areas, a.Uses (Command.Stays False) := by
    intro a ha
    rw [List.mem_singleton.1 ha]
    exact ⟨rfl, ⟨trivial, trivial⟩, trivial⟩
  obtain ⟨hreopen, -⟩ := refill_eq_ok hlast
  obtain ⟨htitles, hcleared⟩ := cleared_tucked hh (leads_pure _) hroots htucked hfirst hreopen
  have hrestored : growing.Restored growingFirst.areas (growingFirst.cleared oneLine []).book := by
    apply Workbook.restored_of_unmerged _ htucked hcleared htitles hblocks
    exact blocks_of_titles htitles (by decide +kernel)
  have hapart : KeepsApart {} growingFirst.areas (ready {} "growing" oneLine [] growing) := by
    have hready : Annotated { opened {} "growing" growing with context := oneLine, streams := [] }
        (ready {} "growing" oneLine [] growing) :=
      build_annotated (build_root (b := growingBlock) (by decide +kernel))
    refine ⟨⟨fun origin target hw => ?_, fun title b hb => ?_⟩, fun _ _ => trivial⟩
    · rw [hready.journal] at hw
      cases hw
    · rw [hready.book] at hb
      have hnone := ofWorkbook_blocks growing title
      rw [hblocks] at hnone
      rw [show (opened {} "growing" growing).book = (ofWorkbook growing).book from rfl, hnone] at hb
      cases hb
  refine ⟨hfirst, hlast, hfresh, ?_, by decide +kernel, by decide +kernel⟩
  exact refill_as_fresh hh (leads_pure _) hregular htucked hroots hfirst hlast hfresh hapart
    hrestored False.elim

end FillOptions

end SheetTemplate
