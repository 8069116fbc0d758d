import SheetTemplate.Proofs.Fill.Refilling

/-!
Cells that a fill passes by. Whatever a step does to a cell, the cell was written to or lies in a
merged block afterwards; so a cell that no write is asked for, and that no block has at any point, is
emptied if an area has it and else shows in the end what the template shows.
-/

namespace SheetTemplate

open FillM FillState

def Workbook.InBlock (w : Workbook) (r : CellRef) : Prop := ∃ b ∈ w.blocks r.sheet, b.Has r.pos

instance (b : Block) (p : Pos) : Decidable (b.Has p) :=
  decidable_of_iff
    (b.first.row ≤ p.row ∧ p.row ≤ b.last.row ∧ b.first.col ≤ p.col ∧ p.col ≤ b.last.col)
    ⟨fun ⟨top, bottom, left, right⟩ => ⟨top, bottom, left, right⟩,
      fun ⟨top, bottom, left, right⟩ => ⟨top, bottom, left, right⟩⟩

instance (w : Workbook) (r : CellRef) : Decidable (w.InBlock r) :=
  inferInstanceAs (Decidable (∃ b ∈ w.blocks r.sheet, b.Has r.pos))

instance (r : CellRef) : ∀ v : Write, Decidable (v = .clear r)
  | .clear x => decidable_of_iff (x = r) ⟨congrArg Write.clear, Write.clear.inj⟩
  | .copy _ _ => isFalse nofun
  | .value _ _ => isFalse nofun
  | .formula _ _ => isFalse nofun

instance (s : FillState) (r : CellRef) : Decidable (s.Written r) :=
  inferInstanceAs (Decidable (∃ v ∈ s.journal, v.target = r ∧ ¬ v = .clear r))

theorem Workbook.InBlock.mono {v w : Workbook} {r : CellRef} (hv : v.InBlock r)
    (h : v.blocks r.sheet ⊆ w.blocks r.sheet) : w.InBlock r := by
  obtain ⟨b, hb, hp⟩ := hv
  exact ⟨b, h hb, hp⟩

namespace FillState

variable {r : CellRef} {s t u : FillState}

structure Records (r : CellRef) (s t : FillState) : Prop where
  template : t.template = s.template
  deleted : t.deleted = s.deleted
  written : s.Written r → t.Written r

/-- What the cell shows differs only if it was written to or lies in a merged block now, and neither
of these is ever undone. -/
structure Declares (r : CellRef) (s t : FillState) : Prop extends Records r s t where
  merged : s.book.InBlock r → t.book.InBlock r
  face : ¬ t.Written r → ¬ t.book.InBlock r → t.book.face? r = s.book.face? r

theorem Written.mono (hs : s.Written r) (h : ∀ v ∈ s.journal, v ∈ t.journal) : t.Written r := by
  obtain ⟨v, hv, hr⟩ := hs
  exact ⟨v, h v hv, hr⟩

instance : IsPreorder FillState (Records r) where
  refl _ := ⟨rfl, rfl, id⟩
  trans _ _ _ h h' := ⟨h'.template.trans h.template, h'.deleted.trans h.deleted,
    fun hs => h'.written (h.written hs)⟩

instance : IsPreorder FillState (Declares r) where
  refl s := { refl_of (Records r) s with merged := id, face := fun _ _ => rfl }
  trans _ _ _ h h' :=
    { trans_of (Records r) h.toRecords h'.toRecords with
      merged := fun hs => h'.merged (h.merged hs)
      face := fun hw hb =>
        (h'.face hw hb).trans (h.face (fun ht => hw (h'.written ht)) fun ht => hb (h'.merged ht)) }

theorem Extends.declares (h : Extends s t)
    (hface : ¬ t.Written r → ¬ t.book.InBlock r → t.book.face? r = s.book.face? r) :
    Declares r s t where
  template := h.template
  deleted := h.deleted
  written hs := hs.mono h.journal
  merged hs := hs.mono (h.blocks r.sheet)
  face := hface

theorem declares_of_book (htemplate : t.template = s.template) (hdeleted : t.deleted = s.deleted)
    (hjournal : ∀ v ∈ s.journal, v ∈ t.journal) (hbook : t.book = s.book) : Declares r s t where
  template := htemplate
  deleted := hdeleted
  written hs := hs.mono hjournal
  merged hs := hbook ▸ hs
  face _ _ := by rw [hbook]

theorem declares_write (s : FillState) (w : Write) :
    Declares r s { s with journal := w :: s.journal } :=
  declares_of_book rfl rfl (fun _ hv => List.mem_cons_of_mem w hv) rfl

theorem Frames.declares (h : Frames (· ≠ r) s t) : Declares r s t :=
  h.extends.declares fun _ _ => h.face r fun hne => hne rfl

theorem declares_of_evaluated (h : Evaluated s t) : Declares r s t := by
  rw [Evaluated] at h
  rw [h]
  exact declares_of_book rfl rfl (fun _ hv => hv) rfl

theorem Merged.declares {title : String} {b : Block} (h : Merged title b s t)
    (hjournal : t.journal = s.journal) : Declares r s t := by
  refine (h.extends hjournal).declares fun _ hfree => ?_
  rw [h.face, if_neg]
  rintro ⟨rfl, hp⟩
  obtain ⟨outer, hmem, hwithin⟩ := h.exists_around
  exact hfree ⟨outer, hmem, Block.has_of_within hwithin (Block.mem_hidden.1 hp).1⟩

instance : Confined (· ≠ r) (Declares r) where
  touch s x := (Confined.touch (R := Frames (· ≠ r)) (· ≠ r) s x).declares
  cell s x c hx := (Confined.cell (P := (· ≠ r)) (R := Frames (· ≠ r)) s x c hx).declares
  inert s title f hf := (Confined.inert (R := Frames (· ≠ r)) (· ≠ r) s title f hf).declares
  written s x := (Confined.written (R := Frames (· ≠ r)) (· ≠ r) s x).declares
  log s x := (Confined.log (R := Frames (· ≠ r)) (· ≠ r) s x).declares

end FillState

namespace FillM

variable {r : CellRef}

theorem leads_declares_record {α : Type} {w : Write} {k : FillM α} (hr : w.target = r)
    (hne : w ≠ .clear r) (hk : Leads Extends k) : Leads (Declares r) (do record w; k) := by
  intro s
  have hafter := hk { s with journal := w :: s.journal }
  refine (trans_of Extends (extends_write s w) hafter).declares fun hnot => absurd ?_ hnot
  exact ⟨w, hafter.journal w List.mem_cons_self, hr, hne⟩

theorem leads_declares_setValue (x : CellRef) (v : Value) (font? : Option Font) :
    Leads (Declares r) (setValue x v font?) := by
  by_cases hx : x = r
  · refine leads_declares_record (w := .value x v) hx nofun ?_
    refine (leads_open? x).bind fun c? => ?_
    cases c? with
    | none => exact leads_pure _
    | some c =>
      exact (leads_modify fun s => Confined.written (fun _ => True) s _).bind fun _ =>
        leads_discard (leads_putOr x _ _)
  · exact confined_setValue (P := (· ≠ r)) hx v font? fun s => declares_write s _

theorem leads_declares_setFormula (x : CellRef) (formula : String) :
    Leads (Declares r) (setFormula x formula) := by
  by_cases hx : x = r
  · refine leads_declares_record (w := .formula x formula) hx nofun ?_
    refine (leads_open? x).bind fun c? => ?_
    cases c? with
    | none => exact leads_pure _
    | some c => exact leads_discard (leads_putOr x _ _)
  · exact confined_setFormula (P := (· ≠ r)) hx formula fun s => declares_write s _

theorem leads_declares_merge (title : String) (b : Block) : Leads (Declares r) (merge title b) := by
  intro s
  rcases hm : exec (merge title b) s with ⟨result, t⟩
  have hjournal := merge_journal hm
  rcases merge_cases hm with ⟨habides, hbook, -⟩ | ⟨-, -, hmerged⟩
  · have hframes : Frames (· ≠ r) s t := frames_of_eq habides hbook hjournal
    exact hframes.declares
  · exact hmerged.declares hjournal

theorem leads_declares_addImage (x : CellRef) (v : Value) (scaleX scaleY : Float) :
    Leads (Declares r) (addImage x v scaleX scaleY) := by
  intro s
  rcases hi : exec (addImage x v scaleX scaleY) s with ⟨result, t⟩
  rcases addImage_cases hi with ⟨hremarked, -⟩ | ⟨-, i, -, hpictured⟩
  · exact (frames_of_remarked hremarked).declares
  · exact hpictured.extends.declares fun _ _ => hpictured.face r

end FillM

instance (h : FillHost) (r : CellRef) : h.Asks (Declares r) :=
  ⟨fun text => (h.leads_evaluateText text).mono fun _ _ => declares_of_evaluated⟩

theorem FillHost.leads_declares_copy (h : FillHost) {r : CellRef} (origin target : CellRef) :
    Leads (Declares r) (h.copy origin target true) := by
  by_cases ht : target = r
  · refine leads_declares_record (w := .copy origin target) ht nofun ?_
    exact h.leads_copyOver leads_extends_merge origin target true fun f _ s =>
      extends_of_book (fun _ hv => hv) rfl rfl rfl rfl rfl
  · refine (leads_modify fun s => declares_write s _).bind fun _ => ?_
    exact h.confined_copyOver leads_declares_merge (P := (· ≠ r)) ht origin true fun f _ s =>
      declares_of_book rfl rfl (fun _ hv => hv) rfl

/-- Hooks and commands of the host that change the cell by writing to it or merging over it only. -/
structure FillHost.Declares (h : FillHost) (r : CellRef) : Prop where
  before : ∀ l origin target, Leads (FillState.Declares r) (h.before l origin target)
  after : ∀ l origin target, Leads (FillState.Declares r) (h.after l origin target)
  update : ∀ n info x, Leads (FillState.Declares r) (h.update n info x)
  run : ∀ c target, Leads (FillState.Declares r) (h.run c target)

def Command.OneSheet : Command → Prop
  | .each e => e.multisheet? = none
  | _ => True

theorem FillHost.Declares.steps {h : FillHost} {r : CellRef} (hh : h.Declares r) :
    h.Steps Command.OneSheet (FillState.Declares r) where
  ask _ := (leads_names.bind fun _ => leads_evaluated_eval _).mono fun _ _ => declares_of_evaluated
  eval _ := (leads_evaluated_eval _).mono fun _ _ => declares_of_evaluated
  bind name index? item index _ hm :=
    hm.binding (fun _ _ => declares_of_book rfl rfl (fun _ hv => hv) rfl) name index? item index
  place _ := (leads_onContext _).mono fun _ _ => declares_of_evaluated
  log := confined_log (· ≠ r)
  copy := h.leads_declares_copy
  value := leads_declares_setValue
  formula := leads_declares_setFormula
  merge := leads_declares_merge
  image := leads_declares_addImage
  height := confined_clearRowHeight (· ≠ r)
  output := confined_outputCell (· ≠ r)
  before := hh.before
  after := hh.after
  update := hh.update
  sheets _ he hne := absurd he hne
  hosted c _ := hh.run c

namespace FillM

variable {s t : FillState} {r : CellRef} {a : Area}

theorem clearArea_content (hd : s.deleted = []) (hfree : ¬ s.book.InBlock r)
    (h : exec (clearArea a.ref) s = (.ok (), t)) :
    t.book.content r = if a.contains r then {} else s.book.content r := by
  have hmem : r ∈ a.cells ↔ a.contains r = true := Size.mem_cellsFrom.trans (a.contains_iff r).symm
  cases hfind : s.book.find? a.start.sheet with
  | none =>
    obtain ⟨log, rfl⟩ := clearArea_of_none hd hfind h
    split
    · next hr =>
      refine Workbook.content_of_missing rfl ?_
      rw [((a.contains_iff r).1 hr).sheet, hfind]
      rfl
    · rfl
  | some x =>
    obtain ⟨u, hunmerged, -, hwiped⟩ := clearArea_stages hd hfind h
    have hu : u.book.face? r = s.book.face? r := by
      rw [hunmerged.face, if_neg]
      rintro ⟨hsheet, b, hb, hp⟩
      refine hfree ⟨b, ?_, (Block.mem_hidden.1 hp).1⟩
      rw [hsheet, Workbook.blocks_of_find? hfind]
      exact (List.mem_filter.1 hb).1
    rw [Workbook.content_eq_face? t.book, Workbook.content_eq_face? s.book, ← hu]
    split
    · next hr =>
      rw [hwiped.wiped r (hmem.2 hr)]
      cases u.book.face? r <;> rfl
    · next hr => rw [hwiped.face r fun hin => hr (hmem.1 hin)]

theorem yields_records_clearArea (a : AreaRef) : Yields (Records r) (clearArea a) := by
  intro s _ t h
  have hkept := yields_kept_clearArea a s () t h
  have hgrown : Leads (Grown fun _ => True) (clearArea a) :=
    leads_clearArea Loose.book (fun x s => grown_record trivial s) a
  exact ⟨hkept.template, hkept.deleted, fun hs => hs.mono fun _ => (hgrown.apply h).mem⟩

end FillM

namespace FillOptions

variable {o : FillOptions} {r : CellRef} {s t u : FillState} {a : Area} {roots : List Area}

def stages (o : FillOptions) : List Area → FillState → List FillState
  | [], s => [s]
  | a :: rest, s => s :: o.stages rest (exec (o.fillArea a) s).2

theorem mem_stages_self (o : FillOptions) (roots : List Area) (s : FillState) :
    s ∈ o.stages roots s := by
  cases roots with
  | nil => exact List.mem_singleton_self s
  | cons a rest => exact List.mem_cons_self

section

variable (hh : o.host.Declares r)

include hh

theorem fillArea_content (ha : a.Uses Command.OneSheet) (hd : s.deleted = [])
    (hs : ¬ s.book.InBlock r) (ht : ¬ t.book.InBlock r) (hw : ¬ t.Written r)
    (h : exec (o.fillArea a) s = (.ok (), t)) :
    t.book.content r = if a.contains r then {} else s.book.content r := by
  obtain ⟨u, v, size, c, log, hclear, hreplay, rfl, -⟩ := fillArea_eq_ok h
  have hreplayed := (hh.steps.replay ha a.start).apply hreplay
  rw [← clearArea_content hd hs hclear]
  exact Workbook.content_congr (hreplayed.face hw ht)

theorem yields_records_fillArea (ha : a.Uses Command.OneSheet) :
    Yields (Records r) (o.fillArea a) := by
  intro s _ t h
  obtain ⟨u, v, size, c, log, hclear, hreplay, rfl, -⟩ := fillArea_eq_ok h
  have hreplayed := ((hh.steps.replay ha a.start).apply hreplay).toRecords
  have hrecords := trans_of (Records r) (yields_records_clearArea a.ref s () u hclear) hreplayed
  exact ⟨hrecords.template, hrecords.deleted, hrecords.written⟩

-- By induction on the areas: those that come later keep every write to the cell on record, so the
-- area that is filled first did not write to it either.
theorem fillRoots_content (hroots : ∀ a ∈ roots, a.Uses Command.OneSheet) (hd : s.deleted = [])
    (hfree : ∀ u ∈ o.stages roots s, ¬ u.book.InBlock r) (hw : ¬ t.Written r)
    (h : exec (roots.forM o.fillArea) s = (.ok (), t)) :
    t.book.content r = if roots.any (·.contains r) then {} else s.book.content r := by
  induction roots generalizing s with
  | nil =>
    cases h
    rfl
  | cons a rest ih =>
    obtain ⟨_, u, hu, h⟩ := bind_eq_ok.1 h
    have hrest : ∀ a ∈ rest, a.Uses Command.OneSheet := fun x hx =>
      hroots x (List.mem_cons_of_mem a hx)
    have hstages : ∀ v ∈ o.stages rest u, ¬ v.book.InBlock r := by
      intro v hv
      refine hfree v (List.mem_cons_of_mem s ?_)
      rwa [hu]
    have hfirst := yields_records_fillArea hh (hroots a List.mem_cons_self) s () u hu
    have hlater := yields_forM (fun x hx => yields_records_fillArea hh (hrest x hx)) u () t h
    have hcontent := fillArea_content hh (hroots a List.mem_cons_self) hd
      (hfree s (o.mem_stages_self _ s)) (hstages u (o.mem_stages_self _ u))
      (fun hr => hw (hlater.written hr)) hu
    rw [ih hrest (hfirst.deleted.trans hd) hstages h, hcontent, List.any_cons]
    cases a.contains r with
    | true => simp
    | false => simp

end

theorem leads_declares_relocateArea (a : Area) :
    Leads (Declares r) (Formula.relocateArea a) := by
  refine leads_get.bind fun s => Leads.bind ?_ fun _ => confined_log (· ≠ r) _ _ _
  exact leads_forM fun c _ => (leads_ofExcept _).bind fun _ => leads_declares_setFormula _ _

theorem lastSteps_content (hwrite : Leads (Declares r) o.beforeWrite) (hd : s.deleted = [])
    (hkeyed : s.template.Keyed) (h : exec o.lastSteps s = (.ok (), t)) :
    (s.Written r → t.Written r) ∧ (s.book.InBlock r → t.book.InBlock r) ∧
      (¬ t.Written r → ¬ t.book.InBlock r →
        o.Spares s.template r (s.book.content r) (t.book.content r)) := by
  obtain ⟨_, u₁, hclear, h⟩ := bind_eq_ok.1 h
  obtain ⟨_, u₂, hcomments, h⟩ := bind_eq_ok.1 h
  obtain ⟨_, u₃, hmark, hlast⟩ := bind_eq_ok.1 h
  have hclears : Leads (Frames fun _ => True) o.clearTemplate :=
    o.leads_clearTemplate fun x s => frames_write trivial s
  have hfinished : Frames (fun _ => False) u₁ u₃ :=
    trans_of (Frames fun _ => False) ((leads_frames_removeComments _ _).apply hcomments)
      ((o.leads_frames_markRecalculation _).apply hmark)
  have hextends : Extends s u₃ := trans_of Extends (hclears.apply hclear).extends hfinished.extends
  have hwritten := hwrite.apply hlast
  refine ⟨fun hr => hwritten.written (hr.mono hextends.journal),
    fun hr => hwritten.merged (hr.mono (hextends.blocks r.sheet)), fun hw hb => ?_⟩
  rw [Workbook.content_congr (hwritten.face hw hb), Workbook.content_congr (hfinished.face r id)]
  exact clearTemplate_content hd hkeyed hclear r

theorem fillAreas_content (hh : o.host.Declares r) (hwrite : Leads (Declares r) o.beforeWrite)
    (hroots : ∀ a ∈ roots, a.Uses Command.OneSheet) (hd : s.deleted = [])
    (hkeyed : s.template.Keyed) (hfree : ∀ u ∈ t :: o.stages roots s, ¬ u.book.InBlock r)
    (hw : ¬ t.Written r) (h : exec (o.fillAreas roots) s = (.ok (), t)) :
    o.Spares s.template r (if roots.any (·.contains r) then {} else s.book.content r)
      (t.book.content r) := by
  obtain ⟨_, u, hfill, h⟩ := bind_eq_ok.1 h
  obtain ⟨_, v, hmove, hlast⟩ := bind_eq_ok.1 h
  have hfilled := yields_forM (fun x hx => yields_records_fillArea hh (hroots x hx)) s () u hfill
  have hmoves : Leads (Declares r) (roots.forM Formula.relocateArea) :=
    leads_forM fun a _ => leads_declares_relocateArea a
  have hmoved := hmoves.apply hmove
  have htemplate : v.template = s.template := hmoved.template.trans hfilled.template
  have hdeleted : v.deleted = [] := hmoved.deleted.trans (hfilled.deleted.trans hd)
  obtain ⟨hwritten, hmerged, hspares⟩ := lastSteps_content hwrite hdeleted (htemplate ▸ hkeyed) hlast
  -- What is not so at the end was not so before the last steps, and not before formulas were moved.
  have hb : ¬ t.book.InBlock r := hfree t List.mem_cons_self
  have hw₁ : ¬ v.Written r := fun hr => hw (hwritten hr)
  have hmove : v.book.content r = u.book.content r :=
    Workbook.content_congr (hmoved.face hw₁ fun hr => hb (hmerged hr))
  have hroot := fillRoots_content hh hroots hd (fun x hx => hfree x (List.mem_cons_of_mem t hx))
    (fun hr => hw₁ (hmoved.written hr)) hfill
  have := hspares hw hb
  rwa [htemplate, hmove, hroot] at this

variable {name : String} {c : Context} {streams : Streams} {book : Workbook}

theorem Shows.marked {info : CellInfo} {x : Content} (h : o.Shows info x) :
    ∃ text, x.source = .text text ∧ Segment.isMarked o.host.marks text.toList = true := by
  obtain ⟨text, hmarked, hsource⟩ := h
  refine ⟨text, hsource, ?_⟩
  unfold FillHost.expressionText? at hmarked
  split at hmarked
  · split at hmarked
    · next hsign =>
      cases hmarked
      exact hsign
    · cases hmarked
  · cases hmarked

/-- A cell that no write was asked for, and that lies in no merged block before an area is filled or at
the end, is blank at the end if an area has it. Outside of the areas it shows what the template shows,
unless this has notation in it and what is left of notation is cleared away. Blocks are undone only
where an area is cleared, so such a cell lies in none in between either. -/
theorem process_passes_by (hh : o.host.Declares r) (hwrite : Leads (Declares r) o.beforeWrite)
    (hbook : book.Regular) (hroots : ∀ a ∈ roots, a.Uses Command.OneSheet)
    (h : o.process name c streams book = (.ok (), t, some ⟨t, roots⟩))
    (hfree : ∀ u ∈ t :: o.stages roots (o.ready name c streams book), ¬ u.book.InBlock r)
    (hw : ¬ t.Written r) :
    ((∃ a ∈ roots, a.contains r = true) → t.book.content r = {}) ∧
      (Outside roots r → t.book.content r = book.content r ∨
        o.clearsTemplate = true ∧ t.book.content r = {} ∧
          ∃ text, (book.content r).source = .text text ∧
            Segment.isMarked o.host.marks text.toList = true) := by
  obtain ⟨s, hbuild, hfill⟩ := process_eq_ok.1 h
  have hbuilt := build_annotated hbuild
  rw [ready, hbuild] at hfree
  have hkeyed := hbuilt.keyed (keyed_ofWorkbook hbook)
  have hspares := fillAreas_content hh hwrite hroots hbuilt.deleted hkeyed hfree hw hfill
  rw [content_built hbuild] at hspares
  constructor
  · intro hin
    rw [if_pos (List.any_eq_true.2 hin)] at hspares
    exact hspares.of_empty
  · intro hout
    have hany : roots.any (·.contains r) = false :=
      List.any_eq_false.2 fun a ha => Bool.not_eq_true _ ▸ hout a ha
    rw [hany, if_neg Bool.false_ne_true] at hspares
    by_cases hwipes : o.Wipes s.template r (book.content r)
    · obtain ⟨hclears, info, -, hshows⟩ := id hwipes
      exact .inr ⟨hclears, hspares.wiped hwipes, hshows.marked⟩
    · exact .inl (hspares.spared hwipes)

def noted : Workbook where
  sheets :=
    [((({ title := "S" } : Sheet).setCell ⟨0, 0⟩
          { value := .text "${e}", type := .text
            comment? := some "jx:area(lastCell=\"A1\")\njx:each(items=\"items\" var=\"e\" lastCell=\"A1\")" }
        ).setCell ⟨0, 1⟩ { value := .text "${total}", type := .text }
      ).setCell ⟨1, 0⟩ { value := .text "note", type := .text }]

def signing : FillOptions where
  beforeWrite := setValue ⟨"S", 2, 0⟩ (.text "done") none

def noLines : Context := { data := [("items", .list [])] }

def notedState : FillState := (process signing "noted" noLines [] noted).2.1

theorem noted_passes_by :
    process signing "noted" noLines [] noted =
        (.ok (), notedState, some ⟨notedState, [growingBlock.root]⟩) ∧
      (∀ r ∈ [(⟨"S", 0, 0⟩ : CellRef), ⟨"S", 0, 1⟩, ⟨"S", 1, 0⟩],
        ((∃ a ∈ [growingBlock.root], a.contains r = true) → notedState.book.content r = {}) ∧
          (Outside [growingBlock.root] r → notedState.book.content r = noted.content r ∨
            signing.clearsTemplate = true ∧ notedState.book.content r = {} ∧
              ∃ text, (noted.content r).source = .text text ∧
                Segment.isMarked signing.host.marks text.toList = true)) ∧
      growingBlock.root.contains ⟨"S", 0, 0⟩ = true ∧
      (notedState.book.content ⟨"S", 0, 1⟩).value.text? = none ∧
      (notedState.book.content ⟨"S", 1, 0⟩).value.text? = some "note" := by
  have hprocess : process signing "noted" noLines [] noted =
      (.ok (), notedState, some ⟨notedState, [growingBlock.root]⟩) := by
    have hok : ∃ roots, process signing "noted" noLines [] noted =
        (.ok (), notedState, some ⟨notedState, roots⟩) := process_of_toOption (by decide +kernel)
    obtain ⟨roots, hprocess⟩ := hok
    obtain ⟨s, hready, -⟩ := process_eq_ok.1 hprocess
    rw [build_root (b := growingBlock) (by decide +kernel)] at hready
    cases hready
    exact hprocess
  have hh : ∀ r, signing.host.Declares r := fun r =>
    ⟨fun _ _ _ => leads_pure _, fun _ _ _ => leads_pure _, fun _ _ _ => leads_pure _,
      fun _ _ => leads_pure _⟩
  have hregular : noted.Regular := by
    refine ⟨by decide, fun x hx b hb => ?_⟩
    rw [List.mem_singleton.1 hx] at hb
    cases hb
  have hroots : ∀ a ∈ [growingBlock.root], a.Uses Command.OneSheet := by
    intro a ha
    rw [List.mem_singleton.1 ha]
    exact ⟨rfl, ⟨trivial, trivial⟩, trivial⟩
  have huntouched : ∀ r ∈ [(⟨"S", 0, 0⟩ : CellRef), ⟨"S", 0, 1⟩, ⟨"S", 1, 0⟩],
      (∀ u ∈ notedState :: signing.stages [growingBlock.root] (signing.ready "noted" noLines [] noted),
        ¬ u.book.InBlock r) ∧ ¬ notedState.Written r := by decide +kernel
  refine ⟨hprocess, fun r hr => ?_, by decide, by decide +kernel, by decide +kernel⟩
  obtain ⟨hfree, hwritten⟩ := huntouched r hr
  exact process_passes_by (hh r) (leads_declares_setValue _ _ _) hregular hroots hprocess hfree
    hwritten

end FillOptions

end SheetTemplate
