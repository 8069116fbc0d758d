import SheetTemplate.Proofs.Area.Parallel
import SheetTemplate.Proofs.Area.Scoping
import SheetTemplate.Proofs.Fill.Filing
import SheetTemplate.Proofs.Fill.Refilling
import SheetTemplate.Proofs.Fill.Retaining

namespace SheetTemplate

open FillM FillState

theorem Command.Definite.isPlain {h : FillHost} {V : Value → Prop} {c : Command}
    (hc : c.Definite h V) : c.IsPlain := by
  cases c with
  | each e => exact hc.1
  | mergeCells m => exact hc.elim
  | hosted c => exact hc.elim
  | _ => trivial

theorem Command.IsPlain.isBuiltIn {c : Command} (hc : c.IsPlain) : c.IsBuiltIn := by
  cases c with
  | hosted c => exact hc.elim
  | _ => trivial

theorem FillState.discreet_of_remarked {s t : FillState} (h : Remarked s t) :
    t.context = s.context ∧ t.journal = s.journal := by
  rw [Remarked] at h
  rw [h]
  exact ⟨rfl, rfl⟩

namespace FillHost.Memoryless

variable {h : FillHost} {P : Command → Prop} {O : CellRef → Prop} {s : FillState} {r : CellRef}

theorem quiet (hh : h.Memoryless) : h.Quiet where
  before l origin target s := (discreet_of_remarked (hh.before l origin target s)).2
  after l origin target s := (discreet_of_remarked (hh.after l origin target s)).2
  update n info x s := (discreet_of_remarked (hh.update n info x s)).2

theorem discreet (hh : h.Memoryless) : h.Discreet where
  before l origin target s := (discreet_of_remarked (hh.before l origin target s)).1
  after l origin target s := (discreet_of_remarked (hh.after l origin target s)).1
  update n info x s := (discreet_of_remarked (hh.update n info x s)).1

section Plain

variable (hP : ∀ c, P c → c.IsPlain)

include hP

theorem steps_extends (hh : h.Memoryless) : h.Steps P Extends :=
  steps_of_extends hh.before hh.after hh.update (fun e he => hP (.each e) he)
    (fun c hc => hP (.hosted c) hc) fun _ _ h => h

theorem steps_kept (hh : h.Memoryless) (r : CellRef) : h.Steps P (Retains r) := by
  have hremark : ∀ {α : Type} {m : FillM α}, Leads Remarked m → Leads (Retains r) m := fun hm =>
    hm.mono fun s t hst => by
      rw [Remarked] at hst
      rw [hst]
      exact retains_of_book rfl rfl
  exact steps_retains (fun _ _ _ => hremark (hh.before _ _ _)) (fun _ _ _ => hremark (hh.after _ _ _))
    (fun _ _ _ => hremark (hh.update _ _ _)) (fun e he => hP (.each e) he)
    fun c hc => (hP (.hosted c) hc).elim

theorem steps_scoped (hh : h.Memoryless) : h.Steps P Scoped :=
  hh.discreet.steps.mono fun c hc => (hP c hc).isBuiltIn

theorem preserves_files (hh : h.Memoryless) :
    h.Preserving P O (fun _ => True) (Files O s) fun _ => True :=
  preserving_files hh.before hh.after hh.update (fun e he => hP (.each e) he)
    (fun m hm => hP (.mergeCells m) hm) fun c hc => hP (.hosted c) hc

end Plain

end FillHost.Memoryless

namespace FillState

structure Fills (T : Template) (V : Value → Prop) (P O : CellRef → Prop) (s t : FillState) :
    Prop where
  level : t.Level T V
  titles : t.book.titles = s.book.titles
  context : Context.Near s.context t.context
  looks : ∀ r, ¬ P r → t.book.look? r = s.book.look? r
  others : ∀ x, ¬ O x → t.history.of x = s.history.of x
  copies : ∀ x, ∀ r ∈ t.history.targets x, r ∈ s.history.targets x ∨ P r

variable {T : Template} {V : Value → Prop} {P P' O : CellRef → Prop} {s t u : FillState}

theorem Touches.fills (h : Touches P s t) (hs : s.Level T V) : Fills T V P O s t where
  level := hs.touches h
  titles := h.titles
  context := h.context ▸ .refl _
  looks := h.looks
  others x _ := by rw [h.history]
  copies x r hr := by
    rw [h.history] at hr
    exact .inl hr

theorem Fills.trans (h : Fills T V P O s t) (h' : Fills T V P' O t u) :
    Fills T V (fun r => P r ∨ P' r) O s u where
  level := h'.level
  titles := h'.titles.trans h.titles
  context := h.context.trans h'.context
  looks r hr := by
    rw [not_or] at hr
    rw [h'.looks r hr.2, h.looks r hr.1]
  others x hx := (h'.others x hx).trans (h.others x hx)
  copies x r hr := by
    rcases h'.copies x r hr with hr | hr
    · exact (h.copies x r hr).imp_right .inl
    · exact .inr (.inr hr)

theorem Retains.look {r : CellRef} (h : Retains r s t) (hgrown : Grown P s t) (ht : t.Level T V)
    (htitles : t.book.titles = s.book.titles) (hr : ¬ P r) : t.book.look? r = s.book.look? r := by
  obtain ⟨new, hnew, hcase⟩ := h
  obtain ⟨more, hmore, hP⟩ := hgrown
  rw [hnew] at hmore
  rcases hcase with ⟨v, hv, rfl⟩ | hnone | hsame
  · rw [List.append_cancel_right hmore] at hv
    exact absurd (hP v hv) hr
  · have hmissing := ht.bare.free r hnone
    have hfind := Workbook.find?_isSome_iff htitles r.sheet
    rw [hmissing, Option.isSome_none, eq_comm, Option.isSome_eq_false_iff,
      Option.isNone_iff_eq_none] at hfind
    rw [hnone, Workbook.look?, hfind]
    rfl
  · exact hsame

end FillState

namespace FillHost.Memoryless

variable {h : FillHost} {T : Template} {V : Value → Prop} {a : Area} {target : CellRef}
  {size : Size} {s t : FillState}

theorem replay_fills (hh : h.Memoryless) (hT : T.Bare) (hq : h.Definite V T) (hV : ∀ i, V (.int i))
    (ha : a.Uses (Command.Definite h V)) (hregular : a.Regular) (hs : s.Level T V)
    (hr : exec (a.replay h target) s = (.ok size, t)) :
    Fills T V (size.Holds target) (· ∈ a.origins) s t := by
  have hP : ∀ c, Command.Definite h V c → c.IsPlain := fun _ hc => hc.isPlain
  have htwins := (hh.twins hT hq hV ⟨fun _ => True, fun _ => True⟩).replay ha (r := target) rfl
  have hlevel : t.Level T V := (htwins.ends (.refl hs _) hr hr).1.left
  have hextends : Extends s t := ((hh.steps_extends hP).replay ha target).apply hr
  have hscoped : Scoped s t := ((hh.steps_scoped hP).replay ha target).apply hr
  have hfiles : Files (· ∈ a.origins) s t :=
    ((hh.preserves_files hP).replay ha (fun _ hr => hr) target trivial).ends (files_self _ s) hr
  obtain ⟨-, -, hgrown⟩ := Area.replay_contained hh.quiet a hregular target s size t hr
  refine ⟨hlevel, hextends.titles, (hscoped hs.sound).near, fun r hout => ?_, hfiles.others, ?_⟩
  · exact (((hh.steps_kept hP r).replay ha target).apply hr).look hgrown hlevel hextends.titles hout
  · intro x r hx
    obtain ⟨new, hnew, hcopies⟩ := hfiles.copies
    obtain ⟨more, hmore, hholds⟩ := hgrown
    rw [hnew] at hmore
    refine (hcopies x r hx).imp_right ?_
    rintro ⟨w, hw, rfl⟩
    rw [List.append_cancel_right hmore] at hw
    exact hholds w hw

end FillHost.Memoryless

namespace FillM

variable {T : Template} {V : Value → Prop} {f : Footprint} {start : CellRef} {size : Size}
  {s t : FillState}

theorem clearArea_cells (hs : s.Level T V)
    (h : exec (clearArea (.ofSize start size)) s = (.ok (), t)) :
    (s.book.find? start.sheet = none ∧ Touches (fun _ => False) s t) ∨
      ((s.book.find? start.sheet).isSome = true ∧
        exec ((size.cellsFrom start).forM clearCell) s = (.ok (), t)) := by
  obtain ⟨x?, u, hsheet, h⟩ := bind_eq_ok.1 h
  have hsheet? : s.sheet? start.sheet = s.book.find? start.sheet := sheet?_of_deleted hs.deleted _
  cases hfind : s.book.find? start.sheet with
  | none =>
    obtain ⟨log, hlog⟩ := exec_sheet?_none (hsheet?.trans hfind)
    rw [show exec (sheet? (AreaRef.ofSize start size).sheet) s = _ from hlog] at hsheet
    cases hsheet
    cases h
    exact .inl ⟨rfl, touches_of_book rfl rfl rfl rfl rfl⟩
  | some x =>
    rw [show exec (sheet? (AreaRef.ofSize start size).sheet) s = _ from
      exec_sheet? (hsheet?.trans hfind)] at hsheet
    cases hsheet
    obtain ⟨_, v, hunmerge, h⟩ := bind_eq_ok.1 h
    have hmerged : x.merged = [] := by
      rw [← Workbook.blocks_of_find? hfind]
      exact hs.bare.blocks _
    rw [unmergeAll, hmerged] at hunmerge
    cases hunmerge
    refine .inr ⟨rfl, ?_⟩
    rw [← Size.map_rectangle, List.forM_eq_forM, List.forM_map]
    rwa [AreaRef.size_ofSize] at h

theorem clearArea_touches (hs : s.Level T V)
    (h : exec (clearArea (.ofSize start size)) s = (.ok (), t)) : Touches (size.Holds start) s t := by
  rcases clearArea_cells hs h with ⟨-, htouches⟩ | ⟨-, hcells⟩
  · exact htouches.mono fun _ => False.elim
  · have hclear : Leads (Touches (size.Holds start)) ((size.cellsFrom start).forM clearCell) :=
      leads_forM fun r hr => confined_clearCell (P := size.Holds start) (Size.mem_cellsFrom.1 hr)
        fun s => touches_write s _
    exact hclear.apply hcells

theorem parallels_clearArea (start : CellRef) (size : Size) :
    Parallels T V f (fun _ _ => True) (clearArea (.ofSize start size))
      (clearArea (.ofSize start size)) := by
  intro s s' _ _ t t' hR hr hr' _
  refine ⟨?_, trivial⟩
  have hfind := Workbook.find?_isSome_iff hR.titles start.sheet
  rcases clearArea_cells hR.left hr with ⟨hnone, htouches⟩ | ⟨hsome, hcells⟩
  · rcases clearArea_cells hR.right hr' with ⟨-, htouches'⟩ | ⟨hsome', -⟩
    · exact hR.touched htouches htouches'
    · rw [hnone, hsome'] at hfind
      cases hfind
  · rcases clearArea_cells hR.right hr' with ⟨hnone', -⟩ | ⟨-, hcells'⟩
    · rw [hnone', hsome] at hfind
      cases hfind
    · have hclear : Parallels T V f (fun _ _ => True) ((size.cellsFrom start).forM clearCell)
          ((size.cellsFrom start).forM clearCell) :=
        agree_forM (List.forall₂_same.2 fun r _ => parallels_clearCell r)
          fun _ => leads_spoils_true _
      exact (hclear.ends hR hcells hcells').1

end FillM

/-- The cells of the template that the tree of an area takes up: those of its rectangle, and those that
are copied for it. -/
def Area.Occupies (a : Area) (x : CellRef) : Prop := a.contains x = true ∨ x ∈ a.origins

def Area.print (a : Area) (size : Size) : Footprint where
  cells r := a.contains r = true ∨ size.Holds a.start r
  origins := a.Occupies

def Footprint.rest (f : Footprint) : Footprint where
  cells r := ¬ f.cells r
  origins r := ¬ f.origins r

structure Context.Unplaced (c : Context) : Prop where
  row : c.runVars.find? rowName = none
  column : c.runVars.find? columnName = none

namespace FillOptions

variable {o : FillOptions} {T : Template} {V : Value → Prop} {f : Footprint} {a : Area}
  {s s' t t' : FillState}

def filledSize (o : FillOptions) (a : Area) (s : FillState) : Size :=
  ((exec (do FillM.clearArea a.ref; a.replay o.host a.start) s).1.toOption).getD .zero

theorem fillArea_size (h : exec (o.fillArea a) s = (.ok (), t)) :
    ∃ u v c log, exec (clearArea a.ref) s = (.ok (), u) ∧
      exec (a.replay o.host a.start) u = (.ok (o.filledSize a s), v) ∧
        t = { v with context := c, log := log } ∧
          c = (v.context.removeRun Context.rowName).removeRun Context.columnName := by
  obtain ⟨u, v, size, c, log, hclear, hreplay, ht, hc⟩ := fillArea_eq_ok h
  have hsize : o.filledSize a s = size := by
    rw [filledSize, exec_bind, hclear]
    dsimp only
    rw [hreplay]
    rfl
  exact ⟨u, v, c, log, hclear, hsize ▸ hreplay, ht, hc⟩

theorem run_unplaced (c : Context) (n : String) :
    ((c.removeRun Context.rowName).removeRun Context.columnName).runVars.find? n =
      if n = Context.columnName then none
      else if n = Context.rowName then none else c.runVars.find? n := by
  rw [show (c.removeRun Context.rowName).removeRun Context.columnName =
    (c.restore Context.rowName none).restore Context.columnName none from rfl, Context.run_restore,
    Context.run_restore]

theorem sound_unplaced {c : Context} (hc : c.Sound) :
    ((c.removeRun Context.rowName).removeRun Context.columnName).Sound :=
  (hc.restore Context.rowName none).restore Context.columnName none

theorem allIn_unplaced {c : Context} (hc : Meaning.AllIn V c.runVars.find?) :
    Meaning.AllIn V ((c.removeRun Context.rowName).removeRun Context.columnName).runVars.find? := by
  intro n v hv
  rw [run_unplaced] at hv
  split at hv
  · cases hv
  · split at hv
    · cases hv
    · exact hc n v hv

section Filling

variable (hh : o.host.Memoryless) (hT : T.Bare) (hq : o.host.Definite V T) (hV : ∀ i, V (.int i))
  (ha : a.Uses (Command.Definite o.host V))

include hh hT hq hV ha

theorem fillArea_parallel (hR : Parallel T V f s s') (hr : exec (o.fillArea a) s = (.ok (), t))
    (hr' : exec (o.fillArea a) s' = (.ok (), t')) :
    Parallel T V f t t' ∧ o.filledSize a s' = o.filledSize a s := by
  obtain ⟨u, v, c, log, hclear, hreplay, rfl, rfl⟩ := fillArea_size hr
  obtain ⟨u', v', c', log', hclear', hreplay', rfl, rfl⟩ := fillArea_size hr'
  have hu := ((parallels_clearArea a.start a.size).ends hR hclear hclear').1
  obtain ⟨hv, hsize⟩ := ((hh.twins hT hq hV f).replay ha (r := a.start) rfl).ends hu hreplay hreplay'
  refine ⟨?_, hsize.symm⟩
  have hnamed := hv.renamed (sound_unplaced hv.left.sound) (sound_unplaced hv.right.sound) rfl rfl
    (by funext n; rw [run_unplaced, run_unplaced, hv.run]) (allIn_unplaced hv.left.run)
  exact hnamed.touched (touches_of_book rfl rfl rfl rfl rfl) (touches_of_book rfl rfl rfl rfl rfl)

theorem fillArea_beside (hregular : a.Regular) (hs : s.Level T V) (hplace : s.context.Unplaced)
    (hr : exec (o.fillArea a) s = (.ok (), t)) :
    Parallel T V (a.print (o.filledSize a s)).rest s t ∧
      ∀ x, ∀ r ∈ t.history.targets x, r ∈ s.history.targets x ∨ (o.filledSize a s).Holds a.start r := by
  obtain ⟨u, v, c, log, hclear, hreplay, rfl, rfl⟩ := fillArea_size hr
  have hcleared := clearArea_touches hs hclear
  have hu := hs.touches hcleared
  have hfills := hh.replay_fills hT hq hV ha hregular hu hreplay
  obtain ⟨hlevel, htitles, hnear, hlooks, hothers, -⟩ := (hcleared.fills hs).trans hfills
  have hcopies := hfills.copies
  rw [hcleared.history] at hcopies
  refine ⟨?_, hcopies⟩
  constructor
  case left => exact hs
  case right =>
    exact hlevel.of_context rfl rfl rfl (sound_unplaced hlevel.sound) hlevel.data
      (allIn_unplaced hlevel.run)
  case titles => exact htitles
  case data => exact hnear.data
  case run =>
    funext n
    rw [run_unplaced]
    split
    · next hn => rw [hn, hplace.column]
    · next hcolumn =>
      split
      · next hn => rw [hn, hplace.row]
      · next hrow => exact hnear.run n hrow hcolumn
  case looks =>
    intro r hr
    refine hlooks r fun hcells => hr ?_
    exact hcells.imp_left (a.contains_iff r).2
  case history =>
    intro x hx
    rw [hothers x fun horigin => hx (.inr horigin)]
    exact ⟨rfl, rfl⟩

end Filling

end FillOptions

end SheetTemplate
