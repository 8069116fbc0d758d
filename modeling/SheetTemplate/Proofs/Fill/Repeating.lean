import SheetTemplate.Proofs.Fill.Clearing
import SheetTemplate.Proofs.Fill.Moving
import SheetTemplate.Proofs.Fill.Stages

namespace SheetTemplate

open FillM FillState

def Workbook.Unmerged (w : Workbook) (title : String) : Prop :=
  ∃ s, w.find? title = some s ∧ s.merged = [] ∧ ∀ p : Pos, s.slots[p]? ≠ some .covered

namespace RepeatedBlock

structure Outcome (b : RepeatedBlock) (o : FillOptions) (T : Template) (n : Nat)
    (pieces : List Piece) (before after : Workbook) : Prop where
  copies : pieces.map (·.1) = b.copies n
  values : ∀ p ∈ pieces, (∀ text, p.2 ≠ some (.formula text)) →
    o.Spares T p.1.target p.shown (after.content p.1.target)
  formulas : ∀ p ∈ pieces, ∀ text info, p.2 = some (.formula text) →
    T.cell? p.1.origin = some info → ∃ moved held,
      (b.move T n info p.1.target).relocate text = .ok moved ∧
      Cell.heldText? (formulaText moved) = some held ∧
      o.Spares T p.1.target ⟨.text held, Cell.textType held⟩ (after.content p.1.target)
  sums : ∀ p ∈ pieces, ∀ text info q, p.2 = some (.formula text) →
    T.cell? p.1.origin = some info → info.strategy = .default → Formula.Move.Sums text q →
      b.Holds (.ofPos b.start.sheet q) → (T.cell? (.ofPos b.start.sheet q)).isSome = true →
        (b.move T n info p.1.target).relocate text = .ok ("SUM(" ++ Formula.Move.downText
          ((info.default?.filter fun s => !s.isEmpty).getD Formula.defaultText)
          (.ofPos b.start.sheet q) b.body n ++ ")")
  below : ∀ x, b.root.contains x = true → b.start.row + (b.filled n).height ≤ x.row →
    after.content x = {}
  outside : ∀ x, b.root.contains x = false → (∀ c ∈ b.copies n, c.target ≠ x) →
    (before.find? x.sheet).isSome = true → o.Spares T x (before.content x) (after.content x)

variable {b : RepeatedBlock} {o : FillOptions} {T : Template} {n : Nat} {ps : List Piece}
  {w before after : Workbook}

theorem outcome_of_spares (hb : b.Regular) (hroom : b.Room (b.head + n * b.body + b.foot))
    (hcopies : ps.map (·.1) = b.copies n) (hhere : (before.find? b.start.sheet).isSome = true)
    (hvalues : ∀ p ∈ ps, (∀ text, p.2 ≠ some (.formula text)) →
      w.content p.1.target = p.shown)
    (hformulas : ∀ p ∈ ps, ∀ text info, p.2 = some (.formula text) →
      T.cell? p.1.origin = some info → ∃ formula held,
        (b.move T n info p.1.target).relocate text = .ok formula ∧
        Cell.heldText? (formulaText formula) = some held ∧
        w.content p.1.target = ⟨.text held, Cell.textType held⟩)
    (hblank : ∀ x, b.root.contains x = true → (∀ c ∈ b.copies n, c.target ≠ x) →
      w.content x = {})
    (hkept : ∀ x, b.root.contains x = false → (∀ c ∈ b.copies n, c.target ≠ x) →
      w.content x = before.content x)
    (hspares : ∀ r : CellRef, (before.find? r.sheet).isSome = true →
      o.Spares T r (w.content r) (after.content r)) : b.Outcome o T n ps before after := by
  have htitle : ∀ p ∈ ps, p.1.target.sheet = b.start.sheet := by
    intro p hp
    exact (target_of_mem_copies (hcopies ▸ List.mem_map_of_mem hp)).1
  have hplaced : ∀ p ∈ ps, o.Spares T p.1.target (w.content p.1.target)
      (after.content p.1.target) := by
    intro p hp
    apply hspares
    rw [htitle p hp]
    exact hhere
  constructor
  · exact hcopies
  · intro p hp hnot
    rw [← hvalues p hp hnot]
    exact hplaced p hp
  · intro p hp text info htext hinfo
    obtain ⟨formula, held, hmoved, hheld, hcontent⟩ := hformulas p hp text info htext hinfo
    refine ⟨formula, held, hmoved, hheld, ?_⟩
    rw [← hcontent]
    exact hplaced p hp
  · intro p hp text info q htext hinfo hstrategy hsum hq hpopulated
    apply Formula.Move.relocate_sum hsum hb.body hstrategy (htitle p hp) hq.contains
      (targets_of_holds hq hpopulated n)
    intro y hy
    apply named_of_mem_targets (T := T) (x := .ofPos b.start.sheet q) hroom
    rw [targets_of_holds hq hpopulated n]
    exact hy
  · intro x hx hbelow
    have hin := (Area.contains_iff _ _).1 hx
    have hspared := hspares x (by rw [hin.sheet]; exact hhere)
    rw [hblank x hx] at hspared
    · exact hspared.of_empty
    · rintro c hc rfl
      have := (target_of_mem_copies hc).2.2.1
      omega
  · intro x hx hnot hexists
    rw [← hkept x hx hnot]
    exact hspares x hexists

def isRoot (b : RepeatedBlock) : Area → Bool
  | ⟨start, size, [⟨.each e, first, outer, [⟨innerStart, inner, [], [], true⟩]⟩], [], true⟩ =>
    start = b.start && size = b.root.size && e = b.each && first = b.first &&
      outer = b.inner.size && innerStart = b.first && inner = b.inner.size
  | _ => false

theorem eq_root_of_isRoot {a : Area} (h : b.isRoot a = true) : a = b.root := by
  unfold isRoot at h
  split at h
  · simp only [Bool.and_eq_true, decide_eq_true_eq] at h
    obtain ⟨⟨⟨⟨⟨⟨rfl, rfl⟩, rfl⟩, rfl⟩, rfl⟩, rfl⟩, rfl⟩ := h
    rfl
  · cases h

end RepeatedBlock

namespace FillOptions

variable {o : FillOptions} {name : String} {c : Context} {streams st : Streams} {book : Workbook}
  {b : RepeatedBlock} {items : List Value} {pieces : List Piece} {area : Area} {size : Size}
  {s s₁ s₂ s₃ s₄ s₅ t : FillState}

theorem build_root (h : (exec (o.build c streams) (o.opened name book)).1.toOption.map
      (fun roots => roots.map b.isRoot) = some [true]) :
    exec (o.build c streams) (o.opened name book) =
      (.ok [b.root], (exec (o.build c streams) (o.opened name book)).2) := by
  obtain ⟨roots, hroots, hshape⟩ := Option.map_eq_some_iff.1 h
  obtain ⟨area, rfl, hroot⟩ := List.map_eq_singleton_iff.1 hshape
  rw [RepeatedBlock.eq_root_of_isRoot hroot] at hroots
  exact eq_ok_of_toOption hroots

theorem fillAreas_of_stages (hclear : exec (clearArea area.ref) s = (.ok (), s₁))
    (hreplay : exec (area.replay o.host area.start) s₁ = (.ok size, s₂))
    (hs₃ : s₃ = { s₂ with
      context := (s₂.context.removeRun Context.rowName).removeRun Context.columnName
      log := s₂.log ++ [⟨.info, "filler", "Filled " ++ area.ref.label ++ " -> " ++ size.text⟩] })
    (hmove : exec (Formula.relocateArea area) s₃ = (.ok (), s₄))
    (hclean : exec o.clearTemplate s₄ = (.ok (), s₅))
    (hlast : exec (do removeComments Directive.mark; o.markRecalculation; o.beforeWrite) s₅ =
      (.ok (), t)) : exec (o.fillAreas [area]) s = (.ok (), t) := by
  have hensure : exec (FillM.ensuring (area.replay o.host area.start) fun s =>
      { s with context := (s.context.removeRun Context.rowName).removeRun Context.columnName }) s₁ =
        (.ok size, { s₂ with
          context := (s₂.context.removeRun Context.rowName).removeRun Context.columnName }) := by
    rw [exec_ensuring, hreplay]
  have hfill : exec (o.fillArea area) s = (.ok (), s₃) := by
    rw [hs₃]
    exact bind_eq_ok.2 ⟨_, _, hclear, bind_eq_ok.2 ⟨_, _, hensure, rfl⟩⟩
  exact bind_eq_ok.2 ⟨_, _, bind_eq_ok.2 ⟨_, _, hfill, rfl⟩, bind_eq_ok.2 ⟨_, _,
    bind_eq_ok.2 ⟨_, _, hmove, rfl⟩, bind_eq_ok.2 ⟨_, _, hclean, hlast⟩⟩⟩

theorem sheet?_built {title : String} {r : Except Failure (List Area)}
    (hbuild : exec (o.build c streams) (o.opened name book) = (r, s))
    (hsheet : (book.find? title).isSome = true) : (s.sheet? title).isSome = true := by
  have hbuilt := build_annotated hbuild
  have hbook : s.book = (ofWorkbook book).book := hbuilt.book
  rw [sheet?_isSome, hbuilt.deleted, Workbook.mem_titles, hbook, ofWorkbook, find?_filled,
    Option.isSome_map]
  exact ⟨rfl, hsheet⟩

theorem content_built {r : Except Failure (List Area)}
    (hbuild : exec (o.build c streams) (o.opened name book) = (r, s)) (x : CellRef) :
    s.book.content x = book.content x := by
  have hbook : s.book = (ofWorkbook book).book := (build_annotated hbuild).book
  rw [hbook, ofWorkbook, Workbook.content, Workbook.slot?, find?_filled, Workbook.content,
    Workbook.slot?]
  cases book.find? x.sheet with
  | none => rfl
  | some sheet => exact sheet.content_filled x.pos

theorem unmerged_built {title : String} {r : Except Failure (List Area)}
    (hsheet : book.Unmerged title) (hbuild : exec (o.build c streams) (o.opened name book) = (r, s)) :
    (∃ sheet, s.sheet? title = some sheet ∧ sheet.merged = []) ∧
      (∀ x : CellRef, x.sheet = title → ¬ s.book.Covers x) ∧
      ∀ snapshot, s.template.sheet? title = some snapshot → snapshot.merged = [] := by
  obtain ⟨sheet, hfind, hmerged, hfree⟩ := hsheet
  have hbuilt := build_annotated hbuild
  have hbook : s.book = (ofWorkbook book).book := hbuilt.book
  have hfound : s.book.find? title = some sheet.filled := by
    rw [hbook, ofWorkbook, find?_filled, hfind]
    rfl
  have hwrite : s.sheet? title = some sheet.filled := by
    rw [FillState.sheet?, hbuilt.deleted]
    exact hfound
  refine ⟨⟨sheet.filled, hwrite, by rw [sheet.filled_merged, hmerged]⟩, fun x hx hcovers => ?_,
    fun snapshot hsnapshot => ?_⟩
  · rw [Workbook.Covers, Workbook.slot?, hx, hfound] at hcovers
    exact hfree x.pos ((sheet.covered_filled x.pos).1 hcovers)
  · have hblocks := hbuilt.merged title
    have htemplate : (Template.ofWorkbook (ofWorkbook book).book).sheet? title =
        some (.ofSheet sheet.filled) := by
      rw [Template.sheet?_ofWorkbook, ← hbook, hfound]
      rfl
    rw [hsnapshot] at hblocks
    have heq : some snapshot.merged = some sheet.filled.merged :=
      hblocks.trans (congrArg (Option.map (·.merged)) htemplate)
    rw [Option.some.inj heq, sheet.filled_merged, hmerged]

theorem open_built {title : String} {r : Except Failure (List Area)} (hc : c.Sound)
    (hsheet : book.Unmerged title)
    (hbuild : exec (o.build c streams) (o.opened name book) = (r, s)) :
    s.Open s.template title ∧ ∃ sheet, s.sheet? title = some sheet ∧ sheet.merged = [] := by
  obtain ⟨⟨sheet, hfound, hmerged⟩, hcovers, hblocks⟩ := unmerged_built hsheet hbuild
  refine ⟨⟨rfl, by rw [hfound]; rfl, hcovers, hblocks, ?_⟩, sheet, hfound, hmerged⟩
  rw [(build_annotated hbuild).context]
  exact hc

theorem finish_ok (o : FillOptions) (hends : ∀ s, (exec o.beforeWrite s).1 = .ok ())
    (s : FillState) :
    ∃ t, exec (do removeComments Directive.mark; o.markRecalculation; o.beforeWrite) s =
      (.ok (), t) := by
  have hmark : ∀ u, ∃ v, exec o.markRecalculation u = (.ok (), v) := by
    intro u
    unfold markRecalculation
    split
    · exact ⟨_, rfl⟩
    · exact ⟨u, rfl⟩
  obtain ⟨v, hv⟩ := hmark (exec (removeComments Directive.mark) s).2
  exact ⟨_, bind_eq_ok.2 ⟨_, _, rfl, bind_eq_ok.2 ⟨_, _, hv, Prod.ext (hends v) rfl⟩⟩⟩

theorem copies_made (hb : b.Regular) (hsheet : book.Unmerged b.start.sheet) (hc : c.Sound)
    (hbuild : exec (o.build c streams) (o.opened name book) = (.ok [b.root], s))
    (hrehearse : (b.rehearse o.host s.template c.get?).run streams = (.ok (items, pieces), st))
    (hroom : b.Room (b.head + items.length * b.body + b.foot)) :
    ∃ s₁ s₂, exec (clearArea b.root.ref) s = (.ok (), s₁) ∧
      exec (b.root.replay o.host b.start) s₁ = (.ok (b.filled items.length), s₂) ∧
      Emptied (b.root.size.cellsFrom b.start) s s₁ ∧ Copied s.template pieces st s₁ s₂ ∧
      s₂.Open s.template b.start.sheet ∧ s₂.history.targets = b.targets s.template items.length := by
  obtain ⟨hopen, sheet, hfound, hmerged⟩ := open_built hc hsheet hbuild
  have hbuilt := build_annotated hbuild
  obtain ⟨s₁, hclear, hemptied⟩ := clearArea_emptied b.root.size hfound hmerged
  have hsound : s₁.context.Sound := by
    rw [hemptied.context]
    exact hopen.context
  have hopen₁ : s₁.Open s.template b.start.sheet := hopen.mono hemptied.settled hsound
  have hblank : ∀ x, s₁.history.of x = {} := by
    intro x
    rw [hemptied.history, hbuilt.history]
    rfl
  have hfresh : b.Fresh 0 s₁ := by
    intro x y _
    rw [hblank]
    rfl
  have hrehearse₁ : (b.rehearse o.host s.template s₁.context.get?).run s₁.streams =
      (.ok (items, pieces), st) := by
    rw [hemptied.context, hemptied.streams, hbuilt.context, hbuilt.streams]
    exact hrehearse
  obtain ⟨s₂, hreplay, hcopied, -⟩ :=
    RepeatedBlock.replay_stretch hb hopen₁ hfresh hroom hrehearse₁
  obtain ⟨hcopies, hrenders⟩ := RepeatedBlock.rehearse_eq_ok hrehearse
  refine ⟨s₁, s₂, hclear, hreplay, hemptied, hcopied, hopen₁.mono hcopied.settled hcopied.sound, ?_⟩
  funext x
  have hlaid := hcopied.laid.targets x
  rw [RepeatedBlock.targets_of_pieces hcopies hrenders, History.targets, History.targets,
    hblank] at hlaid
  exact hlaid

/-- Filling a template whose only area repeats a block of rows makes the copies that were rehearsed,
and the replay fills the rows of the items and those around the block. -/
theorem process_repeats (hb : b.Regular) (hbook : book.Regular) (hsheet : book.Unmerged b.start.sheet)
    (hc : c.Sound) (hwrite : Leads Unseen o.beforeWrite)
    (hends : ∀ s, (exec o.beforeWrite s).1 = .ok ())
    (hbuild : exec (o.build c streams) (o.opened name book) = (.ok [b.root], s))
    (hrehearse : (b.rehearse o.host s.template c.get?).run streams = (.ok (items, pieces), st))
    (hroom : b.Room (b.head + items.length * b.body + b.foot))
    (hheld : ∀ p ∈ pieces, ∀ text info moved, p.2 = some (.formula text) →
      s.template.cell? p.1.origin = some info →
        (b.move s.template items.length info p.1.target).relocate text = .ok moved →
          (Cell.heldText? (formulaText moved)).isSome = true) :
    ∃ cleared replayed state,
      exec (clearArea b.root.ref) s = (.ok (), cleared) ∧
      exec (b.root.replay o.host b.start) cleared = (.ok (b.filled items.length), replayed) ∧
      o.process name c streams book = (.ok (), state, some ⟨state, [b.root]⟩) ∧
      b.Outcome o s.template items.length pieces book state.book := by
  have hkeyed : s.template.Keyed := (build_annotated hbuild).keyed (keyed_ofWorkbook hbook)
  obtain ⟨s₁, s₂, hclear, hreplay, hemptied, hcopied, hopen₂, htargets⟩ :=
    copies_made hb hsheet hc hbuild hrehearse hroom
  obtain ⟨hcopies, hrenders⟩ := RepeatedBlock.rehearse_eq_ok hrehearse
  let s₃ : FillState := { s₂ with
    context := (s₂.context.removeRun Context.rowName).removeRun Context.columnName
    log := s₂.log ++ [⟨.info, "filler", "Filled " ++ b.root.ref.label ++ " -> " ++
      (b.filled items.length).text⟩] }
  -- The names of the row and the column are given up before formulas are moved.
  have hsettled₃ : Settled s₂ s₃ := settled_of_eq rfl rfl rfl
  have hsound₃ : s₃.context.Sound :=
    (hcopied.sound.restore Context.rowName none).restore Context.columnName none
  -- Formulas are moved by the copies that the history holds, and these are the rehearsed ones.
  obtain ⟨s₄, hmove, hsettled₄, hformulas, hvalues, hothers⟩ :=
    RepeatedBlock.relocate_copies (hopen₂.mono hsettled₃ hsound₃) hkeyed hroom htargets hcopies
      hrenders (fun p hp text => hcopied.laid.formula p hp text) hheld
  have hsettled : Settled s s₄ := trans_of Settled hemptied.settled (trans_of Settled
    hcopied.settled (trans_of Settled hsettled₃ hsettled₄))
  have htemplate₄ : s₄.template = s.template := hsettled.template
  obtain ⟨s₅, hclean, -, hspares⟩ := o.clearTemplate_spares (htemplate₄ ▸ hkeyed)
  obtain ⟨state, hlast⟩ := o.finish_ok hends s₅
  have hfill := fillAreas_of_stages hclear hreplay rfl hmove hclean hlast
  refine ⟨s₁, s₂, state, hclear, hreplay, process_eq_ok.2 ⟨s, hbuild, hfill⟩, ?_⟩
  -- A cell that is no target was left alone by the copies, and by the formulas that were moved.
  have hkept : ∀ x, (∀ d ∈ b.copies items.length, d.target ≠ x) →
      s₄.book.content x = s₁.book.content x := by
    intro x hx
    rw [hothers x hx]
    apply hcopied.laid.kept x
    intro p hp
    exact hx p.1 (hcopies ▸ List.mem_map_of_mem hp)
  have hhere : (book.find? b.start.sheet).isSome = true := by
    obtain ⟨sheet, hfind, -⟩ := hsheet
    rw [hfind]
    rfl
  apply RepeatedBlock.outcome_of_spares hb hroom hcopies hhere (w := s₄.book)
  · intro p hp hnot
    rw [hvalues p hp hnot]
    exact hcopied.laid.shown p hp
  · exact hformulas
  · intro x hx hnot
    rw [hkept x hnot]
    exact hemptied.emptied x (Size.mem_cellsFrom.2 ((Area.contains_iff _ _).1 hx))
  · intro x hx hnot
    rw [hkept x hnot, hemptied.kept x, content_built hbuild]
    intro hmem
    rw [(Area.contains_iff b.root x).2 (Size.mem_cellsFrom.1 hmem)] at hx
    cases hx
  · intro r hr
    rw [(o.leaves_finish hwrite).apply hlast r trivial, ← htemplate₄]
    exact hspares r (sheet?_of_settled hsettled (sheet?_built hbuild hr))

def listing : Workbook where
  sheets :=
    [((({ title := "S" } : Sheet).setCell ⟨0, 0⟩
        { value := .text "=SUM(A2)", type := .formula
          comment? := some "jx:area(lastCell=\"A3\")" }).setCell ⟨1, 0⟩
        { value := .text "${e}", type := .text
          comment? := some "jx:each(items=\"items\" var=\"e\" lastCell=\"A2\")" }).setCell ⟨2, 0⟩
      { value := .text "end", type := .text }]

def listed : Context := { data := [("items", .list [.text "${e}", .text "b"])] }

def listingBlock : RepeatedBlock where
  start := ⟨"S", 0, 0⟩
  width := 1
  head := 1
  body := 1
  foot := 1
  each := { items := "items", var := "e" }

def listingState : FillState := (exec (build {} listed []) (opened {} "listing" listing)).2

def listingRehearsal : Except Failure (List Value × List Piece) × Streams :=
  (listingBlock.rehearse {} listingState.template listed.get?).run []

def listingHolds (p : Piece) : Bool :=
  match p.2, listingState.template.cell? p.1.origin with
  | some (.formula text), some info =>
    match (listingBlock.move listingState.template 2 info p.1.target).relocate text with
    | .ok moved => (Cell.heldText? (formulaText moved)).isSome
    | .error _ => false
  | _, _ => true

theorem listing_regular : listing.Regular where
  titles := by decide
  merged := by
    intro s hs b hb
    rw [List.mem_singleton.1 hs] at hb
    cases hb

theorem listing_unmerged : listing.Unmerged "S" := by
  refine ⟨_, rfl, rfl, fun p h => ?_⟩
  rw [Sheet.covered_setCell, Sheet.covered_setCell, Sheet.covered_setCell] at h
  obtain ⟨-, -, -, h⟩ := h
  cases h

theorem listing_built : exec (build {} listed []) (opened {} "listing" listing) =
    (.ok [listingBlock.root], listingState) := by
  apply build_root
  decide +kernel

theorem listing_rehearsed : ∃ items pieces,
    listingRehearsal = (.ok (items, pieces), listingRehearsal.2) ∧ items.length = 2 ∧
      (pieces.map fun p => p.shown.value.text?) =
        [some "=SUM(A2)", some "${e}", some "b", some "end"] ∧
      pieces.all listingHolds = true := by
  have hrun : listingRehearsal.1.toOption.map (fun r =>
      (r.1.length, r.2.map fun p => p.shown.value.text?, r.2.all listingHolds)) =
        some (2, [some "=SUM(A2)", some "${e}", some "b", some "end"], true) := by decide +kernel
  obtain ⟨⟨items, pieces⟩, hitems, hrun⟩ := Option.map_eq_some_iff.1 hrun
  simp only [Prod.mk.injEq] at hrun
  exact ⟨items, pieces, eq_ok_of_toOption hitems, hrun⟩

theorem listing_repeats :
    ∃ items pieces state,
      listingRehearsal = (.ok (items, pieces), listingRehearsal.2) ∧
      (pieces.map fun p => p.shown.value.text?) =
        [some "=SUM(A2)", some "${e}", some "b", some "end"] ∧
      process {} "listing" listed [] listing =
        (.ok (), state, some ⟨state, [listingBlock.root]⟩) ∧
      listingBlock.Outcome {} listingState.template 2 pieces listing state.book ∧
      (([0, 1, 2, 3] : List Int).map fun row => (state.book.content ⟨"S", row, 0⟩).value.text?) =
        [some "=SUM(A2:A3)", none, some "b", some "end"] := by
  obtain ⟨items, pieces, hrun, hlength, hshown, hholds⟩ := listing_rehearsed
  have hregular : listingBlock.Regular := ⟨by decide, by decide, by decide, rfl⟩
  have hroom : listingBlock.Room (1 + items.length * 1 + 1) := by
    rw [hlength]
    exact ⟨by decide, by decide, by decide, by decide⟩
  have hheld : ∀ p ∈ pieces, ∀ text info moved, p.2 = some (.formula text) →
      listingState.template.cell? p.1.origin = some info →
        (listingBlock.move listingState.template items.length info p.1.target).relocate text =
          .ok moved → (Cell.heldText? (formulaText moved)).isSome = true := by
    intro p hp text info moved htext hinfo hmoved
    have hholds := List.all_eq_true.1 hholds p hp
    rw [hlength] at hmoved
    simpa only [listingHolds, htext, hinfo, hmoved] using hholds
  obtain ⟨cleared, replayed, state, -, -, hprocess, houtcome⟩ :=
    process_repeats (o := {}) (c := listed) hregular listing_regular listing_unmerged
      (Context.sound_of_data _) (leads_pure _) (fun _ => rfl) listing_built hrun hroom hheld
  rw [hlength] at houtcome
  refine ⟨items, pieces, state, hrun, hshown, hprocess, houtcome, ?_⟩
  have hshows : (([0, 1, 2, 3] : List Int).map fun row =>
      ((process {} "listing" listed [] listing).2.1.book.content ⟨"S", row, 0⟩).value.text?) =
        [some "=SUM(A2:A3)", none, some "b", some "end"] := by decide +kernel
  rw [hprocess] at hshows
  exact hshows

end FillOptions

end SheetTemplate
