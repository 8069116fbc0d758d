import SheetTemplate.Proofs.Fill.Clearing
import SheetTemplate.Proofs.Fill.Remembering
import SheetTemplate.Proofs.Fill.Repeating

namespace SheetTemplate

open FillM FillState

namespace FillState

variable {s t u : FillState} {r : CellRef}

def Targeted (s : FillState) (r : CellRef) : Prop := ∃ x, r ∈ s.history.targets x

def Remembers (s : FillState) (r : CellRef) : Prop := s.Targeted r ∨ r ∈ s.written

theorem Still.targeted (h : Still s t) (r : CellRef) : t.Targeted r ↔ s.Targeted r := by
  simp only [Targeted, h.targets]

theorem targeted_addTarget (s : FillState) (origin target r : CellRef) :
    (FillHost.note origin (fun x => x.addTarget target) s).Targeted r ↔ s.Targeted r ∨ r = target := by
  have htargets : ∀ x, (s.history.modify origin fun x => x.addTarget target).targets x =
      if x = origin then s.history.targets origin ++ [target] else s.history.targets x := by
    intro x
    rw [History.targets, History.of_modify]
    split
    · rfl
    · rfl
  simp only [Targeted, FillHost.note, htargets]
  constructor
  · rintro ⟨x, hx⟩
    split at hx
    · exact (List.mem_append.1 hx).imp (fun h => ⟨origin, h⟩) List.mem_singleton.1
    · exact .inl ⟨x, hx⟩
  · rintro (⟨x, hx⟩ | rfl)
    · refine ⟨x, ?_⟩
      split
      · next heq => exact List.mem_append_left _ (heq ▸ hx)
      · exact hx
    · exact ⟨origin, by rw [if_pos rfl]; exact List.mem_append_right _ List.mem_cons_self⟩

theorem mem_keys_foldl_insert (l : List CellRef) (m : Std.TreeMap CellRef Unit CellRef.order) :
    r ∈ (l.foldl (fun m x => m.insert x ()) m).keys ↔ r ∈ m ∨ r ∈ l := by
  induction l generalizing m with
  | nil => simp [Std.TreeMap.mem_keys]
  | cons x l ih =>
    rw [List.foldl_cons, ih, Std.TreeMap.mem_insert, Std.LawfulEqCmp.compare_eq_iff_eq,
      List.mem_cons, eq_comm]
    exact or_assoc.trans or_left_comm

theorem mem_foldl_targets (l : List (CellRef × Copies)) (refs : List CellRef) :
    r ∈ l.foldl (fun refs e => e.2.targets ++ refs) refs ↔
      r ∈ refs ∨ ∃ e ∈ l, r ∈ e.2.targets := by
  induction l generalizing refs with
  | nil => simp
  | cons e l ih =>
    rw [List.foldl_cons, ih, List.mem_append, List.exists_mem_cons_iff]
    exact or_assoc.trans or_left_comm

theorem targeted_iff : s.Targeted r ↔ ∃ e ∈ s.history.toList, r ∈ e.2.targets := by
  constructor
  · rintro ⟨x, hx⟩
    rw [History.targets, History.of] at hx
    cases hfound : s.history[x]? with
    | none =>
      rw [hfound] at hx
      cases hx
    | some c =>
      rw [hfound] at hx
      exact ⟨(x, c), Std.TreeMap.mem_toList_iff_getElem?_eq_some.2 hfound, hx⟩
  · rintro ⟨⟨x, c⟩, he, hr⟩
    have hfound := Std.TreeMap.mem_toList_iff_getElem?_eq_some.1 he
    exact ⟨x, by rwa [History.targets, History.of, hfound]⟩

theorem mem_writtenCells : r ∈ writtenCells s ↔ s.Remembers r := by
  rw [writtenCells, mem_keys_foldl_insert, Std.TreeMap.foldl_eq_foldl_toList, mem_foldl_targets,
    ← targeted_iff, or_iff_right Std.TreeMap.not_mem_emptyc, Remembers, or_comm]

structure Cleared (s t : FillState) : Prop where
  still : Still { s with written := [] } t
  emptied : ∀ r, s.Remembers r → t.book.content r = {}
  kept : ∀ r, ¬ s.Remembers r → t.book.content r = s.book.content r

end FillState

namespace FillM

variable {s t : FillState} {r : CellRef}

theorem still_log (s : FillState) (log : List LogEntry) : Still s { s with log := log } :=
  still_of_book rfl rfl rfl (fun _ => rfl) rfl

theorem still_clearCell (r : CellRef) : Leads Still (clearCell r) := by
  refine Leads.bind (leads_modify (still_record _)) fun _ => ?_
  intro s
  cases hsheet : s.sheet? r.sheet with
  | none =>
    obtain ⟨log, hlog⟩ := exec_sheet?_none hsheet
    rw [exec_bind, hlog]
    exact still_log s log
  | some x =>
    rw [exec_bind, exec_sheet? hsheet]
    dsimp only
    split
    · exact still_putCell r _ s
    · exact refl_of Still s

def sweep (r : CellRef) : FillM Unit := do
  match ← sheet? r.sheet with
  | none => return
  | some s =>
    unmergeAll r.sheet s fun b => b.first == r.pos
    clearCell r

theorem sweep_emptied (hs : s.Seamless) (r : CellRef) :
    ∃ t, exec (sweep r) s = (.ok (), t) ∧ Still s t ∧ Emptied [r] s t := by
  cases hsheet : s.sheet? r.sheet with
  | none =>
    obtain ⟨log, hlog⟩ := exec_sheet?_none hsheet
    refine ⟨{ s with log := log }, bind_eq_ok.2 ⟨_, _, hlog, rfl⟩, still_log s log, ?_⟩
    refine ⟨settled_of_eq rfl rfl rfl, fun x hx => ?_, fun _ _ => rfl, rfl, rfl, rfl⟩
    rw [List.mem_singleton.1 hx]
    exact content_of_missing hs.deleted hsheet
  | some x =>
    obtain ⟨t, ht, hemptied⟩ := clearCell_emptied (s := s) (r := r) (hsheet ▸ rfl)
    have hmerged : x.merged = [] := by
      rw [← Workbook.blocks_of_find? (sheet?_eq_some hsheet).2, hs.blocks]
    refine ⟨t, bind_eq_ok.2 ⟨_, _, exec_sheet? hsheet, bind_eq_ok.2 ⟨(), s, ?_, ht⟩⟩,
      (still_clearCell r).apply ht, hemptied⟩
    rw [unmergeAll, hmerged]
    rfl

theorem sweepAll_emptied (hs : s.Seamless) (rs : List CellRef) :
    ∃ t, exec (rs.forM sweep) s = (.ok (), t) ∧ Still s t ∧ Emptied rs s t := by
  induction rs generalizing s with
  | nil => exact ⟨s, rfl, refl_of Still s, emptied_nil s⟩
  | cons r rs ih =>
    obtain ⟨t, ht, hstill, hemptied⟩ := sweep_emptied hs r
    obtain ⟨u, hu, hstill', hemptied'⟩ := ih (hs.mono hstill)
    exact ⟨u, bind_eq_ok.2 ⟨_, _, ht, hu⟩, trans_of Still hstill hstill', hemptied.append hemptied'⟩

theorem slot?_without (w : Workbook) (own : List Nat) (r : CellRef) :
    Workbook.slot? { w with sheets := w.sheets.map (.without own) } r = w.slot? r := by
  rw [Workbook.slot?, Workbook.find?_map w (Sheet.without_title own), Workbook.slot?]
  cases w.find? r.sheet with
  | none => rfl
  | some x => rfl

theorem clearTargets_cleared (hs : s.Seamless) :
    ∃ t, exec clearTargets s = (.ok (), t) ∧ Cleared s t := by
  obtain ⟨u, hu, hstill, hemptied⟩ := sweepAll_emptied hs (writtenCells s)
  let book : Workbook := { u.book with sheets := u.book.sheets.map (.without u.ownImages) }
  have hslot : ∀ r, book.slot? r = u.book.slot? r := slot?_without u.book u.ownImages
  have hcontent : ∀ r, book.content r = u.book.content r := fun r => by
    rw [Workbook.content, hslot, Workbook.content]
  refine ⟨{ u with book := book, written := [], ownImages := [] },
    bind_eq_ok.2 ⟨s, s, rfl, bind_eq_ok.2 ⟨(), u, hu, rfl⟩⟩, ?_, fun r hr => ?_, fun r hr => ?_⟩
  · constructor
    case template => exact hstill.template
    case deleted => exact hstill.deleted
    case titles => exact (Workbook.titles_map (Sheet.without_title _)).trans hstill.titles
    case covers =>
      intro r hr
      rw [Workbook.Covers, hslot] at hr
      exact hstill.covers r hr
    case blocks =>
      intro title
      exact (Workbook.blocks_map (Sheet.without_title _) (Sheet.without_merged _) title).trans
        (hstill.blocks title)
    case targets => exact hstill.targets
    case written => rfl
  · exact (hcontent r).trans (hemptied.emptied r (mem_writtenCells.2 hr))
  · exact (hcontent r).trans (hemptied.kept r fun h => hr (mem_writtenCells.1 h))

end FillM

theorem FillState.seamless_ofWorkbook {book : Workbook}
    (hbook : ∀ title ∈ book.titles, book.Unmerged title) : (ofWorkbook book).Seamless := by
  have hsheet : ∀ title x, (ofWorkbook book).book.find? title = some x →
      x.merged = [] ∧ ∀ p : Pos, x.slots[p]? ≠ some .covered := by
    intro title x hx
    rw [ofWorkbook, find?_filled] at hx
    obtain ⟨y, hy, rfl⟩ := Option.map_eq_some_iff.1 hx
    obtain ⟨z, hz, hmerged, hfree⟩ := hbook title (Workbook.mem_titles.2 (hy ▸ rfl))
    cases hy.symm.trans hz
    exact ⟨y.filled_merged.trans hmerged, fun p hp => hfree p ((y.covered_filled p).1 hp)⟩
  constructor
  case deleted => rfl
  case covers =>
    intro r hr
    obtain ⟨x, hx, hslot⟩ := Option.bind_eq_some_iff.1 hr
    exact (hsheet _ x hx).2 r.pos hslot
  case blocks =>
    intro title
    cases hx : (ofWorkbook book).book.find? title with
    | none => rw [Workbook.blocks, hx]; rfl
    | some x => rw [Workbook.blocks_of_find? hx, (hsheet title x hx).1]
  case template =>
    intro title snapshot hsnapshot
    rw [ofWorkbook_template, Template.sheet?_ofWorkbook] at hsnapshot
    obtain ⟨x, hx, rfl⟩ := Option.map_eq_some_iff.1 hsnapshot
    exact (hsheet title x hx).1

inductive CellOp where
  | copy (h : FillHost) (c : Context) (streams : Streams) (origin target : CellRef)
    (withHeight : Bool)
  | value (target : CellRef) (v : Value) (font? : Option Font)
  | formula (target : CellRef) (text : String)
  | clear

namespace CellOp

def run : CellOp → FillM Unit
  | copy h c streams origin target withHeight => do
    FillM.start c streams
    h.copy origin target withHeight
  | value target v font? => setValue target v font?
  | formula target text => setFormula target text
  | clear => clearTargets

def answer (op : CellOp) (s : FillState) : Except Failure Unit := (exec op.run s).1

def next (op : CellOp) (s : FillState) : FillState := (exec op.run s).2

def after (s : FillState) (ops : List CellOp) : FillState := ops.foldl (fun s op => op.next s) s

def target? : CellOp → Option CellRef
  | copy _ _ _ _ target _ | value target _ _ | formula target _ => some target
  | clear => none

/-- An operation puts a value or a formula into a cell: the cell is not blank afterwards, and the
operation went through or changed what the cell holds. -/
structure Fills (op : CellOp) (s : FillState) (r : CellRef) : Prop where
  target : op.target? = some r
  filled : ¬ (op.next s).Blank r
  takes : op.answer s = .ok () ∨
    ((op.next s).book.content r).value ≠ (s.book.content r).value

def Copies (op : CellOp) (s : FillState) (r : CellRef) : Prop :=
  match op with
  | copy _ _ _ origin target _ => target = r ∧ s.Copyable origin target ∧ op.answer s = .ok ()
  | _ => False

def Sets (op : CellOp) (s : FillState) (r : CellRef) : Prop :=
  match op with
  | value target _ _ => target = r ∧ s.Reaches target
  | _ => False

structure Steps (op : CellOp) (s t : FillState) : Prop where
  seamless : t.Seamless
  targeted : ∀ r, t.Targeted r ↔ s.Targeted r ∨ op.Copies s r
  written : ∀ r, r ∈ t.written ↔ r ∈ s.written ∧ op ≠ clear ∨ op.Sets s r
  fills : ∀ r, op.Fills s r → op.Copies s r ∨ op.Sets s r ∨ ∃ text, op = formula r text

variable {s t u : FillState} {r : CellRef} {op : CellOp} {ops : List CellOp}

theorem not_fills_of_vain (h : Vain r (op.answer s) s (op.next s)) : ¬ op.Fills s r := by
  rintro ⟨-, hfilled, htakes⟩
  rcases h with hblank | ⟨⟨f, hf⟩, hsame⟩
  · exact hfilled hblank
  · rcases htakes with hok | hne
    · cases hf.symm.trans hok
    · exact hne hsame

theorem steps_of_still (hs : s.Seamless) (h : Still s (op.next s)) (hclear : op ≠ clear)
    (hcopies : ∀ r, ¬ op.Copies s r) (hsets : ∀ r, ¬ op.Sets s r)
    (hfills : ∀ r, op.Fills s r → ∃ text, op = formula r text) : op.Steps s (op.next s) where
  seamless := hs.mono h
  targeted r := (h.targeted r).trans (or_iff_left (hcopies r)).symm
  written r := by
    rw [h.written, and_iff_left hclear, or_iff_left (hsets r)]
  fills r hr := .inr (.inr (hfills r hr))

theorem steps_of_vain {target : CellRef} (hs : s.Seamless) (h : Still s (op.next s))
    (hvain : Vain target (op.answer s) s (op.next s)) (hclear : op ≠ clear)
    (hcopies : ∀ r, ¬ op.Copies s r) (hsets : ∀ r, ¬ op.Sets s r)
    (hfills : ∀ r, op.Fills s r → r = target) : op.Steps s (op.next s) := by
  refine steps_of_still hs h hclear hcopies hsets fun r hr => ?_
  rw [hfills r hr] at hr
  exact absurd hr (not_fills_of_vain hvain)

theorem steps_of_note {origin target : CellRef} (hs : s.Seamless) (h : Still s u)
    (hnext : op.next s = FillHost.note origin (fun x => x.addTarget target) u) (hclear : op ≠ clear)
    (hcopies : ∀ r, op.Copies s r ↔ r = target) (hsets : ∀ r, ¬ op.Sets s r)
    (hfills : ∀ r, op.Fills s r → r = target) : op.Steps s (op.next s) := by
  have hseamless := hs.mono h
  rw [hnext]
  constructor
  case seamless => exact ⟨hseamless.deleted, hseamless.covers, hseamless.blocks, hseamless.template⟩
  case targeted =>
    intro r
    rw [targeted_addTarget, h.targeted, hcopies]
  case written =>
    intro r
    rw [and_iff_left hclear, or_iff_left (hsets r), ← h.written]
    exact Iff.rfl
  case fills => exact fun r hr => .inl ((hcopies r).2 (hfills r hr))

theorem steps_copy (hs : s.Seamless) (h : FillHost) (c : Context) (streams : Streams)
    (origin target : CellRef) (withHeight : Bool) :
    (copy h c streams origin target withHeight).Steps s
      ((copy h c streams origin target withHeight).next s) := by
  let op := copy h c streams origin target withHeight
  let begun : FillState := { s with context := c, streams := streams }
  have hbegun : Still s begun := still_of_book rfl rfl rfl (fun _ => rfl) rfl
  have hcopies : ∀ r, op.Copies s r ↔ r = target ∧ s.Copyable origin target ∧ op.answer s = .ok () :=
    fun r => and_congr_left' eq_comm
  have htarget : ∀ r, op.Fills s r → r = target := fun r hr => (Option.some.inj hr.target).symm
  rcases hr : exec (h.copy origin target withHeight) begun with ⟨res, t⟩
  have hnext : op.next s = t := congrArg Prod.snd hr
  have hanswer : op.answer s = res := congrArg Prod.fst hr
  rcases FillHost.copy_cases (hs.mono hbegun) hr with
    ⟨hcopyable, rfl, u, hu, rfl⟩ | ⟨hnot, ht, hvain⟩
  · have hfound : s.Copyable origin target := ⟨hcopyable.origin, hcopyable.sheet⟩
    exact steps_of_note hs (trans_of Still hbegun hu) hnext nofun
      (fun r => (hcopies r).trans (and_iff_left ⟨hfound, hanswer⟩)) (fun r => id) htarget
  · rw [← hnext] at ht hvain
    rw [← hanswer] at hvain
    refine steps_of_vain hs (trans_of Still hbegun ht) hvain nofun (fun r hr => ?_) (fun r => id)
      htarget
    obtain ⟨-, hcopyable, hok⟩ := (hcopies r).1 hr
    exact hnot ⟨⟨hcopyable.origin, hcopyable.sheet⟩, hanswer.symm.trans hok⟩

theorem steps_value (hs : s.Seamless) (target : CellRef) (v : Value) (font? : Option Font) :
    (value target v font?).Steps s ((value target v font?).next s) := by
  rcases hr : exec (setValue target v font?) s with ⟨res, t⟩
  have hnext : (value target v font?).next s = t := congrArg Prod.snd hr
  have hanswer : (value target v font?).answer s = res := congrArg Prod.fst hr
  have htarget : ∀ r, (value target v font?).Fills s r → r = target := fun r hr =>
    (Option.some.inj hr.target).symm
  rcases setValue_cases hs hr with ⟨hreaches, ht⟩ | ⟨hnot, ht, hvain⟩
  · let noted : FillState := { s with written := target :: s.written }
    have hseamless : noted.Seamless := ⟨hs.deleted, hs.covers, hs.blocks, hs.template⟩
    have hsets : ∀ r, (value target v font?).Sets s r ↔ r = target := fun r =>
      (and_iff_left hreaches).trans eq_comm
    rw [hnext]
    constructor
    case seamless => exact hseamless.mono ht
    case targeted => exact fun r => (ht.targeted r).trans (or_iff_left id).symm
    case written =>
      intro r
      rw [ht.written, and_iff_left nofun, hsets, List.mem_cons, or_comm]
    case fills => exact fun r hr => .inr (.inl ((hsets r).2 (htarget r hr)))
  · rw [← hnext] at ht hvain
    rw [← hanswer] at hvain
    exact steps_of_vain hs ht hvain nofun (fun r => id) (fun r hr => hnot (hr.1 ▸ hr.2)) htarget

theorem steps_formula (hs : s.Seamless) (target : CellRef) (text : String) :
    (formula target text).Steps s ((formula target text).next s) := by
  have ht : Still s ((formula target text).next s) := still_setFormula hs rfl
  refine steps_of_still hs ht nofun (fun r => id) (fun r => id) fun r hr => ⟨text, ?_⟩
  rw [Option.some.inj hr.target]

theorem steps_clear (hs : s.Seamless) : clear.Steps s (clear.next s) := by
  obtain ⟨t, ht, hcleared⟩ := clearTargets_cleared hs
  have hnext : clear.next s = t := congrArg Prod.snd ht
  have hstill := hcleared.still
  have hswept : FillState.Seamless { s with written := [] } :=
    ⟨hs.deleted, hs.covers, hs.blocks, hs.template⟩
  rw [hnext]
  constructor
  case seamless => exact hswept.mono hstill
  case targeted => exact fun r => (hstill.targeted r).trans (or_iff_left id).symm
  case written =>
    intro r
    rw [hstill.written]
    simp [Sets]
  case fills => exact fun r hr => nomatch hr.target

theorem steps_next (hs : s.Seamless) (op : CellOp) : op.Steps s (op.next s) := by
  cases op with
  | copy h c streams origin target withHeight => exact steps_copy hs ..
  | value target v font? => exact steps_value hs ..
  | formula target text => exact steps_formula hs ..
  | clear => exact steps_clear hs

def Along (P : CellOp → FillState → List CellOp → Prop) (s : FillState) (ops : List CellOp) : Prop :=
  ∃ before op later, ops = before ++ op :: later ∧ P op (after s before) later

theorem along_nil {P : CellOp → FillState → List CellOp → Prop} : ¬ Along P s [] := by
  rintro ⟨before, op, later, h, -⟩
  cases before with
  | nil => cases h
  | cons _ _ => cases h

theorem along_cons {P : CellOp → FillState → List CellOp → Prop} :
    Along P s (op :: ops) ↔ P op s ops ∨ Along P (op.next s) ops := by
  constructor
  · rintro ⟨before, x, later, h, hx⟩
    cases before with
    | nil =>
      cases h
      exact .inl hx
    | cons y before =>
      cases h
      exact .inr ⟨before, x, later, rfl, hx⟩
  · rintro (h | ⟨before, x, later, rfl, hx⟩)
    · exact ⟨[], op, ops, rfl, h⟩
    · exact ⟨op :: before, x, later, rfl, hx⟩

theorem seamless_after (hs : s.Seamless) (ops : List CellOp) : (after s ops).Seamless := by
  induction ops generalizing s with
  | nil => exact hs
  | cons op ops ih => exact ih (steps_next hs op).seamless

/-- An operation after which a cell is remembered when the `later` ones are done: a copy to it that
goes through, or a value that comes to it, unless the output is cleared later. -/
def Recalls (r : CellRef) (op : CellOp) (s : FillState) (later : List CellOp) : Prop :=
  op.Copies s r ∨ op.Sets s r ∧ clear ∉ later

-- By induction on the operations: what a value noted is forgotten when a later one clears the output,
-- what a copy noted is not.
theorem remembers_after (hs : s.Seamless) (ops : List CellOp) :
    (after s ops).Remembers r ↔
      s.Targeted r ∨ r ∈ s.written ∧ clear ∉ ops ∨ Along (Recalls r) s ops := by
  induction ops generalizing s with
  | nil =>
    rw [or_iff_left along_nil, and_iff_left List.not_mem_nil]
    exact Iff.rfl
  | cons op ops ih =>
    have hsteps := steps_next hs op
    have hrest := ih hsteps.seamless
    rw [hsteps.targeted, hsteps.written] at hrest
    refine hrest.trans ?_
    rw [along_cons, Recalls, List.mem_cons, not_or, ne_comm]
    tauto

theorem recalls_of_fills (hs : s.Seamless) {later : List CellOp} (h : op.Fills s r)
    (hformula : ∀ text, op ≠ formula r text) (hlater : clear ∉ later) : Recalls r op s later := by
  rcases (steps_next hs op).fills r h with hcopies | hsets | ⟨text, htext⟩
  · exact .inl hcopies
  · exact .inr ⟨hsets, hlater⟩
  · exact absurd htext (hformula text)

/-- After any operations on a template without merged blocks, clearing the output empties exactly the
cells to which a copy ever went through or a value came since the last clearing. So each cell that a
copy or a value has filled since then is empty; one that a formula filled is as it was, unless it is
among those. -/
theorem clear_after {book : Workbook} (hbook : ∀ title ∈ book.titles, book.Unmerged title)
    (ops : List CellOp) :
    ∃ t, exec clearTargets (after (ofWorkbook book) ops) = (.ok (), t) ∧ ∀ r,
      (Along (Recalls r) (ofWorkbook book) ops → t.book.content r = {}) ∧
      (¬ Along (Recalls r) (ofWorkbook book) ops →
        t.book.content r = (after (ofWorkbook book) ops).book.content r) ∧
      (Along (fun op s later => op.Fills s r ∧ (∀ text, op ≠ formula r text) ∧ clear ∉ later)
        (ofWorkbook book) ops → t.book.content r = {}) := by
  have hopened := seamless_ofWorkbook hbook
  obtain ⟨t, ht, hcleared⟩ := clearTargets_cleared (seamless_after hopened ops)
  have hremembers : ∀ r, (after (ofWorkbook book) ops).Remembers r ↔
      Along (Recalls r) (ofWorkbook book) ops := by
    intro r
    have htargeted : ¬ (ofWorkbook book).Targeted r := by
      rintro ⟨x, hx⟩
      cases hx
    rw [remembers_after hopened, or_iff_right htargeted, or_iff_right fun h => nomatch h.1]
  refine ⟨t, ht, fun r => ?_⟩
  simp only [← hremembers]
  refine ⟨hcleared.emptied r, hcleared.kept r, ?_⟩
  rintro ⟨before, op, later, hops, hfills, hformula, hlater⟩
  have hseamless := seamless_after hopened before
  exact hcleared.emptied r ((hremembers r).2
    ⟨before, op, later, hops, recalls_of_fills hseamless hfills hformula hlater⟩)

def ledger : Workbook where
  sheets := [({ title := "S" } : Sheet).setCell ⟨0, 0⟩ { value := .text "x", type := .text }]

def entries : List CellOp :=
  [copy {} { data := [] } [] ⟨"S", 0, 0⟩ ⟨"S", 1, 0⟩ true, value ⟨"S", 0, 1⟩ (.int 5) none,
    formula ⟨"S", 0, 2⟩ "1+1"]

theorem ledger_cleared : (∀ title ∈ ledger.titles, ledger.Unmerged title) ∧
    ∃ t, exec clearTargets (after (ofWorkbook ledger) entries) = (.ok (), t) ∧
      t.book.content ⟨"S", 1, 0⟩ = {} ∧ t.book.content ⟨"S", 0, 1⟩ = {} ∧
      (t.book.content ⟨"S", 0, 2⟩).value.text? = some "=1+1" := by
  have hunmerged : ∀ title ∈ ledger.titles, ledger.Unmerged title := by
    intro title htitle
    cases List.mem_singleton.1 htitle
    refine ⟨_, rfl, rfl, fun p h => ?_⟩
    rw [Sheet.covered_setCell] at h
    cases h.2
  have hcopied : (entries[0].answer (ofWorkbook ledger)).toOption = some () := by decide +kernel
  have hfilled : ¬ (entries[0].next (ofWorkbook ledger)).Blank ⟨"S", 1, 0⟩ := by
    intro hblank
    have hshown : ((entries[0].next (ofWorkbook ledger)).book.content ⟨"S", 1, 0⟩).value.text? =
        some "x" := by decide +kernel
    rw [show _ = Value.null from hblank] at hshown
    cases hshown
  have hunrecalled : ¬ Along (Recalls ⟨"S", 0, 2⟩) (ofWorkbook ledger) entries := by
    simp [entries, along_cons, along_nil, Recalls, Copies, Sets]
  obtain ⟨t, ht, hcells⟩ := clear_after hunmerged entries
  refine ⟨hunmerged, t, ht, (hcells _).2.2 ?_, (hcells _).1 ?_, ?_⟩
  · refine ⟨[], _, _, rfl, ⟨rfl, hfilled, .inl ?_⟩, fun _ => nofun, ?_⟩
    · exact congrArg Prod.fst (eq_ok_of_toOption hcopied)
    · simp
  · refine ⟨[_], _, _, rfl, .inr ⟨⟨rfl, by decide +kernel, by decide +kernel⟩, ?_⟩⟩
    simp
  · rw [(hcells _).2.1 hunrecalled]
    decide +kernel

end CellOp

end SheetTemplate
