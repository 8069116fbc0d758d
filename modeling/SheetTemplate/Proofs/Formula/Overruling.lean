import SheetTemplate.Proofs.Area.Steps
import SheetTemplate.Proofs.Fill.Shown

namespace SheetTemplate

open FillM FillState

namespace FillState

structure Recorded (s t : FillState) : Prop where
  journal : s.journal <:+ t.journal
  copies : ∀ o r, r ∈ t.history.targets o →
    r ∈ s.history.targets o ∨ Write.copy o r ∈ t.journal

variable {s t : FillState}

theorem recorded_of_history (hjournal : s.journal <:+ t.journal) (h : t.history = s.history) :
    Recorded s t := by
  refine ⟨hjournal, fun o r hr => ?_⟩
  rw [h] at hr
  exact .inl hr

theorem recorded_of_eq (hjournal : t.journal = s.journal) (h : t.history = s.history) :
    Recorded s t := recorded_of_history (hjournal ▸ List.suffix_rfl) h

theorem recorded_write (s : FillState) (w : Write) :
    Recorded s { s with journal := w :: s.journal } :=
  recorded_of_history (List.suffix_cons w s.journal) rfl

instance : IsPreorder FillState Recorded where
  refl _ := recorded_of_eq rfl rfl
  trans s t u := by
    intro hst htu
    refine ⟨hst.journal.trans htu.journal, fun o r hr => ?_⟩
    rcases htu.copies o r hr with hr | hr
    · rcases hst.copies o r hr with hr | hr
      · exact .inl hr
      · exact .inr (htu.journal.subset hr)
    · exact .inr hr

instance : Writable Recorded where
  sheet _ _ _ _ := recorded_of_eq rfl rfl
  written _ _ := recorded_of_eq rfl rfl
  images _ _ _ := recorded_of_eq rfl rfl
  context _ _ := recorded_of_eq rfl rfl
  streams _ _ := recorded_of_eq rfl rfl
  log _ _ := recorded_of_eq rfl rfl

instance : Loose Recorded where
  book _ _ := recorded_of_eq rfl rfl
  sheets _ _ _ := recorded_of_eq rfl rfl

structure Noted (origin target : CellRef) (s t : FillState) : Prop where
  journal : t.journal = s.journal
  copies : ∀ o r, r ∈ t.history.targets o →
    r ∈ s.history.targets o ∨ o = origin ∧ r = target

theorem noted_of_eq {o r : CellRef} (hjournal : t.journal = s.journal)
    (h : t.history = s.history) : Noted o r s t := by
  refine ⟨hjournal, fun x y hy => ?_⟩
  rw [h] at hy
  exact .inl hy

instance (o r : CellRef) : Writable (Noted o r) where
  refl _ := noted_of_eq rfl rfl
  trans s t u := by
    intro hst htu
    refine ⟨htu.journal.trans hst.journal, fun x y hy => ?_⟩
    rcases htu.copies x y hy with hy | hy
    · exact hst.copies x y hy
    · exact .inr hy
  sheet _ _ _ _ := noted_of_eq rfl rfl
  written _ _ := noted_of_eq rfl rfl
  images _ _ _ := noted_of_eq rfl rfl
  context _ _ := noted_of_eq rfl rfl
  streams _ _ := noted_of_eq rfl rfl
  log _ _ := noted_of_eq rfl rfl

instance (o r : CellRef) : Loose (Noted o r) where
  book _ _ := noted_of_eq rfl rfl
  sheets _ _ _ := noted_of_eq rfl rfl

end FillState

/-- Hooks and commands of the host that have every copy of the history in the journal. -/
structure FillHost.Records (h : FillHost) : Prop where
  before : ∀ l origin target, Leads Recorded (h.before l origin target)
  after : ∀ l origin target, Leads Recorded (h.after l origin target)
  update : ∀ n info r, Leads Recorded (h.update n info r)
  run : ∀ c target, Leads Recorded (h.run c target)

namespace FillHost

variable {h : FillHost}

theorem leads_noted_copyOver (origin target : CellRef) :
    Leads (Noted origin target) (h.copyOver origin target true) := by
  refine h.leads_copyOver (leads_merge Loose.book) _ _ _ fun f hf s => ⟨rfl, fun o r hr => ?_⟩
  rw [History.targets, FillHost.note, History.of_modify] at hr
  split at hr
  · next ho =>
    rcases hf.targets _ r hr with hr | hr
    · rw [← ho] at hr
      exact .inl hr
    · exact .inr ⟨ho, hr⟩
  · exact .inl hr

-- The journal has a copy before the history has it.
theorem leads_recorded_copy (origin target : CellRef) :
    Leads Recorded (h.copy origin target true) := by
  intro s
  have hnoted := leads_noted_copyOver (h := h) origin target
    { s with journal := .copy origin target :: s.journal }
  have hcopy : (exec (h.copy origin target true) s).2 = (exec (h.copyOver origin target true)
      { s with journal := .copy origin target :: s.journal }).2 := rfl
  rw [hcopy]
  refine ⟨?_, fun o r hr => ?_⟩
  · rw [hnoted.journal]
    exact List.suffix_cons _ _
  · rcases hnoted.copies o r hr with hr | ⟨rfl, rfl⟩
    · exact .inl hr
    · rw [hnoted.journal]
      exact .inr List.mem_cons_self

theorem Records.steps (hr : h.Records) : h.Steps (fun _ => True) Recorded :=
  Keeps.steps recorded_write ⟨hr.before, hr.after, hr.update, hr.run⟩ leads_recorded_copy

end FillHost

namespace FillOptions

variable {o : FillOptions}

theorem leads_recorded_fillArea (hr : o.host.Records) (area : Area) :
    Leads Recorded (o.fillArea area) :=
  leads_fillArea recorded_write hr.steps area

end FillOptions

namespace Workbook

variable {w : Workbook} {r x : CellRef}

theorem covers_touch : (w.modify r.sheet fun s => s.touch r.pos).Covers x ↔ w.Covers x := by
  rw [Covers, slot?_modify w fun s => s.touch_title r.pos, Covers, slot?]
  by_cases hx : x.sheet = r.sheet
  · rw [if_pos hx, hx]
    cases w.find? r.sheet with
    | none => rfl
    | some s => exact s.covered_touch r.pos x.pos
  · rw [if_neg hx]

theorem covers_setCell (hr : ¬ w.Covers r) (c : Cell) :
    (w.modify r.sheet fun s => s.setCell r.pos c).Covers x ↔ w.Covers x := by
  have htitle : ∀ s : Sheet, (s.setCell r.pos c).title = s.title := fun _ => rfl
  rw [Covers, slot?_modify w htitle, Covers, slot?]
  by_cases hx : x.sheet = r.sheet
  · rw [if_pos hx, hx]
    cases hfind : w.find? r.sheet with
    | none => rfl
    | some s =>
      refine (s.covered_setCell r.pos x.pos c).trans (and_iff_right_of_imp fun hcovered => ?_)
      intro hpos
      apply hr
      rw [Covers, slot?_of_find? w hfind, ← hpos]
      exact hcovered
  · rw [if_neg hx]

end Workbook

namespace FillState

structure Stands (s t : FillState) : Prop where
  template : t.template = s.template
  history : t.history = s.history
  takes : ∀ r, t.Takes r ↔ s.Takes r

variable {s t : FillState}

theorem takes_iff {r : CellRef} : s.Takes r ↔
    s.deleted.contains r.sheet = false ∧ r.sheet ∈ s.book.titles ∧ ¬ s.book.Covers r := by
  rw [← and_assoc, ← sheet?_isSome]
  exact ⟨fun h => ⟨h.sheet, h.covers⟩, fun h => ⟨h.1, h.2⟩⟩

theorem stands_of_book (h : t.book = s.book) (hdeleted : t.deleted = s.deleted)
    (htemplate : t.template = s.template) (hhistory : t.history = s.history) : Stands s t := by
  refine ⟨htemplate, hhistory, fun r => ?_⟩
  rw [takes_iff, takes_iff, h, hdeleted]

theorem stands_onSheet {title : String} {f : Sheet → Sheet} (hf : ∀ s, (f s).title = s.title)
    (h : ∀ r, (s.book.modify title f).Covers r ↔ s.book.Covers r) :
    Stands s (s.onSheet title f) := by
  refine ⟨rfl, rfl, fun r => ?_⟩
  rw [takes_iff, takes_iff]
  simp only [onSheet, s.book.titles_modify hf, h]

instance : IsPreorder FillState Stands where
  refl _ := stands_of_book rfl rfl rfl rfl
  trans _ _ _ hst htu := ⟨htu.template.trans hst.template, htu.history.trans hst.history,
    fun r => (htu.takes r).trans (hst.takes r)⟩

end FillState

namespace FillM

variable {s t : FillState} {r : CellRef}

theorem stands_touch (s : FillState) (r : CellRef) :
    Stands s (s.onSheet r.sheet fun s => s.touch r.pos) :=
  stands_onSheet (fun s => s.touch_title r.pos) fun _ => Workbook.covers_touch

theorem setFormula_stands {formula : String} (h : exec (setFormula r formula) s = (.ok (), t)) :
    Stands s t ∧ (¬ s.Takes r → t.book.content r = s.book.content r) := by
  obtain ⟨_, u, hrecord, h⟩ := bind_eq_ok.1 h
  cases hrecord
  obtain ⟨c?, v, hopen, h⟩ := bind_eq_ok.1 h
  rcases open?_eq_ok hopen with ⟨log, -, rfl, rfl⟩ | ⟨sheet, hsheet, -, hc, hv⟩
  · cases h
    exact ⟨stands_of_book rfl rfl rfl rfl, fun _ => rfl⟩
  · have htouch : Stands s v := by
      have hrecorded : Stands s { s with journal := .formula r formula :: s.journal } :=
        stands_of_book rfl rfl rfl rfl
      rw [hv]
      exact trans_of Stands hrecorded (stands_touch _ r)
    have hsame : v.book.content r = s.book.content r := by
      rw [hv]
      exact s.book.content_touch r r
    cases c? with
    | none =>
      cases h
      exact ⟨htouch, fun _ => hsame⟩
    | some c =>
      obtain ⟨d, hput⟩ := discard_eq_ok h
      obtain ⟨-, rfl⟩ := putOr_eq_ok hput
      -- The position has a cell, so that it is not covered.
      have hcovers : ¬ s.book.Covers r := by
        intro hcovers
        rw [Workbook.Covers, Workbook.slot?_of_find? _ (sheet?_eq_some hsheet).2] at hcovers
        rw [Sheet.cell?_touch, hcovers] at hc
        cases hc
      have hv' : ¬ v.book.Covers r := by
        rw [hv]
        exact fun h => hcovers (Workbook.covers_touch.1 h)
      refine ⟨trans_of Stands htouch ?_, fun hr => absurd ⟨?_, hcovers⟩ hr⟩
      · exact stands_onSheet (fun _ => rfl) fun _ => Workbook.covers_setCell hv' d
      · exact Option.isSome_iff_exists.2 ⟨sheet, hsheet⟩

end FillM

namespace Formula

/-- Moves of formulas, made one after another: the last move to a cell is what it shows, if it can be
written to, and cells without a move show what they showed. -/
structure Overruled (moves : List (CellRef × Except Failure String)) (s t : FillState) : Prop where
  stands : Stands s t
  spared : ∀ x, (∀ c ∈ moves, c.1 ≠ x) ∨ ¬ s.Takes x → t.book.content x = s.book.content x
  moved : ∀ x c, (moves.reverse.find? fun c => c.1 == x) = some c → s.Takes x →
    ∃ formula held, c.2 = .ok formula ∧ Cell.heldText? (formulaText formula) = some held ∧
      t.book.content x = ⟨.text held, Cell.textType held⟩

variable {s t u : FillState}

theorem overruled_nil (h : t.book = s.book) (hdeleted : t.deleted = s.deleted)
    (htemplate : t.template = s.template) (hhistory : t.history = s.history) :
    Overruled [] s t := by
  refine ⟨stands_of_book h hdeleted htemplate hhistory, fun _ _ => by rw [h], ?_⟩
  intro x c hc
  cases hc

theorem Overruled.log {moves : List (CellRef × Except Failure String)} (h : Overruled moves s t)
    (log : List LogEntry) : Overruled moves s { t with log := log } := by
  have hlog : Stands t { t with log := log } := stands_of_book rfl rfl rfl rfl
  exact ⟨trans_of Stands h.stands hlog, h.spared, h.moved⟩

theorem Overruled.append {moves more : List (CellRef × Except Failure String)}
    (h : Overruled moves s t) (h' : Overruled more t u) : Overruled (moves ++ more) s u := by
  refine ⟨trans_of Stands h.stands h'.stands, fun x hx => ?_, fun x c hc hx => ?_⟩
  · rw [h'.spared x, h.spared x]
    · exact hx.imp_left fun hx d hd => hx d (List.mem_append_left _ hd)
    · rw [h.stands.takes]
      exact hx.imp_left fun hx d hd => hx d (List.mem_append_right _ hd)
  · rw [List.reverse_append, List.find?_append] at hc
    cases hlast : more.reverse.find? fun c => c.1 == x with
    | some d =>
      rw [hlast] at hc
      cases hc
      exact h'.moved x c hlast ((h.stands.takes x).2 hx)
    | none =>
      rw [hlast, Option.none_or] at hc
      have hmore : ∀ c ∈ more, c.1 ≠ x := by
        intro d hd hdx
        have := List.find?_eq_none.1 hlast d (List.mem_reverse.2 hd)
        exact this (beq_iff_eq.2 hdx)
      rw [h'.spared x (.inl hmore)]
      exact h.moved x c hc hx

theorem putCopy_overruled {c : CellRef × Except Failure String}
    (h : exec (putCopy c) s = (.ok (), t)) : Overruled [c] s t := by
  have hleaves := (leaves_putCopy c).apply h
  obtain ⟨formula, u, hformula, hset⟩ := bind_eq_ok.1 h
  obtain ⟨-, rfl⟩ := ofExcept_eq_ok.1 hformula
  obtain ⟨hstands, hskipped⟩ := setFormula_stands hset
  refine ⟨hstands, fun x hx => ?_, fun x d hd hx => ?_⟩
  · by_cases hxc : x = c.1
    · subst hxc
      rcases hx with hx | hx
      · exact absurd rfl (hx c List.mem_cons_self)
      · exact hskipped hx
    · exact hleaves x hxc
  · have hdx : d.1 = x := by
      have := List.find?_some hd
      exact eq_of_beq this
    have hdc : d = c := List.mem_singleton.1 (List.mem_of_find?_eq_some hd)
    subst hdc hdx
    exact putCopy_content hx h

theorem putCopies_overruled {copies : List (CellRef × Except Failure String)}
    (h : exec (copies.forM putCopy) s = (.ok (), t)) : Overruled copies s t := by
  induction copies generalizing s with
  | nil =>
    cases h
    exact overruled_nil rfl rfl rfl rfl
  | cons c rest ih =>
    obtain ⟨_, u, hput, hrest⟩ := bind_eq_ok.1 h
    exact (putCopy_overruled hput).append (ih hrest)

theorem relocateArea_overruled {area : Area} (h : exec (relocateArea area) s = (.ok (), t)) :
    Overruled (relocations area s.template s.history) s t := by
  obtain ⟨_, u, hget, h⟩ := bind_eq_ok.1 h
  cases hget
  obtain ⟨_, u, hput, hlog⟩ := bind_eq_ok.1 h
  cases hlog
  exact (putCopies_overruled hput).log _

theorem relocateAreas_overruled {roots : List Area}
    (h : exec (roots.forM relocateArea) s = (.ok (), t)) :
    Overruled (roots.flatMap fun a => relocations a s.template s.history) s t := by
  induction roots generalizing s with
  | nil =>
    cases h
    exact overruled_nil rfl rfl rfl rfl
  | cons a rest ih =>
    obtain ⟨_, u, hmove, hrest⟩ := bind_eq_ok.1 h
    have hfirst := relocateArea_overruled hmove
    have hothers := ih hrest
    rw [hfirst.stands.template, hfirst.stands.history] at hothers
    exact hfirst.append hothers

end Formula

namespace FillOptions

variable {o : FillOptions} {roots : List Area} {s₀ s t : FillState}

theorem moves_copied (hr : o.host.Records) (hnew : s₀.history = ∅)
    (hfill : exec (roots.forM o.fillArea) s₀ = (.ok (), s)) {c : CellRef × Except Failure String}
    (hc : c ∈ roots.flatMap fun a => Formula.relocations a s.template s.history) :
    ∃ a ∈ roots, ∃ info ∈ s.template.formulas, a.contains info.ref = true ∧
      Write.copy info.ref c.1 ∈ s.journal := by
  obtain ⟨a, ha, hc⟩ := List.mem_flatMap.1 hc
  obtain ⟨info, hinfo, hc⟩ := List.mem_flatMap.1 hc
  obtain ⟨target, htarget, rfl⟩ := List.mem_map.1 hc
  obtain ⟨hformula, hin⟩ := List.mem_filter.1 hinfo
  refine ⟨a, ha, info, hformula, hin, ?_⟩
  have hrecorded : Recorded s₀ s := (leads_forM fun a _ => leads_recorded_fillArea hr a).apply hfill
  rcases hrecorded.copies _ _ htarget with hempty | hcopy
  · rw [hnew] at hempty
    exact absurd hempty List.not_mem_nil
  · exact hcopy

/-- What moving the formulas of all areas does to the cells that the areas were filled into. A cell
that no formula was copied to keeps what was written to it last, and so does one that nothing can be
written to. A cell that a formula cell of an area was copied to holds the last such formula again,
moved, whatever was written over it since. -/
theorem relocation_overrules (hr : o.host.Records) (hnew : s₀.history = ∅)
    (hfill : exec (roots.forM o.fillArea) s₀ = (.ok (), s))
    (hmove : exec (roots.forM Formula.relocateArea) s = (.ok (), t)) :
    (∀ r, (∀ a ∈ roots, ∀ info ∈ s.template.formulas, a.contains info.ref = true →
        Write.copy info.ref r ∉ s.journal) → t.book.content r = s.book.content r) ∧
    ∃ moves, moves = (roots.flatMap fun a => Formula.relocations a s.template s.history) ∧
      (∀ c ∈ moves, ∃ a ∈ roots, ∃ info ∈ s.template.formulas, a.contains info.ref = true ∧
        Write.copy info.ref c.1 ∈ s.journal) ∧
      (∀ r, (∀ c ∈ moves, c.1 ≠ r) ∨ ¬ s.Takes r → t.book.content r = s.book.content r) ∧
      ∀ r c, (moves.reverse.find? fun c => c.1 == r) = some c → s.Takes r →
        ∃ formula held, c.2 = .ok formula ∧ Cell.heldText? (formulaText formula) = some held ∧
          t.book.content r = ⟨.text held, Cell.textType held⟩ := by
  have hoverruled := Formula.relocateAreas_overruled hmove
  have hcopied := fun c hc => moves_copied hr hnew hfill (c := c) hc
  refine ⟨fun r hno => ?_, _, rfl, hcopied, hoverruled.spared, hoverruled.moved⟩
  apply hoverruled.spared
  left
  rintro c hc rfl
  obtain ⟨a, ha, info, hinfo, hin, hcopy⟩ := hcopied c hc
  exact hno a ha info hinfo hin hcopy

def stampArea : Area :=
  { start := ⟨"S", 0, 0⟩
    size := ⟨1, 1⟩
    bindings := [⟨.updateCell "u", ⟨"S", 0, 0⟩, ⟨1, 1⟩, [{ start := ⟨"S", 0, 0⟩, size := ⟨1, 1⟩ }]⟩] }

def stamping : FillOptions :=
  { host := { update := fun _ info _ => pure { info with value := .text "X", formula? := none } } }

def stampStart : FillState :=
  { FillState.ofWorkbook
      { sheets := [({ title := "S" } : Sheet).setCell ⟨0, 0⟩
          { value := .text "=1+1", type := .formula }] } with
    context := { data := [("u", .updater 0)] } }

def stampFilled : FillState := (exec ([stampArea].forM stamping.fillArea) stampStart).2

def stampMoved : FillState := (exec ([stampArea].forM Formula.relocateArea) stampFilled).2

theorem stampArea_overrules :
    exec ([stampArea].forM stamping.fillArea) stampStart = (.ok (), stampFilled) ∧
      exec ([stampArea].forM Formula.relocateArea) stampFilled = (.ok (), stampMoved) ∧
      (stampFilled.book.content ⟨"S", 0, 0⟩).value.text? = some "X" ∧
      stampFilled.journal.head?.map Write.target = some ⟨"S", 0, 0⟩ ∧
      (stampMoved.book.content ⟨"S", 0, 0⟩).value.text? = some "=1+1" ∧
      ∃ held, Cell.heldText? (formulaText "1+1") = some held ∧
        stampMoved.book.content ⟨"S", 0, 0⟩ = ⟨.text held, Cell.textType held⟩ := by
  have hr : stamping.host.Records :=
    ⟨fun _ _ _ => leads_pure _, fun _ _ _ => leads_pure _, fun _ _ _ => leads_pure _,
      fun _ _ => leads_pure _⟩
  have hfill := eq_ok_of_toOption (p := exec ([stampArea].forM stamping.fillArea) stampStart)
    (a := ()) (by decide +kernel)
  have hmove := eq_ok_of_toOption (p := exec ([stampArea].forM Formula.relocateArea) stampFilled)
    (a := ()) (by decide +kernel)
  rw [← stampFilled] at hfill
  rw [← stampMoved] at hmove
  obtain ⟨-, moves, rfl, -, -, hmoved⟩ := relocation_overrules hr rfl hfill hmove
  have hlast : (([stampArea].flatMap fun a =>
      Formula.relocations a stampFilled.template stampFilled.history).reverse.find? fun c =>
        c.1 == ⟨"S", 0, 0⟩).map (fun c => c.2.toOption) = some (some "1+1") := by decide +kernel
  obtain ⟨c, hc, hformula⟩ := Option.map_eq_some_iff.1 hlast
  have hshown : (stampFilled.book.content ⟨"S", 0, 0⟩).value.text? = some "X" := by decide +kernel
  have htakes : stampFilled.Takes ⟨"S", 0, 0⟩ := by
    refine ⟨by decide +kernel, fun hcovers => ?_⟩
    rw [Workbook.content, hcovers] at hshown
    cases hshown
  obtain ⟨formula, held, hok, hheld, hcontent⟩ := hmoved _ c hc htakes
  rw [hok] at hformula
  cases hformula
  exact ⟨hfill, hmove, hshown, by decide +kernel, by decide +kernel, held, hheld, hcontent⟩

end FillOptions

end SheetTemplate
