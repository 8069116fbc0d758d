import SheetTemplate.Proofs.Area.Steps
import SheetTemplate.Proofs.Fill.Laying

namespace SheetTemplate

open FillM FillState

namespace Segment

def parts (m : Marks) (cs : List Char) : List Segment :=
  match single? m cs with
  | some e => [expression e]
  | none => split m cs

theorem split_of_unmixed {m : Marks} {cs : List Char}
    (h : (split m cs).any isExpression = false) : split m cs = literals cs := by
  rw [split] at h ⊢
  split
  · rfl
  · next before body rest hnext =>
    rw [hnext] at h
    simp [isExpression] at h

end Segment

namespace Evaluator

variable {ev : Evaluator} {marks : Marks} {names : Meaning} {text : String} {texts : List String}
  {st st' : Streams}

def partTexts (ev : Evaluator) (marks : Marks) (names : Meaning) (text : String) :
    EvalM (List String) :=
  (Segment.parts marks text.toList).mapM (ev.segmentText names)

def IsNull (ev : Evaluator) (marks : Marks) (names : Meaning) (text : String) (st : Streams) :
    Prop :=
  ∃ e, Segment.single? marks text.toList = some e ∧
    ((ev.evaluate names (String.ofList e)).run st).1 = .ok .null

theorem segmentText_expression {e : List Char} {shown : String}
    (h : (ev.segmentText names (.expression e)).run st = (.ok shown, st')) :
    ∃ v, (ev.evaluate names (String.ofList e)).run st = (.ok v, st') ∧
      (v ≠ .null → v.shown = shown) := by
  obtain ⟨v, u, heval, hshown⟩ := EvalM.bind_eq_ok.1 h
  split at hshown
  · cases hshown
    exact ⟨_, heval, fun hne => absurd rfl hne⟩
  · cases hshown
    exact ⟨_, heval, fun _ => rfl⟩

theorem literals_texts {cs : List Char}
    (h : ((Segment.literals cs).mapM (ev.segmentText names)).run st = (.ok texts, st')) :
    st' = st ∧ Text.joinText "" texts = String.ofList cs := by
  cases cs with
  | nil =>
    cases h
    exact ⟨rfl, rfl⟩
  | cons c cs =>
    cases h
    exact ⟨rfl, by simp [Text.joinText]⟩

theorem evaluateText_shown (hparts : (ev.partTexts marks names text).run st = (.ok texts, st'))
    (hnull : ¬ ev.IsNull marks names text st) :
    ∃ v, (ev.evaluateText marks names text).run st = (.ok v, st') ∧
      v.shown = Text.joinText "" texts := by
  unfold partTexts Segment.parts at hparts
  unfold evaluateText
  cases hsingle : Segment.single? marks text.toList with
  | some e =>
    rw [hsingle, List.mapM_cons] at hparts
    obtain ⟨shown, u, hsegment, hparts⟩ := EvalM.bind_eq_ok.1 hparts
    cases hparts
    obtain ⟨v, heval, hshown⟩ := segmentText_expression hsegment
    have hv : v ≠ .null := by
      rintro rfl
      exact hnull ⟨e, hsingle, by rw [heval]⟩
    refine ⟨v, heval, ?_⟩
    rw [hshown hv]
    simp [Text.joinText]
  | none =>
    rw [hsingle] at hparts
    dsimp only
    by_cases hmixed : (Segment.split marks text.toList).any Segment.isExpression = true
    · rw [if_pos hmixed]
      exact ⟨.text (Text.joinText "" texts), EvalM.bind_eq_ok.2 ⟨texts, st', hparts, rfl⟩, rfl⟩
    · rw [if_neg hmixed]
      rw [Segment.split_of_unmixed (Bool.not_eq_true _ ▸ hmixed)] at hparts
      obtain ⟨rfl, htext⟩ := literals_texts hparts
      rw [String.ofList_toList] at htext
      exact ⟨.text text, rfl, htext.symm⟩

end Evaluator

namespace FillHost

variable {h : FillHost} {origin target : CellRef} {formula text : String} {texts : List String}
  {info : CellInfo} {s t : FillState} {st : Streams}

theorem exec_evaluateText_of_meaning {v : Value}
    (heval : (h.evaluator.evaluateText h.marks s.meaning text).run s.streams = (.ok v, st)) :
    exec (h.evaluateText text) s =
      (.ok v, { s with context := s.context.keepView, streams := st }) := by
  refine bind_eq_ok.2 ⟨s.meaning, { s with context := s.context.keepView }, rfl, ?_⟩
  rw [exec_eval, heval]

/-- The parts of a formula in a state come to these texts. -/
def Composes (h : FillHost) (s : FillState) (formula : String) (texts : List String) : Prop :=
  ∃ st, (h.evaluator.partTexts h.marks s.meaning formula).run s.streams = (.ok texts, st) ∧
    ¬ h.evaluator.IsNull h.marks s.meaning formula s.streams

theorem formulaFor_composes (origin target : CellRef)
    (hmarked : Segment.isMarked h.marks formula.toList = true)
    (hparts : h.Composes s formula texts) :
    ∃ t, exec (h.formulaFor origin target formula) s = (.ok (Text.joinText "" texts), t) ∧
      (t.history.of origin).formulas.lookup target = some (Text.joinText "" texts) := by
  obtain ⟨st, hparts, hnull⟩ := hparts
  obtain ⟨v, heval, hshown⟩ := Evaluator.evaluateText_shown hparts hnull
  have htext : h.expressionText? (.text formula) = some formula := by
    rw [expressionText?, if_pos hmarked]
  have hat := exec_atCell (exec_evaluateText_of_meaning heval) origin
  rw [formulaFor, htext, ← hshown]
  refine ⟨_, bind_eq_ok.2 ⟨v, _, hat, bind_eq_ok.2 ⟨(), _, rfl, rfl⟩⟩, ?_⟩
  rw [History.of_modify, if_pos rfl, lookup_setFormula, if_pos rfl]

theorem copyHeld_composes {c : Cell} (hsheet : (s.book.find? target.sheet).isSome = true)
    (hactive : info.activeFormula? = some formula)
    (hmarked : Segment.isMarked h.marks formula.toList = true) (hparts : h.Composes s formula texts)
    (hr : exec (h.copyHeld origin target c info) s = (.ok (), t)) :
    (∃ held, Cell.heldText? ("=" ++ Text.joinText "" texts) = some held ∧
      t.book.content target = ⟨.text held, Cell.textType held⟩) ∧
    (t.history.of origin).formulas.lookup target = some (Text.joinText "" texts) := by
  rw [copyHeld, hactive] at hr
  obtain ⟨u, hformula, hnoted⟩ :=
    formulaFor_composes origin target hmarked hparts
  obtain ⟨_, v, hrun, hr⟩ := bind_eq_ok.1 hr
  rw [hformula] at hrun
  cases hrun
  obtain ⟨d, hput⟩ := discard_eq_ok hr
  obtain ⟨hd, rfl⟩ := putOr_eq_ok hput
  obtain ⟨held, hheld, rfl⟩ := Option.map_eq_some_iff.1 hd
  refine ⟨⟨held, hheld, ?_⟩, hnoted⟩
  obtain ⟨-, hbook, -⟩ := formulaFor_puts hformula
  refine Workbook.content_setCell_self _ target ?_
  rwa [hbook]

theorem copy_composes {withHeight : Bool} (hinfo : s.template.cell? origin = some info)
    (hactive : info.activeFormula? = some formula)
    (hmarked : Segment.isMarked h.marks formula.toList = true) (hparts : h.Composes s formula texts)
    (htarget : s.Takes target) (hr : exec (h.copy origin target withHeight) s = (.ok (), t)) :
    (∃ held, Cell.heldText? ("=" ++ Text.joinText "" texts) = some held ∧
      t.book.content target = ⟨.text held, Cell.textType held⟩) ∧
    (t.history.of origin).formulas.lookup target = some (Text.joinText "" texts) := by
  obtain ⟨c, u, hthere, hnames, hstreams, -, hr⟩ :=
    copy_eq_ok hinfo htarget.sheet htarget.covers hr
  obtain ⟨d, v, w, hthere, hnames', hstreams', -, hheld, hcontent, -, hnoted⟩ :=
    copyInfo_eq_ok hthere hr
  have hparts : h.Composes v formula texts := by
    rwa [Composes, hnames', hstreams', hnames, hstreams]
  obtain ⟨hshown, hlookup⟩ := copyHeld_composes hthere hactive hmarked hparts hheld
  refine ⟨?_, ?_⟩
  · rwa [hcontent]
  · rwa [hnoted, History.of_modify, if_pos rfl]

end FillHost

namespace FillState

def NotAgain (w : Write) (s t : FillState) : Prop := ∀ new, t.journal = new ++ s.journal → w ∉ new

/-- The formula that is noted for a copy stands until this copy is asked for again. -/
structure Upholds (origin target : CellRef) (s t : FillState) : Prop where
  journal : s.journal <:+ t.journal
  noted : NotAgain (.copy origin target) s t →
    (t.history.of origin).formulas.lookup target = (s.history.of origin).formulas.lookup target

variable {origin target : CellRef} {s t u : FillState}

theorem upholds_of_eq (hjournal : s.journal <:+ t.journal) (h : t.history = s.history) :
    Upholds origin target s t := ⟨hjournal, fun _ => by rw [h]⟩

instance : Writable (Upholds origin target) where
  refl _ := upholds_of_eq List.suffix_rfl rfl
  trans s t u hst htu := by
    refine ⟨hst.journal.trans htu.journal, fun hno => ?_⟩
    obtain ⟨first, hfirst⟩ := hst.journal
    obtain ⟨later, hlater⟩ := htu.journal
    have hboth : Write.copy origin target ∉ later ++ first :=
      hno _ (by rw [← hlater, ← hfirst, List.append_assoc])
    rw [List.mem_append, not_or] at hboth
    rw [htu.noted fun new hnew => ?_, hst.noted fun new hnew => ?_]
    · rw [← hfirst, List.append_cancel_right_eq] at hnew
      exact hnew ▸ hboth.2
    · rw [← hlater, List.append_cancel_right_eq] at hnew
      exact hnew ▸ hboth.1
  sheet _ _ _ _ := upholds_of_eq List.suffix_rfl rfl
  written _ _ := upholds_of_eq List.suffix_rfl rfl
  images _ _ _ := upholds_of_eq List.suffix_rfl rfl
  context _ _ := upholds_of_eq List.suffix_rfl rfl
  streams _ _ := upholds_of_eq List.suffix_rfl rfl
  log _ _ := upholds_of_eq List.suffix_rfl rfl

instance : Loose (Upholds origin target) where
  book _ _ := upholds_of_eq List.suffix_rfl rfl
  sheets _ _ _ := upholds_of_eq List.suffix_rfl rfl

theorem upholds_write (s : FillState) (w : Write) :
    Upholds origin target s { s with journal := w :: s.journal } :=
  upholds_of_eq (List.suffix_cons w s.journal) rfl

end FillState

namespace FillHost

variable {h : FillHost} {origin target : CellRef}

theorem leads_upholds_copy (x y : CellRef) :
    Leads (Upholds origin target) (h.copy x y true) := by
  by_cases hsame : x = origin ∧ y = target
  · obtain ⟨rfl, rfl⟩ := hsame
    intro s
    have hjournal : (exec (h.copy x y true) s).2.journal = .copy x y :: s.journal :=
      h.copy_journal rfl
    refine ⟨hjournal ▸ List.suffix_cons _ _, fun hno => ?_⟩
    exact absurd List.mem_cons_self (hno [.copy x y] hjournal)
  · have hover : Leads (Upholds origin target) (h.copyOver x y true) := by
      refine h.leads_copyOver (leads_merge Loose.book) _ _ _ fun f hf s =>
        ⟨List.suffix_rfl, fun _ => ?_⟩
      rw [note, History.of_modify]
      split
      · next hx => rw [hf.formulas _ _ fun hy => hsame ⟨hx.symm, hy.symm⟩, hx]
      · rfl
    exact (leads_modify fun s => upholds_write s _).bind fun _ => hover

end FillHost

namespace FillOptions

variable {o : FillOptions} {info : CellInfo} {target : CellRef} {formula : String}
  {texts : List String} {s : FillState}

/-- A formula with expressions whose parts can be evaluated is composed of these parts. A copy that
succeeds shows the text as far as a cell can hold it, and moving the formula starts from the text
until the same copy is asked for again; no step of a fill changes what is noted for the copy before
that. -/
theorem formulas_compose (hh : o.host.Keeps (Upholds info.ref target))
    (hinfo : s.template.cell? info.ref = some info) (hactive : info.activeFormula? = some formula)
    (hmarked : Segment.isMarked o.host.marks formula.toList = true)
    (hparts : o.host.Composes s formula texts) :
    (∃ t, exec (o.host.formulaFor info.ref target formula) s =
      (.ok (Text.joinText "" texts), t)) ∧
    (∀ withHeight t, s.Takes target →
      exec (o.host.copy info.ref target withHeight) s = (.ok (), t) →
        (∃ held, Cell.heldText? ("=" ++ Text.joinText "" texts) = some held ∧
          t.book.content target = ⟨.text held, Cell.textType held⟩) ∧
        ∀ later, Upholds info.ref target t later → NotAgain (.copy info.ref target) t later →
          ∀ area, Formula.relocateCopy area later.history info target =
            (Formula.moveFor area later.history info target).relocate
              (Text.joinText "" texts)) ∧
    o.host.Steps (fun _ => True) (Upholds info.ref target) ∧
    ∀ area, Leads (Upholds info.ref target) (o.fillArea area) := by
  have hsteps := hh.steps upholds_write fun x y => FillHost.leads_upholds_copy x y
  obtain ⟨t, hformula, -⟩ :=
    FillHost.formulaFor_composes info.ref target hmarked hparts
  refine ⟨⟨t, hformula⟩, fun withHeight t htarget hcopy => ?_, hsteps,
    leads_fillArea upholds_write hsteps⟩
  obtain ⟨hshown, hnoted⟩ :=
    FillHost.copy_composes hinfo hactive hmarked hparts htarget hcopy
  refine ⟨hshown, fun later hlater hagain area => ?_⟩
  rw [Formula.relocateCopy, hlater.noted hagain, hnoted]
  rfl

def rateStart : FillState :=
  { FillState.ofWorkbook
      { sheets := [(({ title := "S" } : Sheet).setCell ⟨0, 0⟩
          { value := .text "=A2*${rate}${none}", type := .formula }).setCell ⟨0, 1⟩
        { value := .text "note", type := .text }] } with
    context := { data := [("rate", .int 2)] } }

def rateCopied : FillState := (exec (FillHost.copy {} ⟨"S", 0, 0⟩ ⟨"S", 0, 0⟩ true) rateStart).2

def rateLater : FillState := (exec (FillHost.copy {} ⟨"S", 0, 1⟩ ⟨"S", 0, 1⟩ true) rateCopied).2

theorem rate_composes :
    ∃ info, rateStart.template.cell? ⟨"S", 0, 0⟩ = some info ∧
      exec (FillHost.copy {} ⟨"S", 0, 0⟩ ⟨"S", 0, 0⟩ true) rateStart = (.ok (), rateCopied) ∧
      exec (FillHost.copy {} ⟨"S", 0, 1⟩ ⟨"S", 0, 1⟩ true) rateCopied = (.ok (), rateLater) ∧
      (rateCopied.book.content ⟨"S", 0, 0⟩).value.text? = some "=A2*2" ∧
      ∀ area, Formula.relocateCopy area rateLater.history info ⟨"S", 0, 0⟩ =
        (Formula.moveFor area rateLater.history info ⟨"S", 0, 0⟩).relocate "A2*2" := by
  have hcell : (rateStart.template.cell? ⟨"S", 0, 0⟩).map (fun i => (i.ref, i.activeFormula?)) =
      some (⟨"S", 0, 0⟩, some "A2*${rate}${none}") := by decide +kernel
  obtain ⟨info, hinfo, hformula⟩ := Option.map_eq_some_iff.1 hcell
  obtain ⟨href, hactive⟩ := Prod.mk.inj hformula
  have hh : FillHost.Keeps {} (Upholds info.ref ⟨"S", 0, 0⟩) :=
    ⟨fun _ _ _ => leads_pure _, fun _ _ _ => leads_pure _, fun _ _ _ => leads_pure _,
      fun _ _ => leads_pure _⟩
  have hparts : FillHost.Composes {} rateStart "A2*${rate}${none}" ["A2*", "2", ""] := by
    refine ⟨_, eq_ok_of_toOption (by decide +kernel), ?_⟩
    rintro ⟨e, he, -⟩
    have hnone : Segment.single? Marks.standard "A2*${rate}${none}".toList = none := by
      decide +kernel
    rw [show ({} : FillHost).marks = Marks.standard from rfl, hnone] at he
    cases he
  have htarget : rateStart.Takes ⟨"S", 0, 0⟩ := by
    refine ⟨by decide +kernel, fun hcovers => ?_⟩
    have hshown : (rateStart.book.content ⟨"S", 0, 0⟩).value.text? =
        some "=A2*${rate}${none}" := by decide +kernel
    rw [Workbook.content, hcovers] at hshown
    cases hshown
  have hcopy := eq_ok_of_toOption (a := ())
    (p := exec (FillHost.copy {} ⟨"S", 0, 0⟩ ⟨"S", 0, 0⟩ true) rateStart) (by decide +kernel)
  have hlater := eq_ok_of_toOption (a := ())
    (p := exec (FillHost.copy {} ⟨"S", 0, 1⟩ ⟨"S", 0, 1⟩ true) rateCopied) (by decide +kernel)
  rw [← rateCopied] at hcopy
  rw [← rateLater] at hlater
  rw [← href] at hinfo
  obtain ⟨-, hcomposed, hsteps, -⟩ :=
    formulas_compose (o := {}) hh hinfo hactive (by decide) hparts
  have hupholds := (hsteps.copy ⟨"S", 0, 1⟩ ⟨"S", 0, 1⟩).apply hlater
  have hagain : NotAgain (.copy info.ref ⟨"S", 0, 0⟩) rateCopied rateLater := by
    intro new hnew hmem
    rw [FillHost.copy_journal {} hlater, ← List.singleton_append,
      List.append_cancel_right_eq] at hnew
    rw [← hnew, List.mem_singleton] at hmem
    cases (Write.copy.inj hmem).2
  refine ⟨info, href ▸ hinfo, hcopy, hlater, by decide +kernel, ?_⟩
  exact (hcomposed true rateCopied htarget (href ▸ hcopy)).2 rateLater hupholds hagain

def spacedStart : FillState :=
  { FillState.ofWorkbook
      { sheets := [({ title := "S" } : Sheet).setCell ⟨0, 0⟩
          { value := .text "= ${x}", type := .formula }] } with
    context := { data := [("x", .int 5)] } }

theorem spaced_trimmed :
    ∃ st t,
      ((Segment.split Marks.standard " ${x}".toList).mapM
        (Evaluator.segmentText {} spacedStart.meaning)).run spacedStart.streams =
          (.ok [" ", "5"], st) ∧
      (spacedStart.template.cell? ⟨"S", 0, 0⟩).map CellInfo.activeFormula? = some (some " ${x}") ∧
      exec (FillHost.copy {} ⟨"S", 0, 0⟩ ⟨"S", 0, 0⟩ true) spacedStart = (.ok (), t) ∧
      (t.book.content ⟨"S", 0, 0⟩).value.text? = some "=5" ∧
      (t.history.of ⟨"S", 0, 0⟩).formulas.lookup ⟨"S", 0, 0⟩ = some "5" ∧
      Text.joinText "" [" ", "5"] ≠ "5" := by
  refine ⟨_, _, eq_ok_of_toOption ?_, ?_, eq_ok_of_toOption ?_, ?_, ?_, ?_⟩
  all_goals decide +kernel

end FillOptions

end SheetTemplate
