import SheetTemplate.Area.Replay
import SheetTemplate.Proofs.Command.Asking
import SheetTemplate.Proofs.Fill.Reshaping

namespace SheetTemplate

open FillM FillState Number Text

theorem TemplateFault.locateExpression_template (e : TemplateFault)
    (cell command property : Option String) :
    ∃ e', (Failure.template e).locateExpression cell command property = .template e' := by
  dsimp only [Failure.locateExpression]
  split
  · exact ⟨_, rfl⟩
  · exact ⟨_, rfl⟩

namespace MergeSpec

variable {h : FillHost} {m : MergeSpec} {key : String} {given? : Option String} {replayed : Int}
  {target : CellRef} {cols rows : Int} {s t u v : FillState}

def IsNumeral (text : String) : Prop :=
  let digits := text.toList.dropWhile (· == '-')
  (!digits.isEmpty && digits.all isDigit) = true

instance (text : String) : Decidable (IsNumeral text) := inferInstanceAs (Decidable (_ = _))

/-- The number that an attribute comes to from `s`, where the inner area filled `replayed`. -/
inductive Comes (h : FillHost) (replayed : Int) (s : FillState) :
    Option String → Int → FillState → Prop
  | absent : Comes h replayed s none (max replayed 1) s
  | numeral {text : String} {n : Int} (written : IsNumeral (stripText text))
    (read : readInt? 10 (stripText text).toList = some n) : Comes h replayed s (some text) n s
  | value {text : String} {v : Value} {n : Int} {t : FillState}
    (written : ¬ IsNumeral (stripText text))
    (asked : exec (h.evaluate (stripText text)) s = (.ok v, t)) (whole : Expr.toWhole v = .ok n) :
    Comes h replayed s (some text) n t

inductive Astray (h : FillHost) (s : FillState) : Option String → Prop
  | numeral {text : String} (written : IsNumeral (stripText text))
    (read : readInt? 10 (stripText text).toList = none) : Astray h s (some text)
  | broken {text : String} {f : Failure} {t : FillState} (written : ¬ IsNumeral (stripText text))
    (asked : exec (h.evaluate (stripText text)) s = (.error f, t))
    (foreign : ∀ e, f ≠ .template e) : Astray h s (some text)
  | endless {text : String} {v : Value} {f : Fault} {t : FillState}
    (written : ¬ IsNumeral (stripText text))
    (asked : exec (h.evaluate (stripText text)) s = (.ok v, t))
    (whole : Expr.toWhole v = .error f) (kind : f.kind ≠ .type ∧ f.kind ≠ .value) :
    Astray h s (some text)

/-- An attribute that is refused with an error of the template: its evaluation fails with one, or it
comes to a value that is no whole number. -/
inductive Refused (h : FillHost) (s : FillState) : Option String → Prop
  | failed {text : String} {e : TemplateFault} {t : FillState}
    (written : ¬ IsNumeral (stripText text))
    (asked : exec (h.evaluate (stripText text)) s = (.error (.template e), t)) :
    Refused h s (some text)
  | notWhole {text : String} {v : Value} {f : Fault} {t : FillState}
    (written : ¬ IsNumeral (stripText text))
    (asked : exec (h.evaluate (stripText text)) s = (.ok v, t))
    (whole : Expr.toWhole v = .error f) (kind : f.kind = .type ∨ f.kind = .value) :
    Refused h s (some text)

theorem toWhole_text (text : String) : Expr.toWhole (.text text) =
    match readInt? 10 text.toList with
    | some n => .ok n
    | none => .error (Expr.notWholeText 10 (.text text)) := rfl

theorem Comes.evaluated (hc : Comes h replayed s given? cols t) : Evaluated s t := by
  cases hc with
  | absent => exact refl_of Evaluated s
  | numeral => exact refl_of Evaluated s
  | value _ asked _ =>
    exact (inward_evaluate h "mergeCells" "" _).evaluated.apply (mapFailure_eq_ok.2 asked)

theorem dimension_cases {r : Except Failure Int}
    (hr : exec (dimension h key given? replayed) s = (r, t)) :
    (∃ n, r = .ok n ∧ Comes h replayed s given? n t) ∨
      ∃ f, r = .error f ∧ ((∃ e, f = .template e) ∧ Refused h s given? ∨ Astray h s given?) := by
  unfold dimension at hr
  cases given? with
  | none =>
    cases hr
    exact .inl ⟨_, rfl, .absent⟩
  | some text =>
    dsimp only at hr
    split at hr
    · next hwritten =>
      -- A number as it is written is read without asking the evaluator.
      rw [toWhole_text] at hr
      cases hread : readInt? 10 (stripText text).toList with
      | some n =>
        rw [hread] at hr
        cases hr
        exact .inl ⟨n, rfl, .numeral hwritten hread⟩
      | none =>
        rw [hread] at hr
        cases hr
        exact .inr ⟨_, rfl, .inr (.numeral hwritten hread)⟩
    · next hwritten =>
      rw [exec_bind, within, exec_mapFailure] at hr
      rcases hasked : exec (h.evaluate (stripText text)) s with ⟨f | v, u⟩
      · rw [hasked] at hr
        cases hr
        refine .inr ⟨_, rfl, ?_⟩
        cases f with
        | template e =>
          exact .inl ⟨e.locateExpression_template _ _ _, .failed hwritten hasked⟩
        | plain f => exact .inr (.broken hwritten hasked fun e => Failure.noConfusion)
        | library k => exact .inr (.broken hwritten hasked fun e => Failure.noConfusion)
      · rw [hasked] at hr
        dsimp only [Except.mapError] at hr
        cases hwhole : Expr.toWhole v with
        | ok n =>
          rw [hwhole] at hr
          cases hr
          exact .inl ⟨n, rfl, .value hwritten hasked hwhole⟩
        | error f =>
          rw [hwhole] at hr
          dsimp only at hr
          split at hr
          · next hkind =>
            cases hr
            exact .inr ⟨_, rfl, .inl ⟨⟨_, rfl⟩, .notWhole hwritten hasked hwhole (by simpa using hkind)⟩⟩
          · next hkind =>
            cases hr
            exact .inr ⟨_, rfl, .inr (.endless hwritten hasked hwhole (by simpa using hkind))⟩

theorem dimension_then {α : Type} {k : Int → FillM α} {r : Except Failure α}
    (hr : exec (dimension h key given? replayed >>= k) s = (r, u)) :
    ((∃ e, r = .error (.template e)) ∧ Refused h s given?) ∨ Astray h s given? ∨
      ∃ n t, Comes h replayed s given? n t ∧ exec (k n) t = (r, u) := by
  rw [exec_bind] at hr
  rcases hdim : exec (dimension h key given? replayed) s with ⟨f | n, t⟩
  · rw [hdim] at hr
    cases hr
    rcases dimension_cases hdim with ⟨_, hok, -⟩ | ⟨_, hf, ⟨⟨e, rfl⟩, hrefused⟩ | hastray⟩
    · cases hok
    · cases hf
      exact .inl ⟨⟨e, rfl⟩, hrefused⟩
    · exact .inr (.inl hastray)
  · rw [hdim] at hr
    rcases dimension_cases hdim with ⟨_, hok, hcomes⟩ | ⟨_, hf, -⟩
    · cases hok
      exact .inr (.inr ⟨n, t, hcomes, hr⟩)
    · cases hf

def Meets (m : MergeSpec) (cols rows : Int) : Prop :=
  m.minCols ≤ cols ∧ m.minRows ≤ rows ∧ (1 < cols ∨ 1 < rows)

instance (m : MergeSpec) (cols rows : Int) : Decidable (m.Meets cols rows) :=
  inferInstanceAs (Decidable (_ ∧ _ ∧ _))

def block (target : CellRef) (cols rows : Int) : Block :=
  ⟨target.pos, target.pos.offset (rows - 1) (cols - 1)⟩

/-- What is reported and merged when the attributes come to `cols` and `rows`, from `s`. -/
structure Reports (m : MergeSpec) (target : CellRef) (cols rows : Int) (filled : Size)
    (s t : FillState) : Prop where
  size : filled =
    if m.minCols ≤ cols ∧ m.minRows ≤ rows ∧ cols ≤ 1 ∧ rows ≤ 1 then ⟨1, 1⟩ else ⟨cols, rows⟩
  merged : m.Meets cols rows → (s.sheet? target.sheet).isSome = true →
    Merged target.sheet (block target cols rows) s t
  apart : ¬ m.Meets cols rows ∨ s.sheet? target.sheet = none → t.book = s.book

theorem Reports.width_le {filled : Size} (hr : m.Reports target cols rows filled s t) {n : Int}
    (hn : n ≤ cols) : n ≤ filled.width := by
  rw [hr.size]
  split
  · next hone => exact Int.le_trans hn hone.2.2.1
  · exact hn

theorem Reports.height_le {filled : Size} (hr : m.Reports target cols rows filled s t) {n : Int}
    (hn : n ≤ rows) : n ≤ filled.height := by
  rw [hr.size]
  split
  · next hone => exact Int.le_trans hn hone.2.2.2
  · exact hn

theorem Comes.replayed_le (hc : Comes h replayed s given? cols t) (hnone : given? = none) :
    replayed ≤ cols := by
  subst hnone
  cases hc
  exact Int.le_max_left _ _

/-- What keeps a block from being told of or merged, when the inner area left `s`: an attribute that
leads astray, or a block that no sheet has. -/
inductive Stuck (h : FillHost) (m : MergeSpec) (size : Size) (target : CellRef) (s : FillState) :
    Prop
  | cols (astray : Astray h s m.cols?)
  | rows {cols : Int} {t : FillState} (told : Comes h size.width s m.cols? cols t)
    (astray : Astray h t m.rows?)
  | block {cols rows : Int} {t u : FillState} (told : Comes h size.width s m.cols? cols t)
    (told' : Comes h size.height t m.rows? rows u) (meets : m.Meets cols rows)
    (invalid : (block target cols rows).isValid = false)

theorem merge_stuck {title : String} {b : Block} {f : Failure}
    (hr : exec (merge title b) s = (.error f, t)) : b.isValid = false := by
  rw [merge, exec_bind] at hr
  cases hsheet : s.sheet? title with
  | none =>
    obtain ⟨log, hlog⟩ := exec_sheet?_none hsheet
    rw [hlog] at hr
    cases hr
  | some x =>
    rw [exec_sheet? hsheet] at hr
    dsimp only at hr
    cases hmerge : x.merge? b with
    | some y =>
      rw [hmerge] at hr
      cases hr
    | none =>
      rw [Sheet.merge?] at hmerge
      split at hmerge
      · cases hmerge
      · next hvalid => exact Bool.eq_false_iff.2 hvalid

theorem finish_reports {r : Except Failure Size}
    (hr : exec (do
      if cols < m.minCols || rows < m.minRows then
        FillM.log .debug "merge_cells" ("mergeCells at " ++ target.label ++ ": " ++ showInt cols ++
          "x" ++ showInt rows ++ " below minimum, not merged")
        return ⟨cols, rows⟩
      else if cols ≤ 1 && rows ≤ 1 then return ⟨1, 1⟩
      else
        FillM.merge target.sheet (block target cols rows)
        return ⟨cols, rows⟩) s = (r, t)) :
    (∃ filled, r = .ok filled ∧ m.Reports target cols rows filled s t) ∨
      ∃ f, r = .error f ∧ m.Meets cols rows ∧ (block target cols rows).isValid = false := by
  split at hr
  · next hbelow =>
    simp only [Bool.or_eq_true, decide_eq_true_eq] at hbelow
    have hnot : ¬ m.Meets cols rows := by
      rintro ⟨hcols, hrows, -⟩
      omega
    cases hr
    refine .inl ⟨_, rfl, ?_, fun hmeets => absurd hmeets hnot, fun _ => rfl⟩
    exact (if_neg fun hone => by omega).symm
  · next hbelow =>
    simp only [Bool.or_eq_true, decide_eq_true_eq, not_or, Int.not_lt] at hbelow
    split at hr
    · next hone =>
      simp only [Bool.and_eq_true, decide_eq_true_eq] at hone
      have hnot : ¬ m.Meets cols rows := by
        rintro ⟨-, -, hlarge⟩
        omega
      cases hr
      refine .inl ⟨_, rfl, ?_, fun hmeets => absurd hmeets hnot, fun _ => rfl⟩
      exact (if_pos ⟨hbelow.1, hbelow.2, hone.1, hone.2⟩).symm
    · next hone =>
      simp only [Bool.and_eq_true, decide_eq_true_eq] at hone
      have hmeets : m.Meets cols rows := ⟨hbelow.1, hbelow.2, by omega⟩
      rw [exec_bind] at hr
      rcases hmerge : exec (merge target.sheet (block target cols rows)) s with ⟨f | _, u⟩
      · rw [hmerge] at hr
        cases hr
        exact .inr ⟨f, rfl, hmeets, merge_stuck hmerge⟩
      · rw [hmerge] at hr
        cases hr
        refine .inl ⟨_, rfl, ?_, fun _ hsheet => ?_, fun hnone => ?_⟩
        · exact (if_neg fun hall => hone hall.2.2).symm
        · rcases merge_cases hmerge with ⟨-, -, hnone⟩ | ⟨-, -, hmerged⟩
          · rw [hnone rfl] at hsheet
            cases hsheet
          · exact hmerged
        · rcases merge_cases hmerge with ⟨-, hbook, -⟩ | ⟨-, hsheet, -⟩
          · exact hbook
          · rw [hnone.resolve_left (not_not_intro hmeets)] at hsheet
            cases hsheet

/-- A command whose inner area filled `size` fails with an error of the template, when one of its
attributes is refused, or reports the size that these come to. Without attributes, and with ones that
come to no less than was filled, this holds all that was filled. A block is merged when it is large
enough, and nothing else is. What happens to a command that is stuck is left open. -/
theorem run_reports (h : FillHost) (m : MergeSpec) (inner : Inner) (target : CellRef) (size : Size)
    (hreplay : exec (inner.replay target) s = (.ok size, t)) (hstuck : ¬ Stuck h m size target t) :
    (∃ e w, exec (m.run h (some inner) target) s = (.error (.template e), w) ∧
      (Refused h t m.cols? ∨
        ∃ cols u, Comes h size.width t m.cols? cols u ∧ Refused h u m.rows?)) ∨
      ∃ filled cols rows u v w, exec (m.run h (some inner) target) s = (.ok filled, w) ∧
        Comes h size.width t m.cols? cols u ∧ Comes h size.height u m.rows? rows v ∧
        v.book = t.book ∧ m.Reports target cols rows filled v w ∧
        (m.cols? = none ∨ size.width ≤ cols → size.width ≤ filled.width) ∧
        (m.rows? = none ∨ size.height ≤ rows → size.height ≤ filled.height) := by
  rcases hrun : exec (m.run h (some inner) target) s with ⟨r, w⟩
  have hr := hrun
  unfold run at hr
  rw [exec_bind, hreplay] at hr
  dsimp only at hr
  -- The attributes are asked for one after the other, and the first that fails ends the command.
  rcases dimension_then hr with ⟨⟨e, rfl⟩, hrefused⟩ | hastray | ⟨cols, u, htold, hr⟩
  · exact .inl ⟨e, w, rfl, .inl hrefused⟩
  · exact absurd (.cols hastray) hstuck
  rcases dimension_then hr with ⟨⟨e, rfl⟩, hrefused⟩ | hastray | ⟨rows, v, htold', hr⟩
  · exact .inl ⟨e, w, rfl, .inr ⟨cols, u, htold, hrefused⟩⟩
  · exact absurd (.rows htold hastray) hstuck
  rcases finish_reports hr with ⟨filled, rfl, hreports⟩ | ⟨f, -, hmeets, hinvalid⟩
  · refine .inr ⟨filled, cols, rows, u, v, w, rfl, htold, htold', ?_, hreports, ?_, ?_⟩
    · have hu := htold.evaluated
      have hv := htold'.evaluated
      rw [Evaluated] at hu hv
      rw [hv, hu]
    · exact fun hcols => hreports.width_le (hcols.elim htold.replayed_le id)
    · exact fun hrows => hreports.height_le (hrows.elim htold'.replayed_le id)
  · exact absurd (.block htold htold' hmeets hinvalid) hstuck

def lines : Area := { start := ⟨"S", 0, 0⟩, size := ⟨1, 2⟩ }

def linesInner : Inner := ⟨lines.start, lines.size, lines.replay {}⟩

def linesState : FillState :=
  { FillState.ofWorkbook
      { sheets := [(({ title := "S" } : Sheet).setCell ⟨0, 0⟩ { value := .text "title" }).setCell
          ⟨1, 0⟩ { value := .text "note" }] } with
    context := { data := [("n", .int 3)] } }

def wide : MergeSpec := { cols? := some "n", minCols := 2 }

def linesFilled : FillState := (exec (linesInner.replay lines.start) linesState).2

theorem replay_lines :
    exec (linesInner.replay lines.start) linesState = (.ok ⟨1, 2⟩, linesFilled) :=
  eq_ok_of_toOption (by decide +kernel)

theorem wide_told {v : Value}
    (hasked : exec (({} : FillHost).evaluate (stripText "n")) linesFilled = (.ok v, t)) :
    Expr.toWhole v = .ok 3 := by
  have htold : ((exec (({} : FillHost).evaluate (stripText "n")) linesFilled).1.toOption.bind
      fun v => (Expr.toWhole v).toOption) = some 3 := by decide +kernel
  rw [hasked] at htold
  dsimp only [Except.toOption, Option.bind_some] at htold
  cases hwhole : Expr.toWhole v with
  | ok n =>
    rw [hwhole] at htold
    cases htold
    rfl
  | error f =>
    rw [hwhole] at htold
    cases htold

theorem wide_reports :
    exec (linesInner.replay lines.start) linesState = (.ok ⟨1, 2⟩, linesFilled) ∧
      ¬ Stuck {} wide ⟨1, 2⟩ lines.start linesFilled ∧
      ∃ filled v w, exec (wide.run {} (some linesInner) lines.start) linesState = (.ok filled, w) ∧
        wide.Reports lines.start 3 2 filled v w ∧ 1 ≤ filled.width ∧ 2 ≤ filled.height := by
  have hwritten : ¬ IsNumeral (stripText "n") := by decide
  have htold : ∀ {cols t}, Comes {} 1 linesFilled wide.cols? cols t → cols = 3 := by
    intro cols t hcomes
    cases hcomes with
    | numeral written => exact absurd written hwritten
    | value _ asked whole =>
      rw [wide_told asked] at whole
      cases whole
      rfl
  have hstuck : ¬ Stuck {} wide ⟨1, 2⟩ lines.start linesFilled := by
    intro hstuck
    cases hstuck with
    | cols astray =>
      cases astray with
      | numeral written => exact absurd written hwritten
      | broken _ asked =>
        have hok : (exec (({} : FillHost).evaluate (stripText "n")) linesFilled).1.isOk = true := by
          decide +kernel
        rw [asked] at hok
        cases hok
      | endless _ asked whole =>
        rw [wide_told asked] at whole
        cases whole
    | rows _ astray => cases astray
    | block told told' _ invalid =>
      cases htold told
      cases told'
      exact absurd invalid (by decide)
  refine ⟨replay_lines, hstuck, ?_⟩
  rcases run_reports {} wide linesInner lines.start ⟨1, 2⟩ replay_lines hstuck with
    ⟨e, u, hrun, -⟩ | ⟨filled, cols, rows, u, v, w, hrun, hcols, hrows, -, hreports, hwidth, hheight⟩
  · have hok : (exec (wide.run {} (some linesInner) lines.start) linesState).1.isOk = true := by
      decide +kernel
    rw [hrun] at hok
    cases hok
  · cases htold hcols
    cases hrows
    exact ⟨filled, _, w, hrun, hreports, hwidth (.inr (by decide)), hheight (.inl rfl)⟩

/-- With two columns and a single row asked for, the first line is merged, and the second is not in
the size. -/
theorem run_narrower : ¬ ∀ (h : FillHost) (m : MergeSpec) (inner : Inner) (target : CellRef)
    (size filled : Size) (s t u : FillState), exec (inner.replay target) s = (.ok size, t) →
      exec (m.run h (some inner) target) s = (.ok filled, u) →
        size.width ≤ filled.width ∧ size.height ≤ filled.height := by
  intro hall
  have hrun : exec (MergeSpec.run {} { cols? := some "2", rows? := some "1" } (some linesInner)
      lines.start) linesState = (.ok ⟨2, 1⟩, _) := eq_ok_of_toOption (by decide +kernel)
  have := (hall _ _ _ _ _ _ _ _ _ replay_lines hrun).2
  exact absurd this (by decide)

end MergeSpec

end SheetTemplate
