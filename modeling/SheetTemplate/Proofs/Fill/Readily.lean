import SheetTemplate.Proofs.Area.Preserving
import SheetTemplate.Proofs.Expr.Reading
import SheetTemplate.Proofs.Fill.Withstanding

namespace SheetTemplate

open FillM

theorem Column.name_not_isSyntax {n : Int} {f : Failure} (h : Column.name n = .error f) :
    ¬ f.IsSyntax := by
  rw [name] at h
  split at h
  · cases h
    exact not_false
  · split at h
    · cases h
      exact not_false
    · cases h

theorem CellRef.name_not_isSyntax {r : CellRef} {f : Failure} (h : r.name = .error f) :
    ¬ f.IsSyntax := by
  rw [name] at h
  cases hcol : Column.name r.col with
  | ok text =>
    rw [hcol] at h
    cases h
  | error e =>
    rw [hcol] at h
    cases h
    exact Column.name_not_isSyntax hcol

namespace Failure

variable {f : Failure}

theorem locate_isSyntax (cell command property : Option String) :
    (f.locate cell command property).IsSyntax ↔ f.IsSyntax := by
  cases f with
  | template e =>
    have hcause : (e.locate cell command property).cause = e.cause := by
      unfold TemplateFault.locate
      extract_lets e'
      have : e'.cause = e.cause := by
        unfold e'
        split
        · rfl
        · rfl
      split
      · exact this
      · exact this
    rw [locate, IsSyntax, IsSyntax, hcause]
  | plain fault => exact Iff.rfl
  | library kind => exact Iff.rfl

theorem locateExpression_isSyntax (cell command property : Option String) :
    (f.locateExpression cell command property).IsSyntax ↔ f.IsSyntax := by
  cases f with
  | template e =>
    rw [locateExpression]
    split
    · exact locate_isSyntax (f := .template e) cell command property
    · exact Iff.rfl
  | plain fault => exact Iff.rfl
  | library kind => exact Iff.rfl

end Failure

structure FillState.Reads (T : Template) (s : FillState) : Prop where
  template : s.template = T
  streams : s.streams.Safe

open FillState

namespace FillM

variable {α β : Type} {T : Template}

/-- From a state with the template `T`, the program does not fail as reading an expression does. -/
abbrev Readily (T : Template) (m : FillM α) : Prop :=
  Preserves (Reads T) (fun f => ¬ f.IsSyntax) m

theorem readily_modify {g : FillState → FillState}
    (hg : ∀ s, (g s).template = s.template ∧ (g s).streams = s.streams) :
    Readily T (modify g) :=
  preserves_modify fun s hs => ⟨(hg s).1.trans hs.template, (hg s).2 ▸ hs.streams⟩

theorem withstands_reads : Withstands (fun _ => True) (Reads T) fun f => ¬ f.IsSyntax where
  sheet _ _ _ _ _ hs := ⟨hs.template, hs.streams⟩
  record _ _ _ hs := ⟨hs.template, hs.streams⟩
  aside s t ht hs := by
    rw [ht]
    exact ⟨hs.template, hs.streams⟩
  library _ := not_false
  column _ _ := Column.name_not_isSyntax

theorem readily_eval {m : EvalM α} (hm : m.Safe) : Readily T (eval m) := by
  intro s hs
  have h := hm s.streams hs.streams
  rw [exec_eval]
  exact ⟨fun _ _ => ⟨hs.template, h.streams⟩, h.error⟩

theorem readily_onContext (f : Context → Context) : Readily T (onContext f) :=
  readily_modify fun _ => ⟨rfl, rfl⟩

theorem readily_names : Readily T names :=
  (readily_onContext _).bind fun _ => preserves_get.bind fun _ => preserves_pure _

theorem readily_log (level : LogLevel) (source text : String) : Readily T (log level source text) :=
  readily_modify fun _ => ⟨rfl, rfl⟩

theorem readily_within {m : FillM α} (hm : Readily T m) (command property : String) :
    Readily T (within command property m) :=
  hm.mapFailure fun f hf => mt (f.locateExpression_isSyntax none _ _).1 hf

theorem readily_ofFault (r : Except Fault α) : Readily T (ofFault r) :=
  readily_eval (EvalM.safe_ofFault r)

theorem readily_itemsOr (v : Value) (cause : String → Cause) (hcause : ∀ s, ¬ (cause s).IsSyntax)
    (expression command property : String) :
    Readily T (itemsOr v cause expression command property) := by
  refine Preserves.tryCatch (readily_eval (EvalM.safe_itemList v)) (fun s f t hs h => ?_) fun f hf => ?_
  · have hitems := EvalM.safe_itemList v s.streams hs.streams
    obtain ⟨-, rfl⟩ := Prod.mk.inj h
    exact ⟨hs.template, hitems.streams⟩
  · split
    · exact preserves_throw (hcause _)
    · exact preserves_throw hf

theorem readily_onBook (f : Workbook → Workbook) : Readily T (onBook f) :=
  readily_modify fun _ => ⟨rfl, rfl⟩

theorem readily_copySheet (origin title : String) (after? : Option String) :
    Readily T (copySheet origin title after?) := by
  refine preserves_get.bind fun s => ?_
  split
  · exact preserves_throw not_false
  refine (readily_onBook _).bind fun _ => ?_
  extract_lets anchor placed
  have hplaced : ∀ x, Readily T (placed x) := by
    intro x
    refine (readily_onBook _).bind fun _ => preserves_get.bind fun t => ?_
    split
    · exact preserves_throw not_false
    · exact (readily_onBook _).bind fun _ => readily_modify fun _ => ⟨rfl, rfl⟩
  split
  · exact (preserves_throw not_false).bind hplaced
  · exact hplaced ()

theorem readily_setHidden (title : String) (hidden : Bool) : Readily T (setHidden title hidden) := by
  refine preserves_get.bind fun s => ?_
  split
  · exact preserves_throw not_false
  · exact readily_onBook _

theorem readily_deleteSheet (title : String) : Readily T (deleteSheet title) := by
  refine preserves_get.bind fun s => ?_
  split
  · exact preserves_pure _
  · exact readily_modify fun _ => ⟨rfl, rfl⟩

theorem readily_retireSheet (title : String) : Readily T (retireSheet title) := by
  intro s hs
  rw [retireSheet, exec_bind, exec_get]
  dsimp only
  split
  · exact ends_ok hs
  · have hretired : ∀ p, Reads T { s with retired := s.retired ++ [title], policy := p } :=
      fun _ => ⟨hs.template, hs.streams⟩
    rw [exec_bind]
    cases hpolicy : s.policy with
    | keep => exact ends_ok (hretired _)
    | hide => exact readily_setHidden _ _ _ (hretired _)
    | delete => exact readily_deleteSheet _ _ (hretired _)

end FillM

structure CellInfo.Readable (m : Marks) (info : CellInfo) : Prop where
  value : ∀ s, info.value = .text s → ReadableIn m s
  formula : ∀ s, info.formula? = some s → ReadableIn m s

def Command.Readable (c : Command) : Prop := ∀ x ∈ c.expressions, SheetTemplate.Readable x.2

/-- The marks tell an expression with blanks around it, and what the host adds never fails as reading
an expression does. -/
structure FillHost.Readily (h : FillHost) : Prop where
  opening : ∀ c ∈ h.marks.opening.getLast?, Text.isBlank c = false
  evaluator : h.evaluator.host.Safe
  before : ∀ T l origin target, FillM.Readily T (h.before l origin target)
  after : ∀ T l origin target, FillM.Readily T (h.after l origin target)
  update : ∀ T n info r, FillM.Readily T (h.update n info r)
  run : ∀ T c r, FillM.Readily T (h.run c r)

namespace FillHost

variable {h : FillHost} {T : Template}

theorem Readily.evaluate (hh : h.Readily) {text : String} (ht : SheetTemplate.Readable text) :
    FillM.Readily T (h.evaluate text) :=
  readily_names.bind fun names => readily_eval (Evaluator.safe_evaluate hh.evaluator names ht)

theorem Readily.isTrue (hh : h.Readily) {text : String} (ht : SheetTemplate.Readable text) :
    FillM.Readily T (h.isTrue text) :=
  readily_names.bind fun names => readily_eval (Evaluator.safe_isTrue hh.evaluator names ht)

theorem Readily.evaluateText (hh : h.Readily) {text : String} (ht : ReadableIn h.marks text) :
    FillM.Readily T (h.evaluateText text) :=
  readily_names.bind fun names =>
    readily_eval (Evaluator.safe_evaluateText hh.evaluator hh.opening names ht)

theorem readily_atCell {α : Type} {m : FillM α} (hm : FillM.Readily T m) (r : CellRef) :
    FillM.Readily T (atCell r m) :=
  hm.mapFailure fun f hf => mt (f.locateExpression_isSyntax _ none none).1 hf

theorem Readily.copy (hh : h.Readily) {origin : CellRef} (target : CellRef)
    (horigin : ∀ info, T.cell? origin = some info → info.Readable h.marks) :
    FillM.Readily T (h.copy origin target true) := by
  refine withstands_reads.copy trivial fun s hs info hinfo text hasks => ?_
  rw [hs.template] at hinfo
  refine readily_atCell (hh.evaluateText ?_) origin
  cases hasks with
  | value htext => exact (horigin info hinfo).value text htext
  | formula htext => exact (horigin info hinfo).formula text htext

end FillHost

namespace EachSpec

variable {h : FillHost} {T : Template} {e : EachSpec}

theorem readily_selected (hh : h.Readily) {condition : String}
    (hc : SheetTemplate.Readable condition) (items : List Value) :
    FillM.Readily T (e.selected h condition items) := by
  induction items with
  | nil => exact preserves_pure _
  | cons item rest ih =>
    have hkeep := readily_within (T := T) (hh.isTrue hc) "each" "select"
    refine Preserves.bind (hkeep.binding (fun _ _ hs => ⟨hs.template, hs.streams⟩) _ _ _ _) fun keep => ?_
    exact ih.bind fun _ => preserves_pure _

theorem readily_resolve (hh : h.Readily) (he : Command.Readable (.each e)) :
    FillM.Readily T (e.resolve h) := by
  have hitems : SheetTemplate.Readable e.items := he ("items", e.items) List.mem_cons_self
  unfold resolve
  refine (readily_within (hh.evaluate hitems) _ _).bind fun v => ?_
  refine (readily_itemsOr v (.itemsNotSequence _) (fun _ => not_false) _ _ _).bind fun items => ?_
  split
  · exact preserves_pure _
  extract_lets chosen
  have hchosen : ∀ items, FillM.Readily T (chosen items) := by
    intro items
    unfold chosen
    split
    · exact preserves_pure _
    · exact readily_ofFault _
  split
  · exact (preserves_pure _).bind hchosen
  · next condition hselect =>
    refine (readily_selected hh (he ("select", condition) ?_) _).bind hchosen
    simp [Command.expressions, Command.givenPairs, hselect]

end EachSpec

namespace FillHost

variable {h : FillHost} {T : Template}

theorem Readily.image (hh : h.Readily) {i : ImageSpec} (hi : Command.Readable (.image i))
    (r : CellRef) : FillM.Readily T (i.run h r) := by
  have hpicture : SheetTemplate.Readable i.picture := hi ("src", i.picture) List.mem_cons_self
  refine (readily_within (hh.evaluate hpicture) _ _).bind fun v => ?_
  split
  · exact (readily_log _ _ _).bind fun _ => preserves_pure _
  · split
    · exact (withstands_reads.addImage trivial _ _ _).bind fun _ => preserves_pure _
    · exact (withstands_reads.addImage trivial _ _ _).bind fun _ => preserves_pure _
    · exact preserves_throw not_false

theorem Readily.dimension (hh : h.Readily) (key : String) {given? : Option String}
    (hgiven : ∀ text ∈ given?, SheetTemplate.Readable text) (replayed : Int) :
    FillM.Readily T (MergeSpec.dimension h key given? replayed) := by
  unfold MergeSpec.dimension
  split
  · exact preserves_pure _
  · next text =>
    have htext : SheetTemplate.Readable (Text.stripText text) := by
      rw [SheetTemplate.Readable, compile_stripText]
      exact hgiven text rfl
    dsimp only
    split
    · exact readily_ofFault _
    · refine (readily_within (hh.evaluate htext) _ _).bind fun v => ?_
      split
      · exact preserves_pure _
      · split
        · exact preserves_throw not_false
        · exact preserves_throw not_false

theorem readily_resolve (name : String) : FillM.Readily T (Updater.resolve name) := by
  refine preserves_get.bind fun s => ?_
  split
  · exact preserves_throw not_false
  · split
    · exact preserves_throw not_false
    · exact preserves_pure _
    · exact preserves_throw not_false

theorem Readily.preserving (hh : h.Readily) :
    h.Preserving Command.Readable
      (fun r => ∀ info, T.cell? r = some info → info.Readable h.marks) (fun _ => True) (Reads T)
      fun f => ¬ f.IsSyntax where
  located f _ _ hf := mt (f.locate_isSyntax _ _ none).1 hf
  unbound _ := not_false
  log _ _ _ := readily_log _ _ _
  place _ := readily_onContext _
  before l origin target _ := hh.before T l origin target
  after l origin target _ := hh.after T l origin target
  copy _ target ho _ := hh.copy target ho
  resolve _ he := ⟨EachSpec.readily_resolve hh he, not_false⟩
  bind _ _ _ _ _ hm := hm.binding (fun _ _ hs => ⟨hs.template, hs.streams⟩) _ _ _ _
  titles e names he hm := by
    have hnames : SheetTemplate.Readable names :=
      he ("multisheet", names) (by simp [Command.expressions, Command.givenPairs, hm])
    refine ⟨(readily_within (hh.evaluate hnames) _ _).bind fun v => ?_,
      fun _ _ _ _ => readily_copySheet _ _ _, fun _ _ => readily_retireSheet _, fun _ => trivial⟩
    exact readily_itemsOr v (.sheetsNotList names) (fun _ => not_false) _ _ _
  condition c hc := readily_within (hh.isTrue (hc ("condition", c) List.mem_cons_self)) _ _
  grid g hg := by
    have hitems : ∀ key text, SheetTemplate.Readable text →
        FillM.Readily T (GridSpec.itemsOf h key text) := fun key text ht =>
      (readily_within (hh.evaluate ht) _ _).bind fun v =>
        readily_itemsOr v (.notList key text) (fun _ => not_false) _ _ _
    refine ⟨hitems _ _ (hg ("headers", g.headers) List.mem_cons_self),
      hitems _ _ (hg ("data", g.rows) ?_), fun r v font? _ => withstands_reads.setValue trivial v font?⟩
    exact List.mem_cons_of_mem _ List.mem_cons_self
  image _ hi r _ := hh.image hi r
  merge m hm := by
    refine ⟨hh.dimension "cols" fun text ht => hm ("cols", text) ?_,
      hh.dimension "rows" fun text ht => hm ("rows", text) ?_, fun _ b _ => withstands_reads.merge trivial b⟩
    · simp [Command.expressions, Command.givenPairs, Option.mem_def.1 ht]
    · simp [Command.expressions, Command.givenPairs, Option.mem_def.1 ht]
  updater _ _ := ⟨readily_resolve _, fun id r _ =>
    withstands_reads.updateCell trivial (fun n info => hh.update T n info r) id⟩
  height _ _ _ _ := withstands_reads.clearRowHeight trivial _
  hosted c _ r _ := hh.run T c r

end FillHost

end SheetTemplate
