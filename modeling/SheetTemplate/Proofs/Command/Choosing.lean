import SheetTemplate.Proofs.Collection.Columns
import SheetTemplate.Proofs.Command.Answers
import SheetTemplate.Proofs.Expr.Reading

namespace SheetTemplate

open Text

namespace Text

variable {c sep : Char} {cs rest word : List Char}

theorem splitOnChar_append (h : sep ∉ cs) :
    splitOnChar sep (cs ++ sep :: rest) = cs :: splitOnChar sep rest := by
  induction cs with
  | nil => rw [List.nil_append, splitOnChar, if_pos (beq_self_eq_true sep)]
  | cons c cs ih =>
    rw [List.mem_cons, not_or] at h
    rw [List.cons_append, splitOnChar, if_neg fun hc => h.1 (beq_iff_eq.1 hc).symm, ih h.2]

theorem words_go_append (h : ∀ c ∈ word, isBlank c = false) (rest front : List Char) :
    words.go (word ++ rest) front = words.go rest (word.reverse ++ front) := by
  induction word generalizing front with
  | nil => rfl
  | cons c word ih =>
    obtain ⟨hc, hword⟩ := List.forall_mem_cons.1 h
    rw [List.cons_append, words.go, hc, if_neg Bool.false_ne_true, ih hword, List.reverse_cons,
      List.append_assoc]
    rfl

theorem words_append (h : ∀ c ∈ word, isBlank c = false) (hne : word ≠ []) (hc : isBlank c = true) :
    words (word ++ c :: rest) = word :: words rest := by
  rw [words, words_go_append h, List.append_nil, words.go, hc, if_pos rfl, List.isEmpty_reverse,
    List.isEmpty_eq_false_iff.2 hne, if_neg Bool.false_ne_true, List.reverse_reverse]
  rfl

theorem words_blank (hc : isBlank c = true) : words (c :: rest) = words rest := by
  rw [words, words.go, hc, if_pos rfl, if_pos List.isEmpty_nil]
  rfl

end Text

namespace OrderSpec

variable {var : String} {spec : OrderSpec} {specs : List OrderSpec}

def written (var : String) (spec : OrderSpec) : List Char :=
  (var.toList ++ '.' :: spec.field.toList) ++ ' ' :: (if spec.descending then "DESC" else "ASC").toList

def listed (var : String) (specs : List OrderSpec) : String :=
  String.ofList (joinWith [',', ' '] (specs.map (written var)))

def Plain (name : String) : Prop := ∀ c ∈ name.toList, isBlank c = false ∧ c ≠ ','

theorem ofWords_written (hvar : Plain var) (hfield : Plain spec.field) :
    ofWords var (words (written var spec)) = some spec := by
  have hpath : ∀ c ∈ var.toList ++ '.' :: spec.field.toList, isBlank c = false := by
    simp only [List.forall_mem_append, List.forall_mem_cons]
    exact ⟨fun c hc => (hvar c hc).1, by decide, fun c hc => (hfield c hc).1⟩
  have hdirection : ∀ b : Bool, words (if b then "DESC" else "ASC").toList =
      [(if b then "DESC" else "ASC").toList] := by decide
  have hdescending : ∀ b : Bool,
      (upper (if b then "DESC" else "ASC").toList == "DESC".toList) = b := by decide
  rw [written, words_append hpath (by simp) (by decide), hdirection, ofWords, hdescending, withoutVar,
    String.toList_ofList,
    show var.toList ++ '.' :: spec.field.toList = (var.toList ++ ['.']) ++ spec.field.toList by simp,
    dropPrefix?_self]
  simp

theorem comma_not_mem_written (hvar : Plain var) (hfield : Plain spec.field) :
    ',' ∉ written var spec := by
  have hdirection : ∀ b : Bool, ',' ∉ (if b then "DESC" else "ASC").toList := by decide
  simp only [written, List.mem_append, List.mem_cons, not_or]
  exact ⟨⟨fun h => (hvar _ h).2 rfl, by decide, fun h => (hfield _ h).2 rfl⟩, by decide,
    hdirection spec.descending⟩

theorem parse_blank (var : String) (cs : List Char) :
    parse (String.ofList (' ' :: cs)) var = parse (String.ofList cs) var := by
  simp only [parse, String.toList_ofList]
  rw [splitOnChar, if_neg (by decide)]
  cases splitOnChar ',' cs with
  | nil => rfl
  | cons part parts => simp only [List.filterMap_cons, words_blank (show isBlank ' ' = true by decide)]

theorem parse_listed (hvar : Plain var) (hspecs : ∀ spec ∈ specs, Plain spec.field) :
    parse (listed var specs) var = specs := by
  unfold listed
  induction specs with
  | nil => rfl
  | cons spec rest ih =>
    obtain ⟨hspec, hrest⟩ := List.forall_mem_cons.1 hspecs
    have hword := ofWords_written hvar hspec
    have hcomma := comma_not_mem_written hvar hspec
    cases rest with
    | nil =>
      simp [joinWith, parse, splitOnChar_of_not_mem hcomma, hword]
    | cons next rest =>
      have ih := ih hrest
      rw [← parse_blank] at ih
      have htext : joinWith [',', ' '] ((spec :: next :: rest).map (written var)) =
          written var spec ++ ',' :: ' ' :: joinWith [',', ' '] ((next :: rest).map (written var)) := by
        simp [joinWith, List.intercalate]
      rw [htext]
      simp only [parse, String.toList_ofList] at ih ⊢
      rw [splitOnChar_append hcomma, List.filterMap_cons, hword, ih]

end OrderSpec

namespace EachSpec

open FillM FillState OrderSpec

variable {h : FillHost} {e : EachSpec} {s t : FillState} {items found kept : List Value}
  {names : Meaning} {condition : String} {st st' : Streams}

def verdictsIn (h : FillHost) (e : EachSpec) (names : Meaning) (condition : String)
    (items : List Value) : EvalM (List Bool) :=
  items.mapM fun item => h.evaluator.isTrue (names.bind e.var item) condition

def favoured (items : List Value) (verdicts : List Bool) : List Value :=
  ((items.zip verdicts).filter Prod.snd).map Prod.fst

theorem selectIn_eq (names : Meaning) (condition : String) (items : List Value) :
    e.selectIn h names condition items =
      favoured items <$> verdictsIn h e names condition items := by
  induction items with
  | nil => rfl
  | cons item rest ih =>
    simp only [selectIn, ih, verdictsIn, List.mapM_cons, map_bind, map_pure, bind_map_left]
    refine bind_congr fun keep => bind_congr fun verdicts => ?_
    cases keep <;> rfl

theorem selectIn_ok (hr : (e.selectIn h names condition found).run st = (.ok kept, st')) :
    ∃ verdicts, (verdictsIn h e names condition found).run st = (.ok verdicts, st') ∧
      kept = favoured found verdicts := by
  rw [selectIn_eq, map_eq_pure_bind] at hr
  obtain ⟨verdicts, u, hverdicts, hkept⟩ := EvalM.bind_eq_ok.1 hr
  cases hkept
  exact ⟨verdicts, hverdicts, rfl⟩

theorem ordered_nil (e : EachSpec) : e.ordered [] = .ok [] := by
  rw [ordered]
  split
  · rfl
  · simp [sortItems_eq]

theorem arranged_of_ungrouped (hgroup : e.groupBy? = none)
    (hr : (e.arranged kept).run st = (.ok items, st')) : e.ordered kept = .ok items ∧ st' = st := by
  unfold arranged at hr
  split at hr
  · next hempty =>
    cases hr
    rw [List.isEmpty_iff.1 hempty]
    exact ⟨e.ordered_nil, rfl⟩
  · rw [grouped, hgroup] at hr
    change (EvalM.ofFault (e.ordered kept)).run st = _ at hr
    cases hordered : e.ordered kept with
    | ok r =>
      rw [hordered] at hr
      cases hr
      exact ⟨rfl, rfl⟩
    | error f =>
      rw [hordered] at hr
      cases hr

theorem resolveIn_ok (hgroup : e.groupBy? = none)
    (hr : (e.resolveIn h names).run st = (.ok items, st')) :
    ∃ found st₁ kept, (h.itemsIn e.items names).run st = (.ok found, st₁) ∧
      (chosenIn h e names found).run st₁ = (.ok kept, st') ∧ e.ordered kept = .ok items := by
  obtain ⟨v, st₀, hv, hr⟩ := EvalM.bind_eq_ok.1 hr
  obtain ⟨found, st₁, hfound, hr⟩ := EvalM.bind_eq_ok.1 hr
  refine ⟨found, st₁, ?_⟩
  have hitems : (h.itemsIn e.items names).run st = (.ok found, st₁) :=
    EvalM.bind_eq_ok.2 ⟨v, st₀, hv, hfound⟩
  split at hr
  · next hempty =>
    cases hr
    rw [List.isEmpty_iff.1 hempty] at hitems ⊢
    refine ⟨[], hitems, ?_, e.ordered_nil⟩
    rw [chosenIn]
    split <;> rfl
  · obtain ⟨kept, st₂, hkept, hr⟩ := EvalM.bind_eq_ok.1 hr
    obtain ⟨hordered, rfl⟩ := arranged_of_ungrouped hgroup hr
    exact ⟨kept, hitems, hkept, hordered⟩

/-- A loop that does not group repeats for the items that its selection favours, or for all when it
has none, as they stood; or sorted by the fields that its order lists, where each of these has only
numbers or only texts beside null. -/
theorem resolve_chooses (hgroup : e.groupBy? = none) (hs : s.context.Sound)
    (hr : exec (e.resolve h) s = (.ok items, t)) :
    ∃ found st kept, (h.itemsIn e.items s.context.get?).run s.streams = (.ok found, st) ∧
      (e.select? = none → kept = found) ∧
      (∀ condition, e.select? = some condition → ∃ verdicts,
        (verdictsIn h e s.context.get? condition found).run st = (.ok verdicts, t.streams) ∧
          kept = favoured found verdicts) ∧
      items.Perm kept ∧ (e.orderBy? = none → items = kept) ∧
      ∀ order, e.orderBy? = some order →
        (∀ specs, Plain e.var → (∀ spec ∈ specs, Plain spec.field) → order = listed e.var specs →
          parse order e.var = specs) ∧
        ((∀ spec ∈ parse order e.var, Value.Uniform (Column kept spec.field)) →
          items.Pairwise (InOrder (parse order e.var)) ∧
          ∀ tied : List Value, tied.Sublist kept →
            (∀ x ∈ tied, ∀ y ∈ tied, Tied (parse order e.var) x y) → tied.Sublist items) := by
  obtain ⟨st', hq, hasked⟩ := answers_resolve s items t hs hr
  obtain ⟨found, st, kept, hfound, hkept, hordered⟩ := resolveIn_ok hgroup hq
  rw [chosenIn] at hkept
  refine ⟨found, st, kept, hfound, fun hselect => ?_, fun condition hselect => ?_, ?_, fun horder => ?_,
    fun order horder => ⟨fun specs hvar hspecs hlisted => ?_, fun hcolumns => ?_⟩⟩
  · rw [hselect] at hkept
    cases hkept
    rfl
  · rw [hselect] at hkept
    rw [hasked.streams]
    exact selectIn_ok hkept
  · rw [ordered] at hordered
    split at hordered
    · cases hordered
      exact .refl _
    · exact sortItems_perm hordered
  · rw [ordered, horder] at hordered
    cases hordered
    rfl
  · rw [hlisted]
    exact parse_listed hvar hspecs
  · rw [ordered, horder] at hordered
    exact sortItems_uniform hcolumns hordered

def rankedEach : EachSpec :=
  { items := "rows", var := "e", select? := some "e.on", orderBy? := some "e.k DESC" }

def rankedState : FillState :=
  let row (k : Value) (on : Bool) : Value := .dict [(.text "k", k), (.text "on", .bool on)]
  { FillState.ofWorkbook { sheets := [] } with
    context :=
      { data := [("rows", .list [row .null true, row (.int 1) true, row (.int 3) false,
          row (.int 2) true])] } }

def rowKey? (row : Value) : Option (Option Int) :=
  match row.field "k" with
  | .null => some none
  | v => v.integer?.map some

theorem uniform_of_rowKey? (hkeys : ∀ row ∈ items, (rowKey? row).isSome) :
    Value.Uniform (Column items "k") := by
  refine .inl ?_
  rintro _ ⟨row, hrow, rfl⟩
  have hkey := hkeys row hrow
  unfold rowKey? at hkey
  split at hkey
  · next hnull => exact .inl hnull
  · obtain ⟨n, hn⟩ := Option.isSome_iff_exists.1 (Option.isSome_map ▸ hkey)
    rcases Value.integer?_cases hn with hint | hint <;>
      exact .inr ⟨.ofInt n, by rw [hint]; rfl, nofun⟩

theorem rankedEach_chooses :
    rankedEach.groupBy? = none ∧ rankedState.context.Sound ∧
      ∃ items, (exec (rankedEach.resolve {}) rankedState).1 = .ok items ∧
        items.map rowKey? = [some (some 2), some (some 1), some none] ∧
        items.Pairwise (InOrder [⟨"k", true⟩]) := by
  have hs : rankedState.context.Sound := Context.sound_of_data _
  have hrun : (exec (rankedEach.resolve {}) rankedState).1.toOption.map (List.map rowKey?) =
      some [some (some 2), some (some 1), some none] := by decide +kernel
  obtain ⟨items, hitems, hkeys⟩ := Option.map_eq_some_iff.1 hrun
  have hr := eq_ok_of_toOption hitems
  obtain ⟨found, st, kept, -, -, -, hperm, -, horder⟩ := resolve_chooses rfl hs hr
  have hsome : ∀ key ∈ items.map rowKey?, key.isSome := by
    rw [hkeys]
    decide
  have huniform : Value.Uniform (Column kept "k") :=
    uniform_of_rowKey? fun row hrow => hsome _ (List.mem_map_of_mem (hperm.mem_iff.2 hrow))
  have hspecs : parse "e.k DESC" rankedEach.var = [⟨"k", true⟩] := by decide +kernel
  have hsorted := (horder _ rfl).2
  rw [hspecs, List.forall_mem_singleton] at hsorted
  have hsorted := (hsorted huniform).1
  exact ⟨rfl, hs, items, congrArg Prod.fst hr, hkeys, hsorted⟩

end EachSpec

end SheetTemplate
