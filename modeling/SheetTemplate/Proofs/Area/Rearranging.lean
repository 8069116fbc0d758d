import Mathlib.Data.Int.Order.Basic
import Mathlib.Data.Prod.Lex
import Mathlib.Data.String.Basic
import SheetTemplate.Proofs.Area.Forest
import SheetTemplate.Proofs.Area.Tightest
import SheetTemplate.Proofs.Collection.Stable

namespace SheetTemplate

open FillM FillState Text

namespace Directive

variable {cell : CellRef} {lines lines' : List (List Char)} {ds : List Directive}

theorem parseLine_eq (cell : CellRef) (read : List Directive × Option CellParams)
    (line : List Char) : parseLine cell read line =
      (parseLine cell ([], none) line).map fun x => (read.1 ++ x.1, x.2.or read.2) := by
  unfold parseLine
  dsimp only
  by_cases hparams : isParams (strip line) = true
  · rw [if_pos hparams, if_pos hparams]
    cases parseParams (strip line) with
    | error f => rfl
    | ok params => simp [Except.map]
  · rw [if_neg hparams, if_neg hparams]
    by_cases hcommand : isCommand (strip line) = true
    · rw [if_pos hcommand, if_pos hcommand]
      cases parse (strip line) cell with
      | error f => rfl
      | ok d => simp [Except.map]
    · rw [if_neg hcommand, if_neg hcommand]
      simp [Except.map]

def onLine (cell : CellRef) (line : List Char) : List Directive :=
  ((parseLine cell ([], none) line).toOption.map (·.1)).getD []

theorem parseLines_iff (read : List Directive × Option CellParams) :
    (∃ params?, lines.foldlM (parseLine cell) read = .ok (ds, params?)) ↔
    (∀ line ∈ lines, (parseLine cell ([], none) line).isOk) ∧
      ds = read.1 ++ lines.flatMap (onLine cell) := by
  induction lines generalizing read with
  | nil =>
    obtain ⟨front, params?⟩ := read
    rw [List.foldlM_nil, List.flatMap_nil, List.append_nil]
    constructor
    · rintro ⟨_, h⟩
      cases h
      exact ⟨nofun, rfl⟩
    · rintro ⟨-, rfl⟩
      exact ⟨params?, rfl⟩
  | cons line lines ih =>
    rw [List.foldlM_cons, parseLine_eq, List.forall_mem_cons, List.flatMap_cons, onLine]
    cases hline : parseLine cell ([], none) line with
    | error f => simp [Except.map, bind, Except.bind, Except.isOk, Except.toBool]
    | ok x =>
      change (∃ params?, lines.foldlM (parseLine cell) _ = _) ↔ _
      rw [ih]
      simp [Except.isOk, Except.toBool, Except.toOption]

def stays (cell : CellRef) (line : List Char) : Bool :=
  isParams (strip line) || (onLine cell line).any fun d => d.name == Registry.areaName

structure Rearranged (cell : CellRef) (lines lines' : List (List Char)) : Prop where
  perm : lines'.Perm lines
  staying : lines'.filter (stays cell) = lines.filter (stays cell)

instance (cell : CellRef) (lines lines' : List (List Char)) : Decidable (Rearranged cell lines lines') :=
  decidable_of_iff (_ ∧ _) ⟨fun h => ⟨h.1, h.2⟩, fun h => ⟨h.perm, h.staying⟩⟩

end Directive

namespace CellInfo

def lines (i : CellInfo) : List (List Char) := Directive.lines (i.comment?.getD "").toList

def directives (i : CellInfo) : List Directive :=
  ((Directive.parseComment i.comment? i.ref).toOption.map (·.1)).getD []

def Parses (i : CellInfo) : Prop :=
  ∀ line ∈ i.lines, (Directive.parseLine i.ref ([], none) line).isOk

def Rearranged (i i' : CellInfo) : Prop :=
  i'.ref = i.ref ∧ Directive.Rearranged i.ref i.lines i'.lines

instance (i i' : CellInfo) : Decidable (Rearranged i i') := inferInstanceAs (Decidable (_ ∧ _))

end CellInfo

/-- The comments of a template with their lines in another order, but for those that are to stay. -/
def Template.Rearranged (t t' : Template) : Prop :=
  List.Forall₂ CellInfo.Rearranged t.commented t'.commented

instance (t t' : Template) : Decidable (t.Rearranged t') :=
  decidable_of_iff (t.commented.length = t'.commented.length ∧
      ∀ x ∈ t.commented.zip t'.commented, CellInfo.Rearranged x.1 x.2) (by
    rw [Template.Rearranged, List.forall₂_iff_zip]
    exact and_congr_right fun _ => ⟨fun h _ _ hmem => h _ hmem, fun h x hx => h hx⟩)

def Directive.isArea (d : Directive) : Bool := d.name == Registry.areaName

section Rearranged

variable {cell : CellRef} {lines lines' : List (List Char)} {i i' : CellInfo}

theorem flatMap_eq_filter {α β : Type} {f : α → List β} {q : α → Bool}
    (h : ∀ a, q a = false → f a = []) (l : List α) : l.flatMap f = (l.filter q).flatMap f := by
  induction l with
  | nil => rfl
  | cons a l ih =>
    rw [List.flatMap_cons, ih, List.filter_cons]
    split
    · rfl
    · next ha => rw [h a (Bool.eq_false_iff.2 ha), List.nil_append]

theorem Directive.Rearranged.directives (h : Directive.Rearranged cell lines lines') :
    (lines'.flatMap (onLine cell)).Perm (lines.flatMap (onLine cell)) ∧
      (lines'.flatMap (onLine cell)).filter isArea = (lines.flatMap (onLine cell)).filter isArea := by
  refine ⟨h.perm.flatMap_right _, ?_⟩
  have hnone : ∀ line, stays cell line = false → (onLine cell line).filter isArea = [] := by
    intro line hline
    rw [stays, Bool.or_eq_false_iff, List.any_eq_false] at hline
    exact List.filter_eq_nil_iff.2 hline.2
  rw [List.filter_flatMap, List.filter_flatMap, flatMap_eq_filter hnone lines', h.staying,
    ← flatMap_eq_filter hnone]

theorem CellInfo.Parses.directives_eq (h : i.Parses) :
    i.directives = i.lines.flatMap (Directive.onLine i.ref) := by
  obtain ⟨params?, hread⟩ := (Directive.parseLines_iff ([], none)).2 ⟨h, rfl⟩
  change ((i.lines.foldlM (Directive.parseLine i.ref) ([], none)).toOption.map (·.1)).getD [] = _
  rw [hread]
  rfl

theorem CellInfo.Rearranged.parses (h : CellInfo.Rearranged i i') (hi : i.Parses) :
    i'.Parses := by
  unfold CellInfo.Parses at hi ⊢
  rw [h.1]
  exact fun line hline => hi line (h.2.perm.mem_iff.1 hline)

theorem directives_of_rearranged {infos infos' : List CellInfo}
    (h : List.Forall₂ CellInfo.Rearranged infos infos') (hread : ∀ i ∈ infos, i.Parses) :
    (∀ i ∈ infos', i.Parses) ∧
      (infos'.flatMap CellInfo.directives).Perm (infos.flatMap CellInfo.directives) ∧
      (infos'.flatMap CellInfo.directives).filter Directive.isArea =
        (infos.flatMap CellInfo.directives).filter Directive.isArea := by
  induction h with
  | nil => exact ⟨fun _ h => (nomatch h), .nil, rfl⟩
  | @cons i i' infos infos' hi _ ih =>
    have hok : i.Parses := hread i List.mem_cons_self
    obtain ⟨hrest', hperm, hareas⟩ := ih fun j hj => hread j (List.mem_cons_of_mem i hj)
    have hok' := hi.parses hok
    obtain ⟨hperm', hareas'⟩ := hi.2.directives
    rw [List.flatMap_cons, List.flatMap_cons, hok.directives_eq, hok'.directives_eq, hi.1]
    exact ⟨List.forall_mem_cons.2 ⟨hok', hrest'⟩, hperm'.append hperm,
      by rw [List.filter_append, List.filter_append, hareas, hareas']⟩

end Rearranged

namespace Plan

def join (p q : Plan) : Plan :=
  { p with roots := p.roots ++ q.roots, entries := p.entries ++ q.entries }

def added (r : Registry) (ds : List Directive) : Plan :=
  { roots := (ds.filter Directive.isArea).filterMap fun d =>
      (d.lastCell?.bind fun last => (rectangleSize d last).toOption).map fun size => (d.cell, size)
    entries := (ds.filter fun d => !d.isArea).filterMap r.entry? }

variable {r : Registry} {p q x y : Plan} {ds ds' : List Directive} {s : FillState}

theorem join_added_nil (p : Plan) (r : Registry) : p.join (added r []) = p := by
  simp [join, added]

theorem join_added_append (p : Plan) (r : Registry) (ds ds' : List Directive) :
    p.join (added r (ds ++ ds')) = (p.join (added r ds)).join (added r ds') := by
  simp [join, added]

theorem added_perm (hperm : ds'.Perm ds)
    (hareas : ds'.filter Directive.isArea = ds.filter Directive.isArea) :
    (added r ds').roots = (added r ds).roots ∧ (added r ds').entries.Perm (added r ds).entries :=
  ⟨congrArg (List.filterMap _) hareas, (hperm.filter _).filterMap _⟩

end Plan

def Registry.Accepts (r : Registry) (d : Directive) : Prop :=
  ∃ last size, d.lastCell? = some last ∧ rectangleSize d last = .ok size ∧
    (d.isArea = true ∨ ∃ command?, r.create d.name d.attributes = .ok command?)

namespace FillM

variable {r : Registry} {p q : Plan} {s t : FillState} {d : Directive} {i : CellInfo}

theorem exec_readDirective (hd : r.Accepts d) (p : Plan) (s : FillState) :
    ∃ t, exec (readDirective r p d) s = (.ok (p.join (.added r [d])), t) := by
  obtain ⟨last, size, hlast, hsize, hd⟩ := hd
  unfold readDirective
  rw [hlast, exec_bind, exec_pure]
  dsimp only
  rw [exec_bind, hsize, exec_ofExcept]
  dsimp only
  cases harea : d.name == Registry.areaName with
  | true =>
    have hadded : Plan.added r [d] = { roots := [(d.cell, size)], entries := [] } := by
      simp [Plan.added, Directive.isArea, harea, hlast, hsize, Except.toOption]
    rw [if_pos rfl, hadded]
    exact ⟨s, by simp [Plan.join]⟩
  | false =>
    obtain ⟨command?, hcreate⟩ := hd.resolve_left (by simp [Directive.isArea, harea])
    have hentry : r.entry? d = command?.map fun command =>
        { command := command, start := d.cell, size := size
          second? := if command.areaLimit = 2 then d.areas[1]? else none } := by
      cases command? <;> simp [Registry.entry?, hlast, hsize, hcreate, Except.toOption]
    have hadded : Plan.added r [d] = { roots := [], entries := (r.entry? d).toList } := by
      cases hd : r.entry? d <;> simp [Plan.added, Directive.isArea, harea, hd]
    rw [if_neg Bool.false_ne_true, exec_bind, hcreate, exec_ofExcept, hadded, hentry]
    cases command? with
    | none => exact ⟨_, by simp [Plan.join]; rfl⟩
    | some command => exact ⟨_, by simp [Plan.join]; rfl⟩

theorem accepts_of_readDirective (h : exec (readDirective r p d) s = (.ok q, t)) : r.Accepts d := by
  unfold readDirective at h
  cases hlast : d.lastCell? with
  | none =>
    rw [hlast] at h
    cases h
  | some last =>
    rw [hlast, exec_bind, exec_pure] at h
    dsimp only at h
    obtain ⟨size, u, hsize, h⟩ := bind_eq_ok.1 h
    refine ⟨last, size, hlast, (ofExcept_eq_ok.1 hsize).1, ?_⟩
    split at h
    · next harea => exact .inl harea
    · obtain ⟨command?, u, hcreate, -⟩ := bind_eq_ok.1 h
      exact .inr ⟨command?, (ofExcept_eq_ok.1 hcreate).1⟩

section Folds

variable {α : Type} {f : Plan → α → FillM Plan} {g : α → List Directive} {Good : α → Prop} {l : List α}

theorem exec_foldlM_added
    (hf : ∀ a, Good a → ∀ p s, ∃ t, exec (f p a) s = (.ok (p.join (.added r (g a))), t))
    (hl : ∀ a ∈ l, Good a) (p : Plan) (s : FillState) :
    ∃ t, exec (l.foldlM f p) s = (.ok (p.join (.added r (l.flatMap g))), t) := by
  induction l generalizing p s with
  | nil => exact ⟨s, by rw [List.flatMap_nil, Plan.join_added_nil]; rfl⟩
  | cons a l ih =>
    obtain ⟨t, ht⟩ := hf a (hl a List.mem_cons_self) p s
    obtain ⟨u, hu⟩ := ih (fun b hb => hl b (List.mem_cons_of_mem a hb)) (p.join (.added r (g a))) t
    rw [List.foldlM_cons, List.flatMap_cons, Plan.join_added_append]
    exact ⟨u, bind_eq_ok.2 ⟨_, t, ht, hu⟩⟩

theorem good_of_foldlM (hf : ∀ a p s q t, exec (f p a) s = (.ok q, t) → Good a)
    (h : exec (l.foldlM f p) s = (.ok q, t)) : ∀ a ∈ l, Good a := by
  induction l generalizing p s with
  | nil => exact fun _ h => (nomatch h)
  | cons a l ih =>
    rw [List.foldlM_cons] at h
    obtain ⟨x, u, hx, h⟩ := bind_eq_ok.1 h
    intro b hb
    rcases List.mem_cons.1 hb with rfl | hb
    · exact hf _ p s x u hx
    · exact ih h b hb

end Folds

theorem exec_readComment (hi : i.Parses ∧ ∀ d ∈ i.directives, r.Accepts d) (p : Plan)
    (s : FillState) :
    ∃ t, exec (readComment r p i) s = (.ok (p.join (.added r i.directives)), t) := by
  obtain ⟨params?, hread⟩ := (Directive.parseLines_iff ([], none)).2 ⟨hi.1, rfl⟩
  have hparse : Directive.parseComment i.comment? i.ref = .ok (i.directives, params?) := by
    rw [hi.1.directives_eq]
    exact hread
  have hfold := exec_foldlM_added (f := readDirective r) (g := fun d => [d])
    (fun d hd p s => exec_readDirective hd p s) hi.2 p
  rw [List.flatMap_singleton'] at hfold
  unfold readComment
  rw [hparse, exec_bind, exec_ofExcept]
  cases params? with
  | none => exact hfold s
  | some params => exact hfold _

theorem good_of_readComment (h : exec (readComment r p i) s = (.ok q, t)) :
    i.Parses ∧ ∀ d ∈ i.directives, r.Accepts d := by
  unfold readComment at h
  obtain ⟨⟨ds, params?⟩, u, hparse, h⟩ := bind_eq_ok.1 h
  have hfold : ∃ u, exec (ds.foldlM (readDirective r) p) u = (.ok q, t) := by
    cases params? with
    | none => exact ⟨u, h⟩
    | some params =>
      obtain ⟨_, v, -, h⟩ := bind_eq_ok.1 h
      exact ⟨v, h⟩
  obtain ⟨v, hfold⟩ := hfold
  have hparse := (ofExcept_eq_ok.1 hparse).1
  have hread : i.Parses := ((Directive.parseLines_iff _).1 ⟨params?, hparse⟩).1
  refine ⟨hread, ?_⟩
  have hds : i.directives = ds := by rw [CellInfo.directives, hparse]; rfl
  rw [hds]
  exact good_of_foldlM (fun d p s q t h => accepts_of_readDirective h) hfold

theorem readAreas_iff : (∃ t, exec (readAreas r) s = (.ok p, t)) ↔
    (∀ i ∈ s.template.commented, i.Parses) ∧ (∀ d ∈ s.template.directives, r.Accepts d) ∧
      p = .added r s.template.directives ∧ p.roots ≠ [] := by
  have hdirectives : s.template.directives = s.template.commented.flatMap CellInfo.directives := rfl
  unfold readAreas
  constructor
  · rintro ⟨t, h⟩
    rw [exec_bind, exec_get] at h
    dsimp only at h
    split at h
    · cases h
    · obtain ⟨q, u, hread, h⟩ := bind_eq_ok.1 h
      have hgood := good_of_foldlM (fun i p s q t h => good_of_readComment h) hread
      obtain ⟨v, hv⟩ := exec_foldlM_added (f := readComment r) (g := CellInfo.directives)
        (fun i hi p s => exec_readComment hi p s) hgood { roots := [], entries := [] } s
      rw [hread] at hv
      have hq := Except.ok.inj (Prod.mk.inj hv).1
      split at h
      · cases h
      · next hroots =>
        cases h
        refine ⟨fun i hi => (hgood i hi).1, fun d hd => ?_, hq, fun hnil => hroots ?_⟩
        · obtain ⟨i, hi, hd⟩ := List.mem_flatMap.1 hd
          exact (hgood i hi).2 d hd
        · rw [hnil]
          rfl
  · rintro ⟨hread, haccepts, hp, hroots⟩
    rw [exec_bind, exec_get]
    dsimp only
    split
    · next hnone =>
      rw [hp, hdirectives, List.isEmpty_iff.1 hnone] at hroots
      exact absurd rfl hroots
    · have hgood : ∀ i ∈ s.template.commented, i.Parses ∧ ∀ d ∈ i.directives, r.Accepts d :=
        fun i hi => ⟨hread i hi, fun d hd => haccepts d (List.mem_flatMap.2 ⟨i, hi, hd⟩)⟩
      obtain ⟨v, hv⟩ := exec_foldlM_added (f := readComment r) (g := CellInfo.directives)
        (fun i hi p s => exec_readComment hi p s) hgood { roots := [], entries := [] } s
      refine ⟨v, bind_eq_ok.2 ⟨p, v, ?_, ?_⟩⟩
      · rw [hv, hp]
        rfl
      · rw [if_neg fun hnil => hroots (List.isEmpty_iff.1 hnil)]
        rfl

end FillM

namespace CommandEntry

def rank (e : CommandEntry) : Int ×ₗ String ×ₗ Int ×ₗ Int :=
  toLex (-e.size.cellCount, toLex (e.start.sheet, toLex (e.start.row, e.start.col)))

def seat (e : CommandEntry) : CellRef × Int := (e.start, e.size.cellCount)

variable {a b : CommandEntry} {l l' : List CommandEntry}

theorem before_iff : a.before b = true ↔ a.rank ≤ b.rank := by
  unfold before rank CellRef.before
  simp only [Prod.Lex.toLex_le_toLex, beq_iff_eq]
  by_cases hcount : a.size.cellCount = b.size.cellCount
  · simp only [hcount, if_true, lt_irrefl, false_or, true_and, Bool.not_eq_true']
    by_cases hsheet : a.start.sheet = b.start.sheet
    · by_cases hrow : b.start.row = a.start.row
      · simp [hsheet, hrow]
      · simp only [hsheet, hrow, if_true, if_false, lt_irrefl, false_or, true_and,
          decide_eq_false_iff_not]
        omega
    · rw [if_neg fun h => hsheet h.symm, decide_eq_false_iff_not, not_lt]
      simp only [hsheet, false_and, or_false]
      exact ⟨fun h => lt_of_le_of_ne h hsheet, le_of_lt⟩
  · rw [if_neg hcount, decide_eq_true_eq]
    omega

theorem seat_eq (h : a.rank = b.rank) : a.seat = b.seat := by
  unfold rank at h
  simp only [EmbeddingLike.apply_eq_iff_eq, Prod.mk.injEq] at h
  obtain ⟨hcount, hsheet, hrow, hcol⟩ := h
  unfold seat
  rw [Int.neg_inj.1 hcount]
  cases ha : a.start
  cases hb : b.start
  simp_all

theorem mergeSort_eq (hperm : l'.Perm l) (hseats : (l.map seat).Nodup) :
    l'.mergeSort before = l.mergeSort before := by
  have hsorted : ∀ l : List CommandEntry, (l.mergeSort before).Pairwise fun a b => a.before b = true := by
    refine List.pairwise_mergeSort (fun a b c hab hbc => ?_) fun a b => ?_
    · exact before_iff.2 ((before_iff.1 hab).trans (before_iff.1 hbc))
    · rw [Bool.or_eq_true, before_iff, before_iff]
      exact le_total a.rank b.rank
  refine List.Perm.eq_of_pairwise (fun a b ha hb hab hba => ?_) (hsorted l') (hsorted l) ?_
  · have hseat := seat_eq (le_antisymm (before_iff.1 hab) (before_iff.1 hba))
    refine List.inj_on_of_nodup_map hseats ?_ ?_ hseat
    · exact hperm.mem_iff.1 ((List.mergeSort_perm l' _).mem_iff.1 ha)
    · exact (List.mergeSort_perm l _).mem_iff.1 hb
  · exact (List.mergeSort_perm l' _).trans (hperm.trans (List.mergeSort_perm l _).symm)

end CommandEntry

namespace Plan

variable {p : Plan} {i j k : Nat} {e : CommandEntry} {area : CellRef × Size}

/-- A larger area of another entry around the first cell of an entry. -/
structure Encloses (p : Plan) (i : Nat) (e : CommandEntry) (j k : Nat) (area : CellRef × Size) :
    Prop where
  other : j ≠ i
  owned : ∃ f, p.entries[j]? = some f ∧ f.areas[k]? = some area
  larger : e.size.cellCount < area.2.cellCount
  around : area.2.Holds area.1 e.start

theorem exists_parent? (h : p.Encloses i e j k area) : ∃ x, p.parent? i e = some x := by
  obtain ⟨f, hf, hk⟩ := h.owned
  have hcond : (j != i && e.size.cellCount < area.2.cellCount && contains area e.start) = true := by
    simp only [Bool.and_eq_true, bne_iff_ne, decide_eq_true_eq, contains_iff]
    exact ⟨⟨h.other, h.larger⟩, h.around⟩
  have hpick : ∀ best, ∃ x, better i e best (j, k, area) = some x ∧ True := by
    intro best
    obtain ⟨x, hx, -⟩ := tighter_le best (.inner j k) area
    exact ⟨x, by rw [better, if_pos hcond, hx], trivial⟩
  have hkeep : ∀ y a, True → ∃ x, better i e (some y) a = some x ∧ True := by
    intro y a _
    unfold better
    split
    · obtain ⟨x, hx, -⟩ := tighter_le (some y) (.inner a.1 a.2.1) a.2.2
      exact ⟨x, hx, trivial⟩
    · exact ⟨y, rfl, trivial⟩
  obtain ⟨x, hx, -⟩ := best_keeps hkeep (mem_innerAreas.2 ⟨f, hf, hk⟩) hpick none
  exact ⟨x, by rw [parent?_eq, hx, Option.some_or]⟩

theorem parentOf_tightest (he : p.entries[i]? = some e) (h : p.Encloses i e j k area) :
    ∃ j' k' area', p.parentOf i = some (.inner j' k') ∧ p.Encloses i e j' k' area' ∧
      area'.2.cellCount ≤ area.2.cellCount := by
  obtain ⟨⟨n, found⟩, hparent⟩ := exists_parent? h
  obtain ⟨f, hf, hk⟩ := h.owned
  obtain ⟨hle, j', k', rfl⟩ :=
    parent?_least hparent h.other hf hk h.larger (contains_iff.2 h.around)
  obtain ⟨haround, ⟨_, _, f', hn, hother, hf', hk', hlarger⟩ | ⟨_, hn, -⟩⟩ := parent?_cases hparent
  · cases hn
    refine ⟨j', k', found, ?_, ⟨hother, ⟨f', hf', hk'⟩, hlarger, contains_iff.1 haround⟩, hle⟩
    rw [parentOf, he, Option.bind_some, hparent]
    rfl
  · cases hn

theorem parentOf_outermost (he : p.entries[i]? = some e)
    (h : ∀ j k area, ¬ p.Encloses i e j k area) :
    p.parentOf i = (p.roots.findIdx? fun area => contains area e.start).map .root := by
  have hnone : (innerAreas p.entries).foldl (better i e) none = none := by
    refine Option.eq_none_iff_forall_ne_some.2 fun x hx => ?_
    obtain ⟨j, k, f, -, hother, hf, hk, hlarger, haround⟩ := best_cases hx
    exact h j k x.2 ⟨hother, ⟨f, hf, hk⟩, hlarger, contains_iff.1 haround⟩
  rw [parentOf, he, Option.bind_some, parent?_eq, hnone, Option.none_or,
    List.findIdx?_eq_fst_find?_zipIdx, Option.map_map, Option.map_map]
  rfl

end Plan

namespace FillM

/-- Each command is bound to the tightest larger area of another one around its first cell, or else
to the first root around it; and where no two commands share their first cell and their number of
cells, the same areas are built in whichever order the lines of the comments stand. -/
theorem buildAreas_tightest {r : Registry} {listeners : List Nat} {s t : FillState}
    {roots : List Area} (h : exec (buildAreas r listeners) s = (.ok roots, t)) :
    ∃ p : Plan, exec (planAreas r) s = (.ok p, t) ∧ roots = p.forest listeners ∧
      (p.entries.map some).Perm ((s.template.directives.filter r.knows).map r.entry?) ∧
      List.Forall₂ (fun n a => p.Depicts n a.1) p.nodes (roots.flatMap (Area.walk 0)) ∧
      (∀ n c, c ∈ p.sorted n ↔ p.entries[c.2.1]? = some c.1 ∧
        ∃ area, p.parent? c.2.1 c.1 = some (n, area) ∧ c.2.2 = Plan.sizeIn c.1 area) ∧
      (∀ i e, p.entries[i]? = some e →
        (∀ j k area, p.Encloses i e j k area → ∃ j' k' area', p.parentOf i = some (.inner j' k') ∧
          p.Encloses i e j' k' area' ∧ area'.2.cellCount ≤ area.2.cellCount) ∧
        ((∀ j k area, ¬ p.Encloses i e j k area) →
          p.parentOf i = (p.roots.findIdx? fun area => Plan.contains area e.start).map .root)) ∧
      ((p.entries.map CommandEntry.seat).Nodup → ∀ s' : FillState,
        s.template.Rearranged s'.template →
          ∃ t', exec (buildAreas r listeners) s' = (.ok roots, t')) := by
  obtain ⟨p, hplan, hroots⟩ := buildAreas_eq_ok.1 h
  obtain ⟨hp, hentries, -⟩ := planAreas_ok hplan
  refine ⟨p, hplan, hroots, hentries, ?_, ?_, fun i e he => ?_, fun hseats s' hs' => ?_⟩
  · rw [hroots]
    exact Plan.depicts_forest hp listeners
  · exact fun n c => (List.mergeSort_perm _ _).mem_iff.trans (Plan.mem_children hp)
  · exact ⟨fun j k area => Plan.parentOf_tightest he, Plan.parentOf_outermost he⟩
  · -- the roots are read in the same order, and the entries are sorted in one way only
    obtain ⟨q, u, hread, -⟩ := bind_eq_ok.1 hplan
    rw [exec_planAreas hread rfl] at hplan
    cases hplan
    obtain ⟨hparses, haccepts, rfl, hne⟩ := readAreas_iff.1 ⟨u, hread⟩
    obtain ⟨hparses', hperm, hareas⟩ := directives_of_rearranged hs' hparses
    obtain ⟨hsame, hpermuted⟩ := Plan.added_perm (r := r) hperm hareas
    obtain ⟨u', hread'⟩ := readAreas_iff.2 ⟨hparses', fun d hd => haccepts d (hperm.mem_iff.1 hd),
      rfl, fun hnil => hne (hsame.symm.trans hnil)⟩
    have hsort := CommandEntry.mergeSort_eq hpermuted
      (((List.mergeSort_perm _ _).map _).nodup_iff.1 hseats)
    refine ⟨_, buildAreas_eq_ok.2 ⟨_, exec_planAreas hread' hsort, hroots.trans ?_⟩⟩
    exact congrArg (fun roots => Plan.forest (Plan.completed
      { roots := roots, entries := (Plan.added r s.template.directives).entries.mergeSort _ })
      listeners) hsame.symm

def seated (first second : String) : Workbook where
  sheets :=
    [({ title := "S" } : Sheet).setCell ⟨0, 0⟩
      { value := .int 1
        comment? := some ("jx:area(lastCell=\"D4\")\n" ++ first ++ "\n" ++ second) }]

def seatedEach : String := "jx:each(items=\"items\" var=\"e\" lastCell=\"C3\")"

def seatedIf : String := "jx:if(condition=\"true\" lastCell=\"B2\")"

theorem seated_tightest :
    ∃ roots t t' p,
      exec (buildAreas .builtin []) (.ofWorkbook (seated seatedEach seatedIf)) = (.ok roots, t) ∧
      exec (buildAreas .builtin []) (.ofWorkbook (seated seatedIf seatedEach)) = (.ok roots, t') ∧
      exec (planAreas .builtin) (.ofWorkbook (seated seatedEach seatedIf)) = (.ok p, t) ∧
      p.parentOf 0 = some (.root 0) ∧ p.parentOf 1 = some (.inner 0 0) := by
  have hread : (exec (readAreas .builtin) (.ofWorkbook (seated seatedEach seatedIf))).1.toOption.map
      (fun q => (decide (q.entries.Pairwise fun a b => a.before b = true),
        decide (q.entries.map CommandEntry.seat).Nodup, q.completed.parentOf 0,
        q.completed.parentOf 1)) = some (true, true, some (.root 0), some (.inner 0 0)) := by
    decide +kernel
  have hlines : (FillState.ofWorkbook (seated seatedEach seatedIf)).template.Rearranged
      (FillState.ofWorkbook (seated seatedIf seatedEach)).template := by decide +kernel
  obtain ⟨q, hq, hfacts⟩ := Option.map_eq_some_iff.1 hread
  simp only [Prod.mk.injEq, decide_eq_true_eq] at hfacts
  obtain ⟨hsorted, hseats, hfirst, hsecond⟩ := hfacts
  obtain ⟨u, hplan, hbuild⟩ := exec_buildAreas_of_pairwise [] (eq_ok_of_toOption hq) hsorted
  obtain ⟨p, hp, -, -, -, -, -, hrearranged⟩ := buildAreas_tightest hbuild
  rw [hplan] at hp
  cases hp
  obtain ⟨t', ht'⟩ := hrearranged hseats _ hlines
  exact ⟨_, u, t', _, hbuild, ht', hplan, hfirst, hsecond⟩

end FillM

end SheetTemplate
