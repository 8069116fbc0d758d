import SheetTemplate.Proofs.Formula.Reading
import SheetTemplate.Proofs.Formula.Summing

/-!
What moving a formula replaces. It replaces the references that the formula is read to have, for
every move, exactly if those are the references that are found in it.
-/

namespace SheetTemplate

open Number Text

theorem Text.toList_joinText (texts : List String) :
    (joinText "" texts).toList = texts.flatMap String.toList := by
  rw [joinText, String.toList_intercalate]
  induction texts with
  | nil => rfl
  | cons t ts ih =>
    cases ts with
    | nil => simp [List.intercalate]
    | cons u us =>
      rw [List.flatMap_cons, ← ih]
      simp [List.intercalate]

namespace Formula

def Spelled : List FormulaPiece → Prop
  | [] => True
  | .char _ :: ps => Spelled ps
  | .reference r written :: ps =>
    written ≠ [] ∧ FormulaRef.at? (written ++ ps.flatMap FormulaPiece.text) =
      some (r, ps.flatMap FormulaPiece.text) ∧ Spelled ps

theorem spelled_chars {ps : List FormulaPiece} (w : List Char) (h : Spelled ps) :
    Spelled (w.map .char ++ ps) := by
  induction w with
  | nil => exact h
  | cons c w ih => exact ih

theorem text_chars (w : List Char) : (w.map FormulaPiece.char).flatMap FormulaPiece.text = w := by
  induction w with
  | nil => rfl
  | cons c w ih => exact congrArg (c :: ·) ih

theorem text_pieces (prev : Option Char) (skip : Nat) (literal : List Bool) (cs : List Char) :
    (pieces prev skip literal cs).flatMap FormulaPiece.text = cs.drop skip ∧
      Spelled (pieces prev skip literal cs) := by
  induction cs generalizing prev skip literal with
  | nil => exact ⟨List.drop_nil.symm, trivial⟩
  | cons c cs ih =>
    cases skip with
    | succ skip => exact ih (some c) skip literal.tail
    | zero =>
      by_cases hnone : FormulaRef.mayFollow prev = true → FormulaRef.at? (c :: cs) = none
      · obtain ⟨htext, hspelled⟩ := ih (some c) 0 literal.tail
        rw [pieces_none hnone]
        exact ⟨congrArg (c :: ·) htext, hspelled⟩
      · obtain ⟨hprev, hsome⟩ := Classical.not_imp.1 hnone
        obtain ⟨⟨r, rest⟩, hfound⟩ := Option.ne_none_iff_exists'.1 hsome
        obtain ⟨w, rfl, -⟩ := FormulaRef.at?_cons hfound
        obtain ⟨htext, hspelled⟩ := ih (some c) w.length literal.tail
        rw [List.drop_left] at htext
        rw [pieces_found hprev hfound, List.flatMap_append, htext]
        split
        · exact ⟨by rw [text_chars]; rfl, spelled_chars (c :: w) hspelled⟩
        · refine ⟨by simp [FormulaPiece.text], by simp, ?_, hspelled⟩
          simpa [htext] using hfound

theorem text_readPieces (prev : Option Char) (skip : Nat) (hidden : List Bool) (cs : List Char) :
    (readPieces prev skip hidden cs).flatMap FormulaPiece.text = cs.drop skip ∧
      Spelled (readPieces prev skip hidden cs) := by
  induction cs generalizing prev skip hidden with
  | nil => exact ⟨List.drop_nil.symm, trivial⟩
  | cons c cs ih =>
    cases skip with
    | succ skip => exact ih (some c) skip hidden.tail
    | zero =>
      by_cases hnone : FormulaRef.mayFollow prev = true → hidden.headD false = false →
          FormulaRef.at? (c :: cs) = none
      · obtain ⟨htext, hspelled⟩ := ih (some c) 0 hidden.tail
        rw [readPieces_none hnone]
        exact ⟨congrArg (c :: ·) htext, hspelled⟩
      · obtain ⟨hprev, hnone⟩ := Classical.not_imp.1 hnone
        obtain ⟨hmark, hsome⟩ := Classical.not_imp.1 hnone
        obtain ⟨⟨r, rest⟩, hfound⟩ := Option.ne_none_iff_exists'.1 hsome
        obtain ⟨w, rfl, -⟩ := FormulaRef.at?_cons hfound
        obtain ⟨htext, hspelled⟩ := ih (some c) w.length hidden.tail
        rw [List.drop_left] at htext
        rw [readPieces_found hprev hmark hfound, List.flatMap_cons, htext]
        refine ⟨rfl, by simp, ?_, hspelled⟩
        rw [htext]
        exact hfound

theorem text_split (formula : List Char) :
    (split formula).flatMap FormulaPiece.text = formula := (text_pieces ..).1

theorem spelled_split (formula : List Char) : Spelled (split formula) := (text_pieces ..).2

theorem text_reading (formula : List Char) :
    (reading formula).flatMap FormulaPiece.text = formula := (text_readPieces ..).1

theorem spelled_reading (formula : List Char) : Spelled (reading formula) := (text_readPieces ..).2

theorem pieces_all (prev : Option Char) (literal : List Bool) (cs : List Char) :
    pieces prev cs.length literal cs = [] := by
  induction cs generalizing prev literal with
  | nil => rfl
  | cons c cs ih => exact ih (some c) literal.tail

theorem split_alone {written rest : List Char} {r : FormulaRef} (hne : written ≠ [])
    (h : FormulaRef.at? (written ++ rest) = some (r, rest)) :
    split written = [.reference r written] := by
  obtain ⟨c, w, rfl⟩ := List.exists_cons_of_ne_nil hne
  obtain ⟨u, hu, hunquoted, hagain⟩ := FormulaRef.at?_cons h
  obtain rfl := List.append_cancel_right hu
  have hc : c ≠ '"' := by
    by_cases hc : c = '\''
    · rw [hc]
      decide
    · exact (hunquoted hc c List.mem_cons_self).1
  have hliteral : inLiteral 0 (c :: w) = false :: inLiteral 0 w := by
    rw [inLiteral, if_neg (by simpa using hc)]
  rw [split, hliteral]
  rw [← List.append_nil w] at hagain ⊢
  rw [pieces_found rfl hagain, List.append_nil, List.tail_cons, pieces_all]
  rfl

def marked (mark : Char) : FormulaPiece → List Char
  | .char c => [c]
  | .reference _ _ => [mark]

theorem exists_ne (c : Char) : ∃ d : Char, d ≠ c := by
  by_cases h : c = '0'
  · exact ⟨'1', by rw [h]; decide⟩
  · exact ⟨'0', Ne.symm h⟩

theorem eq_of_marked {ps qs : List FormulaPiece} (hps : Spelled ps) (hqs : Spelled qs)
    (htext : ps.flatMap FormulaPiece.text = qs.flatMap FormulaPiece.text)
    (hmarked : ∀ mark, ps.flatMap (marked mark) = qs.flatMap (marked mark)) : ps = qs := by
  induction ps generalizing qs with
  | nil =>
    cases qs with
    | nil => rfl
    | cons q qs =>
      cases q with
      | char c => cases htext
      | reference r w => exact absurd (hmarked '0') (by simp [marked])
  | cons p ps ih =>
    cases p with
    | char c =>
      cases qs with
      | nil => cases htext
      | cons q qs =>
        cases q with
        | char d =>
          have htext : c :: ps.flatMap FormulaPiece.text = d :: qs.flatMap FormulaPiece.text := htext
          obtain ⟨rfl, hrest⟩ := List.cons.inj htext
          exact congrArg (FormulaPiece.char c :: ·)
            (ih hps hqs hrest fun mark => (List.cons.inj (hmarked mark)).2)
        | reference r w =>
          -- Another mark than the character tells the reference from it.
          obtain ⟨d, hd⟩ := exists_ne c
          exact absurd (List.cons.inj (hmarked d)).1 (Ne.symm hd)
    | reference r w =>
      cases qs with
      | nil => exact absurd (hmarked '0') (by simp [marked])
      | cons q qs =>
        cases q with
        | char d =>
          obtain ⟨e, he⟩ := exists_ne d
          exact absurd (List.cons.inj (hmarked e)).1 he
        | reference r' w' =>
          replace htext : w ++ ps.flatMap FormulaPiece.text = w' ++ qs.flatMap FormulaPiece.text :=
            htext
          obtain ⟨-, hr, hps⟩ := hps
          obtain ⟨-, hr', hqs⟩ := hqs
          -- Both references are read from one text, and so are the same.
          rw [htext, hr'] at hr
          obtain ⟨rfl, hrest⟩ := Prod.mk.inj (Option.some.inj hr)
          rw [hrest] at htext
          obtain rfl := List.append_cancel_right htext
          exact congrArg (FormulaPiece.reference r' w :: ·)
            (ih hps hqs hrest.symm fun mark => (List.cons.inj (hmarked mark)).2)

namespace Move

variable {m : Move}

theorem relocate_alone {written rest : List Char} {r : FormulaRef} (hne : written ≠ [])
    (h : FormulaRef.at? (written ++ rest) = some (r, rest)) :
    m.relocate (String.ofList written) = m.relocateRef r (String.ofList written) := by
  rw [relocate, String.toList_ofList, split_alone hne h]
  simp only [List.mapM_cons, List.mapM_nil, relocatePiece]
  cases m.relocateRef r (String.ofList written) with
  | error e => rfl
  | ok text =>
    simp only [bind, Except.bind, pure, Except.pure, Except.ok.injEq]
    rw [← String.toList_inj, toList_joinText, List.flatMap_singleton]

theorem mapM_readPiece {ps : List FormulaPiece} (hps : Spelled ps) :
    ps.mapM m.readPiece = ps.mapM m.relocatePiece := by
  induction ps with
  | nil => rfl
  | cons p ps ih =>
    cases p with
    | char c =>
      rw [List.mapM_cons, List.mapM_cons, ih hps]
      rfl
    | reference r written =>
      obtain ⟨hne, hr, hps⟩ := hps
      rw [List.mapM_cons, List.mapM_cons, ih hps, readPiece, relocate_alone hne hr]
      rfl

theorem relocateRead_eq (m : Move) (formula : String) :
    m.relocateRead formula = do
      return joinText "" (← (reading formula.toList).mapM m.relocatePiece) := by
  rw [relocateRead, mapM_readPiece (spelled_reading _)]

def namedCells (home : String) : List FormulaPiece → List CellRef
  | [] => []
  | .char _ :: ps => namedCells home ps
  | .reference r _ :: ps =>
    (r.first :: r.last?.toList).map (CellRef.ofPos ((r.sheet?.map String.ofList).getD home)) ++
      namedCells home ps

def gathered (copy : CellRef) : List CellRef → History
  | [] => ∅
  | r :: rest => (gathered copy rest).insert r { targets := [copy] }

theorem targets_gathered (copy : CellRef) {refs : List CellRef} {r : CellRef} (h : r ∈ refs) :
    (gathered copy refs).targets r = [copy] := by
  induction refs with
  | nil => cases h
  | cons s refs ih =>
    rw [History.targets, History.of, gathered, Std.TreeMap.getElem?_insert]
    split
    · rfl
    · next hne =>
      rcases List.mem_cons.1 h with rfl | h
      · exact absurd Std.ReflCmp.compare_self hne
      · exact ih h

def marking (mark : Char) (refs : List CellRef) : Move :=
  moveFor ⟨⟨"", 0, 0⟩, ⟨1, 1⟩, [], [], true⟩ (gathered ⟨"", 0, 1⟩ refs)
    { ref := ⟨"", 0, 0⟩, strategy := .byColumn, default? := some (String.singleton mark) } ⟨"", 0, 0⟩

theorem allowed_marking {mark : Char} {refs copies : List CellRef}
    (h : ∀ x ∈ copies, x = ⟨"", 0, 1⟩) : (marking mark refs).allowed copies = [] := by
  refine List.eq_nil_iff_forall_not_mem.2 fun x hx => ?_
  have hcol : x.col = 0 := by
    simp only [allowed, marking, moveFor, List.mem_filter, beq_iff_eq] at hx
    exact hx.2
  rw [h x (mem_of_mem_allowed hx)] at hcol
  cases hcol

theorem relocateRef_marking (mark : Char) {refs : List CellRef} {r : FormulaRef}
    (h : ∀ s ∈ (r.first :: r.last?.toList).map
      (CellRef.ofPos ((r.sheet?.map String.ofList).getD "")), s ∈ refs) (written : String) :
    (marking mark refs).relocateRef r written = .ok (String.singleton mark) := by
  have htargets : ∀ s ∈ (r.first :: r.last?.toList).map
      (CellRef.ofPos ((r.sheet?.map String.ofList).getD "")),
      (marking mark refs).targets s = [⟨"", 0, 1⟩] := fun s hs => targets_gathered _ (h s hs)
  have habsent : (marking mark refs).absent = String.singleton mark := by
    simp [marking, moveFor, Option.filter_some, String.isEmpty_eq_false_iff]
  simp only [relocateRef]
  split
  · next hempty =>
    rw [List.isEmpty_iff, List.flatMap_eq_nil_iff] at hempty
    cases (htargets _ List.mem_cons_self).symm.trans (hempty _ List.mem_cons_self)
  · rw [allowed_marking, habsent]
    · rfl
    · intro x hx
      rw [distinct_eq_eraseDups, List.mem_eraseDups] at hx
      obtain ⟨s, hs, hx⟩ := List.mem_flatMap.1 hx
      exact List.mem_singleton.1 ((htargets s hs) ▸ hx)

theorem relocatePiece_marking (mark : Char) {refs : List CellRef} {ps : List FormulaPiece}
    (h : ∀ x ∈ namedCells "" ps, x ∈ refs) :
    ∀ p ∈ ps, (marking mark refs).relocatePiece p = .ok (String.ofList (marked mark p)) := by
  induction ps with
  | nil => exact fun p hp => nomatch hp
  | cons q ps ih =>
    intro p hp
    cases q with
    | char c =>
      rcases List.mem_cons.1 hp with rfl | hp
      · rfl
      · exact ih h p hp
    | reference r written =>
      rcases List.mem_cons.1 hp with rfl | hp
      · exact relocateRef_marking mark (fun x hx => h x (List.mem_append_left _ hx)) _
      · exact ih (fun x hx => h x (List.mem_append_right _ hx)) p hp

theorem mapM_marking (mark : Char) {refs : List CellRef} {ps : List FormulaPiece}
    (h : ∀ x ∈ namedCells "" ps, x ∈ refs) :
    (do return joinText "" (← ps.mapM (marking mark refs).relocatePiece) :
      Except Failure String) = .ok (String.ofList (ps.flatMap (marked mark))) := by
  rw [Outcomes.mapM_eq_map (relocatePiece_marking mark h)]
  simp only [bind, Except.bind, pure, Except.pure, Except.ok.injEq]
  rw [← String.toList_inj, toList_joinText, List.flatMap_map, String.toList_ofList]
  simp only [String.toList_ofList]

end Move

/-- Whether a formula is moved as it is read, for every area and every history: each reference
outside of text literals as if it stood alone, and all other text stays. -/
def MovedAsRead (formula : String) : Prop :=
  ∀ area history info target,
    (moveFor area history info target).relocate formula =
      (moveFor area history info target).relocateRead formula

/-- A formula is moved as it is read exactly if the references found in it are those it is read to
have. They are where no literal has an apostrophe in it, no title a double quote, and no reference
begins inside of a title. -/
theorem movedAsRead_iff (formula : String) :
    (MovedAsRead formula ↔ split formula.toList = reading formula.toList) ∧
      ∀ ls, Lexed ls → Clear none ls → formula.toList = lexText ls → MovedAsRead formula := by
  have hsame : split formula.toList = reading formula.toList → MovedAsRead formula := by
    intro hsplit area history info target
    rw [Move.relocateRead_eq, Move.relocate, hsplit]
  refine ⟨⟨fun hmoved => ?_, hsame⟩, fun ls hlexed hclear htext => hsame ?_⟩
  · refine eq_of_marked (spelled_split _) (spelled_reading _) ?_ fun mark => ?_
    · rw [text_split, text_reading]
    · let refs := Move.namedCells "" (split formula.toList) ++
        Move.namedCells "" (reading formula.toList)
      have hmove : (Move.marking mark refs).relocate formula =
        (Move.marking mark refs).relocateRead formula := hmoved ..
      rw [Move.relocateRead_eq, Move.relocate,
        Move.mapM_marking mark fun x hx => List.mem_append_left _ hx,
        Move.mapM_marking mark fun x hx => List.mem_append_right _ hx] at hmove
      exact String.ofList_injective (Except.ok.inj hmove)
  · rw [htext]
    exact split_eq_reading hlexed hclear

def indirect : String := "INDIRECT(\"'\"&B2&\"'!A1\")"

theorem indirect_not_moved :
    ¬ MovedAsRead indirect ∧ ∃ area history info target,
      history.targets ⟨"S", 1, 1⟩ = [⟨"S", 4, 1⟩] ∧
      ((moveFor area history info target).relocate indirect).toOption = some indirect ∧
      ((moveFor area history info target).relocateRead indirect).toOption =
        some "INDIRECT(\"'\"&B5&\"'!A1\")" := by
  refine ⟨fun hmoved => ?_, ⟨⟨"S", 0, 0⟩, ⟨2, 2⟩, [], [], true⟩,
    Move.gathered ⟨"S", 4, 1⟩ [⟨"S", 1, 1⟩], { ref := ⟨"S", 0, 0⟩ }, ⟨"S", 0, 0⟩, ?_⟩
  · have hsplit := (movedAsRead_iff indirect).1.1 hmoved
    revert hsplit
    decide +kernel
  · decide +kernel

end Formula

end SheetTemplate
