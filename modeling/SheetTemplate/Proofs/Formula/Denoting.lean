import Mathlib.Data.List.Perm.Subperm
import SheetTemplate.Proofs.Area.Rows
import SheetTemplate.Proofs.Formula.Replacing

/-!
The text for cells read back. It denotes these cells, each once: it is a range when they stand in an
unbroken row or column, and else a list in their order.
-/

namespace SheetTemplate

open Number Text

namespace SheetTitle

theorem ascii_of_isAsciiLetter {c : Char} (h : isAsciiLetter c = true) :
    c.isAlphanum = true ∧ c.toNat < 128 := by
  have hrange : 97 ≤ c.toNat ∧ c.toNat ≤ 122 ∨ 65 ≤ c.toNat ∧ c.toNat ≤ 90 := by
    simp only [isAsciiLetter, Bool.or_eq_true, Bool.and_eq_true, decide_eq_true_eq] at h
    exact h
  have hupper : c.isUpper = true ↔ 65 ≤ c.toNat ∧ c.toNat ≤ 90 := decide_eq_true_iff
  have hlower : c.isLower = true ↔ 97 ≤ c.toNat ∧ c.toNat ≤ 122 :=
    Bool.and_eq_true_iff.trans (and_congr decide_eq_true_iff decide_eq_true_iff)
  have halpha : c.isAlpha = true ↔ c.isUpper = true ∨ c.isLower = true := Bool.or_eq_true_iff
  refine ⟨?_, by omega⟩
  rw [Char.isAlphanum, Bool.or_eq_true, halpha, hupper, hlower]
  omega

theorem isWord_of_isPlainRest {c : Char} (h : isPlainRest c = true) :
    (isWord c || c == '.') = true := by
  simp only [isPlainRest, isPlainStart, Bool.or_eq_true, beq_iff_eq] at h
  rcases h with ((h | rfl) | h) | rfl
  · obtain ⟨hletter, hsmall⟩ := ascii_of_isAsciiLetter h
    rw [isWord, if_pos hsmall, hletter, Bool.true_or, Bool.true_or]
  · decide
  · have hsmall : c.toNat < 128 := by
      simp only [Char.isDigit, Bool.and_eq_true, decide_eq_true_eq] at h
      have : c.toNat ≤ 57 := h.2
      omega
    rw [isWord, if_pos hsmall, Char.isAlphanum, h, Bool.or_true, Bool.true_or, Bool.true_or]
  · decide

theorem doubleQuotes_eq (cs : List Char) : doubleQuotes cs = Formula.doubled '\'' cs := by
  simp only [doubleQuotes, Formula.doubled, beq_iff_eq]

end SheetTitle

theorem Size.length_cellsFrom (size : Size) (start : CellRef) :
    (size.cellsFrom start).length = size.height.toNat * size.width.toNat := by
  simp [cellsFrom, List.length_flatMap]

namespace FormulaRef

theorem sheetAt?_inReference {title : List Char} (hne : title ≠ []) (after : List Char) :
    sheetAt? (SheetTitle.inReference title ++ '!' :: after) = some (title, after) := by
  unfold SheetTitle.inReference
  split
  · next hplain =>
    cases title with
    | nil => exact absurd rfl hne
    | cons c cs =>
      simp only [SheetTitle.isPlain, Bool.and_eq_true] at hplain
      obtain ⟨⟨hstart, hrest⟩, -⟩ := hplain
      have hquote : c ≠ '\'' := by
        rintro rfl
        exact absurd hstart (by decide)
      have hspan : (c :: cs ++ '!' :: after).span (fun c => isWord c || c == '.') =
          (c :: cs, '!' :: after) := by
        apply span_append
        · intro d hd
          apply SheetTitle.isWord_of_isPlainRest
          rcases List.mem_cons.1 hd with rfl | hd
          · rw [SheetTitle.isPlainRest, hstart, Bool.true_or, Bool.true_or]
          · exact List.all_eq_true.1 hrest d hd
        · intro d hd
          cases hd
          decide
      rw [List.cons_append, sheetAt?_plain _ hquote hstart, ← List.cons_append, hspan]
      rfl
  · have htitle := @Formula.quotedTitle?_doubled title ('!' :: after) fun c hc => by
      cases hc
      decide
    rw [SheetTitle.doubleQuotes_eq, List.cons_append, List.cons_append, List.append_assoc,
      sheetAt?_quoted, List.singleton_append, htitle]
    rw [Option.filter_some, if_pos (by simpa using hne)]
    rfl

def cells (home : String) (r : FormulaRef) : List CellRef :=
  let last := r.last?.getD r.first
  Size.cellsFrom
    ⟨max r.first.col last.col - min r.first.col last.col + 1,
      max r.first.row last.row - min r.first.row last.row + 1⟩
    ⟨(r.sheet?.map String.ofList).getD home, min r.first.row last.row, min r.first.col last.col⟩

theorem cells_single (home : String) (sheet? : Option (List Char)) (p : Pos) :
    cells home ⟨sheet?, p, none⟩ = [.ofPos ((sheet?.map String.ofList).getD home) p] := by
  simp [cells, Size.cellsFrom, CellRef.offset, CellRef.ofPos]

theorem cells_range (home : String) (sheet? : Option (List Char)) {p q : Pos}
    (hrow : p.row ≤ q.row) (hcol : p.col ≤ q.col) :
    cells home ⟨sheet?, p, some q⟩ =
      Size.cellsFrom ⟨q.col - p.col + 1, q.row - p.row + 1⟩
        (.ofPos ((sheet?.map String.ofList).getD home) p) := by
  simp only [cells, Option.getD_some, Int.max_eq_right hrow, Int.max_eq_right hcol,
    Int.min_eq_left hrow, Int.min_eq_left hcol, CellRef.ofPos]

theorem at?_eq_none {c : Char} (cs : List Char) (h : c = ',' ∨ c = '+') : at? (c :: cs) = none := by
  have hsheet : sheetAt? (c :: cs) = none := by
    rcases h with rfl | rfl <;> rfl
  have hcell : cellAt? (c :: cs) = none := by
    rcases h with rfl | rfl <;> simp [cellAt?, dropDollar, List.span, List.span.loop,
      SheetTitle.isAsciiLetter, Column.ofLetters?]
  simp only [at?, rangeAt?, hsheet, hcell, Option.bind_eq_bind, Option.bind_none]

end FormulaRef

namespace FormulaPiece

def cells (home : String) : FormulaPiece → List CellRef
  | char _ => []
  | reference r _ => r.cells home

end FormulaPiece

namespace Formula

theorem pieces_unmarked {prev : Option Char} {skip : Nat} {cs : List Char} (marks : List Bool)
    (h : ∀ b ∈ marks, b = false) : pieces prev skip marks cs = pieces prev skip [] cs := by
  induction cs generalizing prev skip marks with
  | nil => rfl
  | cons c cs ih =>
    have htail : ∀ b ∈ marks.tail, b = false := fun b hb => h b (List.mem_of_mem_tail hb)
    cases skip with
    | succ skip => exact ih marks.tail htail
    | zero =>
      by_cases hnone : FormulaRef.mayFollow prev = true → FormulaRef.at? (c :: cs) = none
      · rw [pieces_none hnone, pieces_none hnone, ih marks.tail htail]
        rfl
      · obtain ⟨hprev, hsome⟩ := Classical.not_imp.1 hnone
        obtain ⟨⟨r, rest⟩, hfound⟩ := Option.ne_none_iff_exists'.1 hsome
        obtain ⟨w, rfl, -⟩ := FormulaRef.at?_cons hfound
        have hhead : marks.headD false = false := by
          cases marks with
          | nil => rfl
          | cons b marks => exact h b List.mem_cons_self
        rw [pieces_found hprev hfound, pieces_found hprev hfound, hhead, ih marks.tail htail]
        rfl

theorem split_of_unquoted {cs : List Char} (h : '"' ∉ cs) : split cs = pieces none 0 [] cs := by
  have hmarks := inLiteral_plain h []
  rw [List.append_nil] at hmarks
  rw [split, hmarks]
  refine pieces_unmarked _ fun b hb => ?_
  rw [inLiteral, List.append_nil] at hb
  exact List.eq_of_mem_replicate hb

theorem pieces_skip_all (prev : Option Char) (w rest : List Char) :
    ∃ q, pieces prev w.length [] (w ++ rest) = pieces q 0 [] rest := by
  induction w generalizing prev with
  | nil => exact ⟨prev, rfl⟩
  | cons c w ih => exact ih (some c)

theorem pieces_reference (prev : Option Char) {w : List Char} (rest : List Char) {r : FormulaRef}
    (hw : w ≠ [])
    (hprev : FormulaRef.mayFollow prev = true) (h : FormulaRef.at? (w ++ rest) = some (r, rest)) :
    ∃ q, pieces prev 0 [] (w ++ rest) = .reference r w :: pieces q 0 [] rest := by
  cases w with
  | nil => exact absurd rfl hw
  | cons c w =>
    obtain ⟨q, hq⟩ := pieces_skip_all (some c) w rest
    refine ⟨q, ?_⟩
    rw [List.cons_append, pieces_found hprev h]
    exact congrArg (FormulaPiece.reference r (c :: w) :: ·) hq

def Spells (w : List Char) (r : FormulaRef) : Prop :=
  w ≠ [] ∧ ∀ rest, FormulaRef.Ends rest → FormulaRef.at? (w ++ rest) = some (r, rest)

theorem pieces_single {w : List Char} {r : FormulaRef} (h : Spells w r) :
    pieces none 0 [] w = [.reference r w] := by
  obtain ⟨q, hq⟩ := pieces_reference none [] h.1 rfl (h.2 [] nofun)
  rw [List.append_nil] at hq
  exact hq

theorem pieces_listing {sep : Char} (hsep : sep = ',' ∨ sep = '+') {texts : List (List Char)}
    {read : List FormulaRef} (prev : Option Char) (hprev : FormulaRef.mayFollow prev = true)
    (h : List.Forall₂ Spells texts read) :
    pieces prev 0 [] ([sep].intercalate texts) =
      (List.zipWith FormulaPiece.reference read texts).intersperse (.char sep) := by
  have hends : ∀ rest, FormulaRef.Ends (sep :: rest) := by
    rcases hsep with rfl | rfl <;> rintro rest c hc <;> cases hc <;> decide
  have hfollow : FormulaRef.mayFollow (some sep) = true := by
    rcases hsep with rfl | rfl <;> decide
  induction h generalizing prev with
  | nil => rfl
  | @cons w r texts read hw htexts ih =>
    cases htexts with
    | nil =>
      obtain ⟨q, hq⟩ := pieces_reference prev [] hw.1 hprev (hw.2 [] nofun)
      rw [List.append_nil] at hq
      rw [List.intercalate, List.intersperse_singleton, List.flatten_singleton, hq]
      rfl
    | @cons w' r' texts read hw' htexts =>
      obtain ⟨q, hq⟩ := pieces_reference prev _ hw.1 hprev
        (hw.2 _ (hends ([sep].intercalate (w' :: texts))))
      rw [List.intercalate_cons_cons, List.append_assoc, List.singleton_append, hq,
        pieces_none fun _ => FormulaRef.at?_eq_none _ hsep]
      simp only [List.zipWith_cons_cons, List.intersperse_cons_cons] at ih ⊢
      rw [← ih _ hfollow]
      rfl

namespace Move

variable (m : Move) (qualified : Bool)

def title? (sheet : String) : Option (List Char) :=
  if qualified || sheet != m.target.sheet then some sheet.toList else none

theorem sheet_title? (sheet : String) :
    ((m.title? qualified sheet).map String.ofList).getD m.target.sheet = sheet := by
  unfold title?
  split
  · exact String.ofList_toList
  · next h =>
    simp only [Bool.or_eq_true, bne_iff_ne, not_or, Decidable.not_not] at h
    exact h.2.symm

variable {m qualified}

theorem at?_front {r : CellRef} (hsheet : r.sheet ≠ "") {after rest : List Char}
    (found : Option (List Char) → FormulaRef)
    (hrange : ∀ sheet?, FormulaRef.rangeAt? sheet? after = some (found sheet?, rest))
    (hplain : FormulaRef.at? after = some (found none, rest)) :
    FormulaRef.at? ((m.front qualified r).toList ++ after) =
      some (found (m.title? qualified r.sheet), rest) := by
  unfold front title?
  split
  · have htitle : r.sheet.toList ≠ [] := by simpa using hsheet
    rw [String.toList_append, SheetTitle.quoteIfNeeded, String.toList_ofList, List.append_assoc]
    have := FormulaRef.sheetAt?_inReference htitle after
    simp only [FormulaRef.at?]
    rw [show "!".toList ++ after = '!' :: after from rfl, this]
    simp only [Option.bind_eq_bind, Option.bind_some, hrange]
  · exact hplain

theorem spells_single {r : CellRef} (hsheet : r.sheet ≠ "") (hr : r.pos.Named) :
    Spells ((m.front qualified r).toList ++ r.pos.written)
      ⟨m.title? qualified r.sheet, r.pos, none⟩ := by
  refine ⟨fun h => ?_, fun rest hrest => ?_⟩
  · obtain ⟨-, h⟩ := List.append_eq_nil_iff.1 h
    exact Column.letters_ne_nil _ (List.append_eq_nil_iff.1 h).1
  · rw [List.append_assoc]
    exact at?_front hsheet (fun sheet? => ⟨sheet?, r.pos, none⟩)
      (fun _ => FormulaRef.rangeAt?_written hr hrest) (FormulaRef.at?_written hr hrest)

theorem spells_range (m : Move) (qualified : Bool) {r : CellRef} (hsheet : r.sheet ≠ "")
    {p q : Pos} (hp : p.Named) (hq : q.Named) :
    Spells ((m.front qualified r).toList ++ (p.written ++ ':' :: q.written))
      ⟨m.title? qualified r.sheet, p, some q⟩ := by
  refine ⟨by simp, fun rest hrest => ?_⟩
  rw [List.append_assoc, List.append_assoc, List.cons_append]
  exact at?_front hsheet (fun sheet? => ⟨sheet?, p, some q⟩)
    (fun _ => FormulaRef.rangeAt?_range hp hq hrest) (FormulaRef.at?_range hp hq hrest)

def Unbroken (refs : List CellRef) : Prop :=
  ∃ (x : CellRef) (n : Nat), 2 ≤ n ∧
    (refs.Perm (Size.cellsFrom ⟨1, n⟩ x) ∨ refs.Perm (Size.cellsFrom ⟨n, 1⟩ x))

section

variable {rest refs : List CellRef} {r first last : CellRef}

theorem conditions_of_run? (h : run? (r :: rest) = some (first, last)) :
    (∀ x ∈ r :: rest, x.sheet = r.sheet) ∧
      (first.col = last.col ∧ last.row - first.row + 1 = (r :: rest).length ∨
        first.row = last.row ∧ last.col - first.col + 1 = (r :: rest).length) := by
  have hbounds := bounds_of_run? h
  simp only [run?, hbounds] at h
  split at h
  · cases h
  · next hsheet =>
    refine ⟨?_, ?_⟩
    · simpa using hsheet
    · split at h
      · next hcol => exact .inl (by simpa using hcol)
      · split at h
        · next hrow => exact .inr (by simpa using hrow)
        · cases h

theorem perm_of_run? (hnodup : (r :: rest).Nodup) (h : run? (r :: rest) = some (first, last)) :
    (Size.cellsFrom ⟨last.col - first.col + 1, last.row - first.row + 1⟩ first).Perm
      (r :: rest) := by
  obtain ⟨hsheet, hline⟩ := conditions_of_run? h
  have hbounds := bounds_of_run? h
  obtain ⟨-, -, -, -, hall⟩ := bounds_spec r rest
  have hfirst : first.sheet = r.sheet := congrArg (·.1.sheet) hbounds.symm
  rw [hbounds] at hall
  have hsub : r :: rest ⊆
      Size.cellsFrom ⟨last.col - first.col + 1, last.row - first.row + 1⟩ first := by
    intro x hx
    obtain ⟨htop, hleft, hbottom, hright⟩ := hall x hx
    refine Size.mem_cellsFrom.2 ⟨(hsheet x hx).trans hfirst.symm, htop, ?_, hleft, ?_⟩ <;>
      dsimp only at * <;> omega
  refine ((List.subperm_of_subset hnodup hsub).perm_of_length_le ?_).symm
  rw [Size.length_cellsFrom]
  rcases hline with ⟨hcol, hlength⟩ | ⟨hrow, hlength⟩
  · rw [hlength, hcol]
    simp
  · rw [hlength, hrow]
    simp

theorem unbroken_of_run? (hnodup : refs.Nodup) (hlength : 2 ≤ refs.length)
    (h : run? refs = some (first, last)) : Unbroken refs := by
  cases refs with
  | nil => cases hlength
  | cons r rest =>
    have hperm := (perm_of_run? hnodup h).symm
    obtain ⟨-, ⟨hcol, hcount⟩ | ⟨hrow, hcount⟩⟩ := conditions_of_run? h
    · rw [hcol, hcount, Int.sub_self] at hperm
      exact ⟨first, _, hlength, .inl hperm⟩
    · rw [hrow, hcount, Int.sub_self] at hperm
      exact ⟨first, _, hlength, .inr hperm⟩

theorem bounds_of_perm {size : Size} {x : CellRef} (hw : 1 ≤ size.width) (hh : 1 ≤ size.height)
    (h : (r :: rest).Perm (size.cellsFrom x)) :
    bounds r rest = (x, x.offset (size.height - 1) (size.width - 1)) := by
  obtain ⟨⟨a, ha, harow⟩, ⟨b, hb, hbcol⟩, ⟨c, hc, hcrow⟩, ⟨d, hd, hdcol⟩, hall⟩ :=
    bounds_spec r rest
  have hmem : ∀ y, y ∈ r :: rest ↔ size.Holds x y := fun y => h.mem_iff.trans Size.mem_cellsFrom
  have hx := hall x ((hmem x).2 ⟨rfl, by omega, by omega, by omega, by omega⟩)
  have hend := hall (x.offset (size.height - 1) (size.width - 1))
    ((hmem _).2 (by constructor <;> simp only [CellRef.offset] <;> omega))
  have ha := ((hmem a).1 ha).top
  have hb := ((hmem b).1 hb).left
  have hc := ((hmem c).1 hc).bottom
  have hd := ((hmem d).1 hd).right
  have hsheet : r.sheet = x.sheet := ((hmem r).1 List.mem_cons_self).sheet
  have hsheets : (bounds r rest).1.sheet = r.sheet ∧ (bounds r rest).2.sheet = r.sheet := ⟨rfl, rfl⟩
  simp only [CellRef.offset] at hend
  refine Prod.ext (CellRef.eq_iff.2 ⟨hsheets.1.trans hsheet, ?_⟩)
    (CellRef.eq_iff.2 ⟨hsheets.2.trans hsheet, ?_⟩)
  · simp only [CellRef.pos, Pos.mk.injEq]
    omega
  · simp only [CellRef.pos, CellRef.offset, Pos.mk.injEq]
    omega

theorem run?_of_perm {size : Size} {x : CellRef} (hw : 1 ≤ size.width) (hh : 1 ≤ size.height)
    (hline : size.width = 1 ∨ size.height = 1) (h : (r :: rest).Perm (size.cellsFrom x)) :
    (run? (r :: rest)).isSome = true := by
  have hmem : ∀ y ∈ r :: rest, size.Holds x y := fun y hy => Size.mem_cellsFrom.1 (h.subset hy)
  have hsheet : (rest.any fun y => y.sheet != r.sheet) = false := by
    rw [List.any_eq_false]
    intro y hy
    simp [(hmem y (List.mem_cons_of_mem r hy)).sheet, (hmem r List.mem_cons_self).sheet]
  have hlength := h.length_eq
  rw [Size.length_cellsFrom] at hlength
  simp only [run?, bounds_of_perm hw hh h, hsheet, Bool.false_eq_true, if_false, CellRef.offset,
    Bool.and_eq_true, decide_eq_true_eq]
  rcases hline with hone | hone
  · have hheight : ((r :: rest).length : Int) = size.height := by
      rw [hlength, hone, show (1 : Int).toNat = 1 from rfl, Nat.mul_one,
        Int.toNat_of_nonneg (by omega)]
    rw [if_pos (by rw [hone, hheight]; omega)]
    rfl
  · have hwidth : ((r :: rest).length : Int) = size.width := by
      rw [hlength, hone, show (1 : Int).toNat = 1 from rfl, Nat.one_mul,
        Int.toNat_of_nonneg (by omega)]
    split
    · rfl
    · rw [if_pos (by rw [hone, hwidth]; omega)]
      rfl

theorem run?_isSome_iff (hnodup : refs.Nodup) (hlength : 2 ≤ refs.length) :
    (run? refs).isSome = true ↔ Unbroken refs := by
  constructor
  · intro h
    obtain ⟨⟨first, last⟩, hrun⟩ := Option.isSome_iff_exists.1 h
    exact unbroken_of_run? hnodup hlength hrun
  · rintro ⟨x, n, hn, hperm⟩
    obtain ⟨r, rest, rfl⟩ := List.exists_cons_of_ne_nil (l := refs) (by rintro rfl; cases hlength)
    rcases hperm with hperm | hperm
    · exact run?_of_perm (Int.le_refl 1) (by simp; omega) (.inl rfl) hperm
    · exact run?_of_perm (by simp; omega) (Int.le_refl 1) (.inr rfl) hperm

theorem not_unbroken_singleton : ¬ Unbroken [r] := by
  rintro ⟨x, n, hn, hperm | hperm⟩ <;>
  · have := hperm.length_eq
    simp [Size.length_cellsFrom] at this
    omega

end

def IsRange (ps : List FormulaPiece) : Prop :=
  ∃ r written, ps = [.reference r written] ∧ r.last?.isSome = true

def Lists (home : String) (sep : Char) (ps : List FormulaPiece) (refs : List CellRef) : Prop :=
  ∃ items, List.Forall₂ (fun item x => ∃ r written, item = .reference r written ∧
      r.last? = none ∧ r.cells home = [x]) items refs ∧ ps = items.intersperse (.char sep)

def cellText (m : Move) (qualified : Bool) (r : CellRef) : List Char :=
  (m.front qualified r).toList ++ r.pos.written

def cellRef (m : Move) (qualified : Bool) (r : CellRef) : FormulaRef :=
  ⟨m.title? qualified r.sheet, r.pos, none⟩

theorem cells_cellRef (r : CellRef) : (m.cellRef qualified r).cells m.target.sheet = [r] := by
  rw [cellRef, FormulaRef.cells_single, sheet_title?]
  rfl

theorem front_name_eq (m : Move) (qualified : Bool) {r : CellRef} (hr : r.pos.Named) :
    (do return m.front qualified r ++ (← r.name) : Except Failure String) =
      .ok (String.ofList (m.cellText qualified r)) := by
  rw [CellRef.name_shown hr, cellText, String.ofList_append, String.ofList_toList]
  rfl

theorem lists_cells (home : String) (sep : Char) {ps : List FormulaPiece} {refs : List CellRef}
    (h : Lists home sep ps refs) : ps.flatMap (FormulaPiece.cells home) = refs := by
  obtain ⟨items, hitems, rfl⟩ := h
  induction hitems with
  | nil => rfl
  | @cons item x items refs hitem hitems ih =>
    obtain ⟨r, written, rfl, -, hcells⟩ := hitem
    cases hitems with
    | nil => simpa [FormulaPiece.cells] using hcells
    | cons =>
      rw [List.intersperse_cons_cons, List.flatMap_cons, List.flatMap_cons, ih]
      simp [FormulaPiece.cells, hcells]

theorem not_isRange_of_lists {home : String} {sep : Char} {ps : List FormulaPiece}
    {refs : List CellRef} (h : Lists home sep ps refs) : ¬ IsRange ps := by
  rintro ⟨r, written, rfl, hlast⟩
  obtain ⟨items, hitems, hps⟩ := h
  cases hitems with
  | nil => cases hps
  | @cons item x items refs hitem hitems =>
    obtain ⟨r', written', rfl, hnone, -⟩ := hitem
    cases hitems with
    | nil =>
      cases hps
      rw [hnone] at hlast
      cases hlast
    | cons => cases hps

theorem lists_zipWith (m : Move) (qualified : Bool) (sep : Char) (refs : List CellRef) :
    Lists m.target.sheet sep
      ((List.zipWith FormulaPiece.reference (refs.map (m.cellRef qualified))
        (refs.map (m.cellText qualified))).intersperse (.char sep)) refs := by
  refine ⟨_, ?_, rfl⟩
  induction refs with
  | nil => exact .nil
  | cons r refs ih => exact .cons ⟨_, _, rfl, rfl, cells_cellRef r⟩ ih

section

variable {refs : List CellRef} {r first last : CellRef}

theorem render_run (hn : ∀ x ∈ refs, x.pos.Named) (hlength : 2 ≤ refs.length)
    (h : run? refs = some (first, last)) :
    first.pos.Named ∧ last.pos.Named ∧ m.render qualified refs =
      .ok (String.ofList ((m.front qualified first).toList ++
        (first.pos.written ++ ':' :: last.pos.written))) := by
  obtain ⟨r, r', rest, rfl⟩ : ∃ r r' rest, refs = r :: r' :: rest := by
    match refs, hlength with
    | r :: r' :: rest, _ => exact ⟨r, r', rest, rfl⟩
  obtain ⟨hfirst, hlast⟩ := bounds_named hn
  rw [bounds_of_run? h] at hfirst hlast
  refine ⟨hfirst, hlast, ?_⟩
  simp only [render, h, CellRef.name_shown hfirst, CellRef.name_shown hlast]
  simp [bind, Except.bind, pure, Except.pure, CellRef.shown, ← String.toList_inj]

def separator (n : Nat) : Char := if 255 < n then '+' else ','

theorem separator_cases (n : Nat) : separator n = ',' ∨ separator n = '+' := by
  unfold separator
  split
  · exact .inr rfl
  · exact .inl rfl

theorem render_listing (hn : ∀ x ∈ refs, x.pos.Named) (hlength : 2 ≤ refs.length)
    (h : run? refs = none) :
    m.render qualified refs =
      .ok (String.ofList ([separator refs.length].intercalate
        (refs.map (m.cellText qualified)))) := by
  obtain ⟨r, r', rest, rfl⟩ : ∃ r r' rest, refs = r :: r' :: rest := by
    match refs, hlength with
    | r :: r' :: rest, _ => exact ⟨r, r', rest, rfl⟩
  have hparts := Outcomes.mapM_eq_map (l := r :: r' :: rest) fun x hx =>
    front_name_eq m qualified (hn x hx)
  simp only [render, h, hparts]
  simp only [bind, Except.bind, pure, Except.pure, Except.ok.injEq, List.length_map]
  rw [← String.toList_inj, joinText, String.toList_intercalate, String.toList_ofList,
    List.map_map]
  have hsep : (if mostArguments < (r :: r' :: rest).length then "+" else ",").toList =
      [separator (r :: r' :: rest).length] := by
    unfold separator
    rw [show mostArguments = 255 from rfl]
    split <;> rfl
  rw [hsep]
  exact congrArg _ (List.map_congr_left fun x _ => String.toList_ofList)

theorem mem_inReference {title : List Char} {c : Char} (h : c ∈ SheetTitle.inReference title) :
    c ∈ title ∨ c = '\'' := by
  unfold SheetTitle.inReference at h
  split at h
  · exact .inl h
  · rw [SheetTitle.doubleQuotes_eq] at h
    simp only [List.cons_append, List.mem_cons, List.mem_append, List.not_mem_nil, or_false] at h
    rcases h with h | h | h
    · exact .inr h
    · exact .inl (mem_of_mem_doubled h)
    · exact .inr h

theorem unquoted_cellText (h : '"' ∉ r.sheet.toList) : '"' ∉ m.cellText qualified r := by
  intro hmem
  rcases List.mem_append.1 hmem with hmem | hmem
  · unfold front at hmem
    split at hmem
    · rw [String.toList_append, SheetTitle.quoteIfNeeded, String.toList_ofList] at hmem
      rcases List.mem_append.1 hmem with hmem | hmem
      · rcases mem_inReference hmem with hmem | hmem
        · exact h hmem
        · cases hmem
      · exact absurd hmem (by decide)
    · cases hmem
  · exact absurd (FormulaRef.isWord_of_mem_written hmem) (by decide)

theorem not_mem_intercalate {c sep : Char} (hsep : c ≠ sep) {ws : List (List Char)}
    (h : ∀ w ∈ ws, c ∉ w) : c ∉ [sep].intercalate ws := by
  induction ws with
  | nil => exact List.not_mem_nil
  | cons w ws ih =>
    have hw := h w List.mem_cons_self
    have ih := ih fun v hv => h v (List.mem_cons_of_mem w hv)
    cases ws with
    | nil => simpa [List.intercalate] using hw
    | cons v ws =>
      rw [List.intercalate_cons_cons]
      simp [hw, hsep, ih]

/-- What a text for cells is read as on the sheet of the formula. -/
structure Reads (m : Move) (refs : List CellRef) (text : String) : Prop where
  cells : ((pieces none 0 [] text.toList).flatMap (FormulaPiece.cells m.target.sheet)).Perm refs
  range : IsRange (pieces none 0 [] text.toList) ↔ Unbroken refs
  list : ¬ Unbroken refs → Lists m.target.sheet (if 255 < refs.length then '+' else ',')
    (pieces none 0 [] text.toList) refs
  split : (∀ r ∈ refs, '"' ∉ r.sheet.toList) →
    Formula.split text.toList = pieces none 0 [] text.toList

theorem reads_single (hsheet : r.sheet ≠ "") (hr : r.pos.Named) :
    m.Reads [r] (String.ofList (m.cellText qualified r)) := by
  have hspells : Spells (m.cellText qualified r) (m.cellRef qualified r) := spells_single hsheet hr
  have hlists : Lists m.target.sheet ',' [.reference (m.cellRef qualified r)
      (m.cellText qualified r)] [r] := lists_zipWith m qualified ',' [r]
  constructor
  · rw [String.toList_ofList, pieces_single hspells, lists_cells _ _ hlists]
  · rw [String.toList_ofList, pieces_single hspells]
    exact iff_of_false (not_isRange_of_lists hlists) not_unbroken_singleton
  · intro _
    rw [String.toList_ofList, pieces_single hspells]
    exact hlists
  · intro _
    rw [String.toList_ofList, pieces_single hspells, split_alone hspells.1 (hspells.2 [] nofun)]

theorem reads_run (hnodup : refs.Nodup) (hsheet : ∀ x ∈ refs, x.sheet ≠ "")
    (hlength : 2 ≤ refs.length) (h : run? refs = some (first, last)) (hfirst : first.pos.Named)
    (hlast : last.pos.Named) :
    m.Reads refs (String.ofList ((m.front qualified first).toList ++
      (first.pos.written ++ ':' :: last.pos.written))) := by
  have hunbroken := unbroken_of_run? hnodup hlength h
  obtain ⟨r, rest, rfl⟩ := List.exists_cons_of_ne_nil (l := refs) (by rintro rfl; cases hlength)
  have hbounds := bounds_of_run? h
  have hsame : first.sheet = r.sheet := congrArg (·.1.sheet) hbounds.symm
  have hspells : Spells _ _ := spells_range m qualified (r := first) (by rw [hsame]; exact hsheet r List.mem_cons_self) hfirst hlast
  obtain ⟨-, -, -, -, hall⟩ := bounds_spec r rest
  rw [hbounds] at hall
  obtain ⟨htop, hleft, hbottom, hright⟩ := hall r List.mem_cons_self
  constructor
  · rw [String.toList_ofList, pieces_single hspells, List.flatMap_singleton,
      FormulaPiece.cells, FormulaRef.cells_range _ _ (Int.le_trans htop hbottom)
        (Int.le_trans hleft hright), sheet_title?]
    exact perm_of_run? hnodup h
  · rw [String.toList_ofList, pieces_single hspells]
    exact iff_of_true ⟨_, _, rfl, rfl⟩ hunbroken
  · exact fun hbroken => absurd hunbroken hbroken
  · intro _
    rw [String.toList_ofList, pieces_single hspells, split_alone hspells.1 (hspells.2 [] nofun)]

theorem reads_listing (hnodup : refs.Nodup) (hsheet : ∀ x ∈ refs, x.sheet ≠ "")
    (hn : ∀ x ∈ refs, x.pos.Named) (hlength : 2 ≤ refs.length) (h : run? refs = none) :
    m.Reads refs (String.ofList ([separator refs.length].intercalate
      (refs.map (m.cellText qualified)))) := by
  have hbroken : ¬ Unbroken refs := by
    rw [← run?_isSome_iff hnodup hlength, h]
    exact Bool.false_ne_true
  have hspells : List.Forall₂ Spells (refs.map (m.cellText qualified))
      (refs.map (m.cellRef qualified)) := by
    rw [List.forall₂_map_left_iff, List.forall₂_map_right_iff, List.forall₂_same]
    exact fun x hx => spells_single (hsheet x hx) (hn x hx)
  have hlists := lists_zipWith m qualified (separator refs.length) refs
  rw [← pieces_listing (separator_cases _) none rfl hspells] at hlists
  constructor
  · rw [String.toList_ofList, lists_cells _ _ hlists]
  · rw [String.toList_ofList]
    exact iff_of_false (not_isRange_of_lists hlists) hbroken
  · intro _
    rw [String.toList_ofList]
    exact hlists
  · intro hquotes
    apply split_of_unquoted
    rw [String.toList_ofList]
    apply not_mem_intercalate
    · rcases separator_cases refs.length with h | h <;> rw [h] <;> decide
    · intro w hw
      obtain ⟨x, hx, rfl⟩ := List.mem_map.1 hw
      exact unquoted_cellText (hquotes x hx)

/-- The text for cells, read on the sheet of the formula, denotes them, each once. It is a range if
they are an unbroken column or row of two or more, and else a list of them in their order. -/
theorem render_denotes (m : Move) (qualified : Bool) {refs : List CellRef} (hne : refs ≠ [])
    (hnodup : refs.Nodup) (hsheet : ∀ r ∈ refs, r.sheet ≠ "") (hrow : ∀ r ∈ refs, 0 ≤ r.row)
    (hcol : ∀ r ∈ refs, 0 ≤ r.col ∧ r.col ≤ Column.last) :
    ∃ text, m.render qualified refs = .ok text ∧ m.Reads refs text := by
  have hn : ∀ r ∈ refs, r.pos.Named := fun r hr =>
    ⟨Int.le_trans (by decide) (hrow r hr), (hcol r hr).1, (hcol r hr).2⟩
  by_cases hlength : 2 ≤ refs.length
  · cases hrun : run? refs with
    | none => exact ⟨_, render_listing hn hlength hrun, reads_listing hnodup hsheet hn hlength hrun⟩
    | some corners =>
      obtain ⟨hfirst, hlast, hrender⟩ := render_run hn hlength hrun
      exact ⟨_, hrender, reads_run hnodup hsheet hlength hrun hfirst hlast⟩
  · obtain ⟨r, rfl⟩ : ∃ r, refs = [r] := by
      match refs, hne, hlength with
      | [r], _, _ => exact ⟨r, rfl⟩
      | _ :: _ :: _, _, h => exact absurd (by simp) h
    exact ⟨_, front_name_eq m qualified (hn r List.mem_cons_self),
      reads_single (hsheet r List.mem_cons_self) (hn r List.mem_cons_self)⟩

end

def aside : Move :=
  moveFor ⟨⟨"S", 0, 0⟩, ⟨2, 2⟩, [], [], true⟩ ∅ { ref := ⟨"S", 1, 0⟩ } ⟨"S", 1, 0⟩

def scattered : List CellRef := [⟨"S", 0, 0⟩, ⟨"it's", 2, 1⟩, ⟨"S", 4, 27⟩]

theorem scattered_denotes :
    scattered ≠ [] ∧ scattered.Nodup ∧ (∀ r ∈ scattered, r.sheet ≠ "") ∧
      (∀ r ∈ scattered, 0 ≤ r.row) ∧ (∀ r ∈ scattered, 0 ≤ r.col ∧ r.col ≤ Column.last) ∧
      (∃ text, aside.render false scattered = .ok text ∧ aside.Reads scattered text) ∧
      (aside.render false scattered).toOption = some "A1,'it''s'!B3,AB5" :=
  ⟨by decide, by decide, by decide, by decide, by decide,
    render_denotes aside false (by decide) (by decide) (by decide) (by decide) (by decide),
    by decide +kernel⟩

end Move

end Formula

end SheetTemplate
