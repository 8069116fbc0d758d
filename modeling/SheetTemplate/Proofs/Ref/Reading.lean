import SheetTemplate.Proofs.Expr.Reading
import SheetTemplate.Proofs.Formula.Naming
import SheetTemplate.Ref.Area

namespace SheetTemplate

open Number Text

namespace Text

variable {sep : Char} {front back : List Char}

theorem isBlank_of_printable {c : Char} (hlow : 33 ≤ c.toNat) (hhigh : c.toNat ≤ 126) :
    isBlank c = false := by
  simp only [isBlank, Bool.or_eq_false_iff, Bool.and_eq_false_iff, decide_eq_false_iff_not,
    beq_eq_false_iff_ne]
  omega

theorem ne_of_not_mem (h : sep ∉ front) : ∀ c ∈ front, (c != sep) = true := by
  intro c hc
  rw [bne_iff_ne]
  rintro rfl
  exact h hc

theorem span_of_not_mem (h : sep ∉ front) (back : List Char) :
    (front ++ sep :: back).span (· != sep) = (front, sep :: back) := by
  refine span_append (ne_of_not_mem h) fun c hc => ?_
  cases hc
  exact bne_self_eq_false sep

theorem splitLast?_append (h : sep ∉ back) :
    splitLast? sep (front ++ sep :: back) = some (front, back) := by
  have hspan : (front ++ sep :: back).reverse.span (· != sep) =
      (back.reverse, sep :: front.reverse) := by
    rw [List.reverse_append, List.reverse_cons, List.append_assoc, List.singleton_append]
    exact span_of_not_mem (fun hmem => h (List.mem_reverse.1 hmem)) _
  rw [splitLast?, hspan]
  simp only [List.reverse_reverse]

theorem splitLast?_of_not_mem {cs : List Char} (h : sep ∉ cs) : splitLast? sep cs = none := by
  have hspan : cs.reverse.span (· != sep) = (cs.reverse, []) := by
    have hreverse : sep ∉ cs.reverse := fun hmem => h (List.mem_reverse.1 hmem)
    have hend : ∀ c ∈ ([] : List Char).head?, (c != sep) = false := nofun
    have := span_append (ne_of_not_mem hreverse) hend
    rwa [List.append_nil] at this
  rw [splitLast?, hspan]

theorem trim_of_forall {p : Char → Bool} {cs : List Char} (h : ∀ c ∈ cs, p c = false) :
    trim p cs = cs :=
  trim_of_ends (fun c hc => h c (List.mem_of_mem_head? hc)) fun c hc =>
    h c (List.mem_of_mem_getLast? hc)

theorem isBlank_head_append (hfront : ∀ c ∈ front.head?, isBlank c = false)
    (hsep : isBlank sep = false) : ∀ c ∈ (front ++ sep :: back).head?, isBlank c = false := by
  intro c hc
  rw [List.head?_append, Option.mem_def, Option.or_eq_some_iff] at hc
  rcases hc with hc | ⟨-, hc⟩
  · exact hfront c hc
  · cases hc
    exact hsep

theorem strip_append (hfront : ∀ c ∈ front.head?, isBlank c = false)
    (hback : ∀ c ∈ sep :: back, isBlank c = false) :
    strip (front ++ sep :: back) = front ++ sep :: back := by
  apply strip_of_ends (isBlank_head_append hfront (hback sep List.mem_cons_self))
  intro c hc
  rw [List.getLast?_append, Option.mem_def, Option.or_of_isSome (by simp)] at hc
  exact hback c (List.mem_of_mem_getLast? hc)

end Text

namespace SheetTitle

theorem bounds_of_isPlainRest {c : Char} (h : isPlainRest c = true) :
    46 ≤ c.toNat ∧ c.toNat ≤ 122 := by
  simp only [isPlainRest, isPlainStart, Bool.or_eq_true, beq_iff_eq] at h
  rcases h with ((h | rfl) | h) | rfl
  · simp only [isAsciiLetter, Bool.or_eq_true, Bool.and_eq_true, decide_eq_true_eq] at h
    have hrange : 97 ≤ c.toNat ∧ c.toNat ≤ 122 ∨ 65 ≤ c.toNat ∧ c.toNat ≤ 90 := h
    omega
  · decide
  · simp only [Char.isDigit, Bool.and_eq_true, decide_eq_true_eq] at h
    have hrange : 48 ≤ c.toNat ∧ c.toNat ≤ 57 := h
    omega
  · decide

theorem isBlank_of_isPlainRest {c : Char} (h : isPlainRest c = true) : isBlank c = false := by
  have := bounds_of_isPlainRest h
  exact isBlank_of_printable (by omega) (by omega)

theorem isPlainRest_of_isPlain {title : List Char} (h : isPlain title = true) :
    ∀ c ∈ title, isPlainRest c = true := by
  cases title with
  | nil => cases h
  | cons c cs =>
    simp only [isPlain, Bool.and_eq_true] at h
    obtain ⟨⟨hstart, hrest⟩, -⟩ := h
    intro d hd
    rcases List.mem_cons.1 hd with rfl | hd
    · rw [isPlainRest, hstart, Bool.true_or, Bool.true_or]
    · exact List.all_eq_true.1 hrest d hd

theorem unquote?_doubleQuotes (title : List Char) :
    CellRef.unquote? (doubleQuotes title) = some title := by
  induction title with
  | nil => rfl
  | cons c title ih =>
    have hcons : doubleQuotes (c :: title) =
        (if c == '\'' then ['\'', '\''] else [c]) ++ doubleQuotes title := rfl
    rw [hcons]
    by_cases hc : c = '\''
    · subst hc
      simp only [beq_self_eq_true, if_pos, List.cons_append, List.nil_append, CellRef.unquote?, ih,
        Option.map_some]
    · rw [if_neg (by simpa using hc)]
      simp only [List.cons_append, List.nil_append]
      rw [CellRef.unquote?, ih, Option.map_some]
      · exact fun _ heq => absurd heq hc
      · exact hc

theorem doubleQuotes_ne_nil {title : List Char} (h : title ≠ []) : doubleQuotes title ≠ [] := by
  intro hnil
  have := unquote?_doubleQuotes title
  rw [hnil] at this
  exact h (Option.some.inj this).symm

theorem isBlank_head_inReference (title : List Char) :
    ∀ c ∈ (inReference title).head?, isBlank c = false := by
  intro c hc
  unfold inReference at hc
  split at hc
  · next hplain =>
    exact isBlank_of_isPlainRest (isPlainRest_of_isPlain hplain c (List.mem_of_mem_head? hc))
  · cases hc
    decide

theorem title?_inReference {title : List Char} (hne : title ≠ []) :
    CellRef.title? (inReference title) = some title := by
  unfold inReference
  split
  · next hplain =>
    have hall := isPlainRest_of_isPlain hplain
    have hquoted : CellRef.quotedTitle? title = none := by
      unfold CellRef.quotedTitle?
      split
      · exact absurd (bounds_of_isPlainRest (hall '\'' List.mem_cons_self)).1 (by decide)
      · rfl
    have hmark : title.contains '!' = false := by
      rw [← Bool.not_eq_true, List.contains_iff_mem]
      exact fun h => absurd (bounds_of_isPlainRest (hall '!' h)).1 (by decide)
    have hstrip : strip title = title :=
      trim_of_forall fun c hc => isBlank_of_isPlainRest (hall c hc)
    have htrim : trim (· == '\'') title = title := by
      apply trim_of_forall
      intro c hc
      rw [beq_eq_false_iff_ne]
      rintro rfl
      exact absurd (bounds_of_isPlainRest (hall '\'' hc)).1 (by decide)
    rw [CellRef.title?, hquoted, hmark, hstrip, htrim, List.isEmpty_eq_false_iff.2 hne]
    rfl
  · have hquoted : CellRef.quotedTitle? ('\'' :: doubleQuotes title ++ ['\'']) = some title := by
      rw [List.cons_append, CellRef.quotedTitle?, List.reverse_append]
      simp only [List.reverse_singleton, List.singleton_append, List.isEmpty_reverse,
        List.reverse_reverse, unquote?_doubleQuotes]
      rw [if_neg (by simpa using doubleQuotes_ne_nil hne)]
    rw [CellRef.title?, hquoted]

end SheetTitle

def dollar (fixed : Bool) : List Char := if fixed then ['$'] else []

def Pos.anchored (column row : Bool) (p : Pos) : List Char :=
  dollar column ++ (Column.letters p.col.toNat ++ (dollar row ++ natDigits (p.row + 1).toNat))

namespace Pos

variable {column row : Bool} {p : Pos} {c : Char}

theorem anchored_false (p : Pos) : p.anchored false false = p.written := rfl

theorem range_of_mem_anchored (h : c ∈ p.anchored column row) :
    c.toNat = 36 ∨ 48 ≤ c.toNat ∧ c.toNat ≤ 57 ∨ 65 ≤ c.toNat ∧ c.toNat ≤ 90 := by
  have hdollar : ∀ fixed, c ∈ dollar fixed → c.toNat = 36 := by
    intro fixed h
    cases fixed with
    | false => cases h
    | true =>
      cases List.mem_singleton.1 h
      decide
  simp only [anchored, List.mem_append] at h
  rcases h with h | h | h | h
  · exact .inl (hdollar _ h)
  · exact .inr (.inr (Column.forall_mem_letters (P := fun c => 65 ≤ c.toNat ∧ c.toNat ≤ 90)
      (by decide) _ c h))
  · exact .inl (hdollar _ h)
  · have hdigit := isDigit_of_mem_natDigits h
    simp only [Char.isDigit, Bool.and_eq_true, decide_eq_true_eq] at hdigit
    exact .inr (.inl hdigit)

theorem isBlank_of_mem_anchored (h : c ∈ p.anchored column row) : isBlank c = false := by
  have := range_of_mem_anchored h
  exact isBlank_of_printable (by omega) (by omega)

end Pos

namespace CellRef

variable {column row : Bool} {p : Pos} {text : List Char}

theorem dropDollar_dollar (fixed : Bool) {cs : List Char} (h : ∀ c ∈ cs.head?, c ≠ '$') :
    FormulaRef.dropDollar (dollar fixed ++ cs) = cs := by
  cases fixed with
  | false => exact FormulaRef.dropDollar_of_head h
  | true => rfl

theorem splitName?_eq (cs : List Char) : splitName? cs =
    let (front, rest) := (FormulaRef.dropDollar cs).span SheetTitle.isAsciiLetter
    let digits := FormulaRef.dropDollar rest
    if 1 ≤ front.length && front.length ≤ 4 && !digits.isEmpty && digits.all isDecimal then
      some (front, digits)
    else none := by
  unfold splitName?
  extract_lets drop
  have h : drop = FormulaRef.dropDollar := by
    funext cs
    cases cs with
    | nil => rfl
    | cons c cs =>
      by_cases hc : c = '$'
      · rw [hc]
        rfl
      · simp [drop, FormulaRef.dropDollar, hc]
  rw [h]

theorem splitName?_anchored (hp : p.Named) : splitName? (p.anchored column row) =
    some (Column.letters p.col.toNat, natDigits (p.row + 1).toNat) := by
  have hfront : FormulaRef.dropDollar (p.anchored column row) =
      Column.letters p.col.toNat ++ (dollar row ++ natDigits (p.row + 1).toNat) := by
    apply dropDollar_dollar
    intro c hc
    obtain ⟨k, hk, hhead⟩ := FormulaRef.head_letters p.col.toNat
      (dollar row ++ natDigits (p.row + 1).toNat)
    rw [hhead] at hc
    cases hc
    exact Column.letter_ne_dollar hk
  have hdigit : ∀ c ∈ (natDigits (p.row + 1).toNat).head?, c.isDigit = true := fun c hc =>
    isDigit_of_mem_natDigits (List.mem_of_mem_head? hc)
  have hspan : (Column.letters p.col.toNat ++ (dollar row ++ natDigits (p.row + 1).toNat)).span
      SheetTitle.isAsciiLetter =
        (Column.letters p.col.toNat, dollar row ++ natDigits (p.row + 1).toNat) := by
    apply span_append
    · exact Column.forall_mem_letters (fun k hk => (Column.letter_spec hk).2.1) _
    · intro c hc
      cases row with
      | false => exact (FormulaRef.isDigit_not (hdigit c hc)).1
      | true =>
        cases hc
        decide
  have hback : FormulaRef.dropDollar (dollar row ++ natDigits (p.row + 1).toNat) =
      natDigits (p.row + 1).toNat :=
    dropDollar_dollar row fun c hc => (FormulaRef.isDigit_not (hdigit c hc)).2
  have hlength : 1 ≤ (Column.letters p.col.toNat).length ∧
      (Column.letters p.col.toNat).length ≤ 4 := by
    have hright := hp.right
    exact ⟨List.length_pos_iff.2 (Column.letters_ne_nil _),
      Nat.le_succ_of_le (Column.length_letters_le (by omega))⟩
  have hdecimal : (natDigits (p.row + 1).toNat).all isDecimal = true :=
    List.all_eq_true.2 fun c hc => (baseDigit?_of_isDigit (isDigit_of_mem_natDigits hc)).2.2.1
  have hne : (natDigits (p.row + 1).toNat).isEmpty = false := by
    rw [natDigits_eq, List.isEmpty_eq_false_iff]
    exact Nat.toDigits_ne_nil
  rw [splitName?_eq, hfront, hspan]
  simp only [hback, hdecimal, hne, hlength, decide_true, Bool.not_false, Bool.and_self, if_true]

theorem parse_of_split? (title? : Option (List Char)) (hp : p.Named) (hrow : 0 ≤ p.row)
    (home : String) (h : split? (strip text) =
      some (title?, Column.letters p.col.toNat, natDigits (p.row + 1).toNat)) :
    parse (some (String.ofList text)) home =
      .ok (ofPos ((title?.map String.ofList).getD home) p) := by
  have hcol : Column.ofName (String.ofList (Column.letters p.col.toNat)) = .ok p.col.toNat := by
    have hright := hp.right
    rw [Column.ofName, String.toList_ofList, Column.ofLetters?_letters (by omega)]
  rw [parse, Option.getD_some, String.toList_ofList, h]
  simp only [readDigits?_natDigits, Option.getD_some]
  rw [if_neg (by omega), hcol]
  have hleft := hp.left
  simp only [bind, Except.bind, ofPos, Except.ok.injEq, mk.injEq, true_and]
  omega

theorem parse_anchored (hp : p.Named) (hrow : 0 ≤ p.row) (home : String) :
    parse (some (String.ofList (p.anchored column row))) home = .ok (ofPos home p) := by
  apply parse_of_split? none hp hrow
  rw [strip, trim_of_forall fun c hc => Pos.isBlank_of_mem_anchored hc, split?,
    splitLast?_of_not_mem, splitName?_anchored hp]
  · rfl
  · exact fun h => absurd (Pos.range_of_mem_anchored h) (by decide)

theorem parse_titled {title : List Char} (hne : title ≠ []) (hp : p.Named) (hrow : 0 ≤ p.row)
    (home : String) :
    parse (some (String.ofList (SheetTitle.inReference title ++ '!' :: p.anchored column row)))
      home = .ok (ofPos (String.ofList title) p) := by
  apply parse_of_split? (some title) hp hrow
  have hname : ∀ c ∈ '!' :: p.anchored column row, isBlank c = false :=
    List.forall_mem_cons.2 ⟨by decide, fun c hc => Pos.isBlank_of_mem_anchored hc⟩
  rw [strip_append (SheetTitle.isBlank_head_inReference title) hname, split?, splitLast?_append]
  · simp only [splitName?_anchored hp, SheetTitle.title?_inReference hne]
    rfl
  · exact fun h => absurd (Pos.range_of_mem_anchored h) (by decide)

def fixedName (column row : Bool) (r : CellRef) : Except Failure String := do
  let letters ← Column.name r.col
  .ok (SheetTitle.quoteIfNeeded r.sheet ++ "!" ++ String.ofList (dollar column) ++ letters ++
    String.ofList (dollar row) ++ showInt (r.row + 1))

theorem fixedName_eq {r : CellRef} (hp : r.pos.Named) (hrow : 0 ≤ r.row) (column row : Bool) :
    r.fixedName column row = .ok (String.ofList
      (SheetTitle.inReference r.sheet.toList ++ '!' :: r.pos.anchored column row)) := by
  have hname : Column.name r.col = .ok (String.ofList (Column.letters r.col.toNat)) :=
    Column.name_eq hp.left hp.right
  rw [fixedName, hname]
  simp only [bind, Except.bind, Except.ok.injEq]
  rw [← String.toList_inj]
  simp only [String.toList_append, String.toList_ofList, SheetTitle.quoteIfNeeded,
    toList_showInt (show 0 ≤ r.row + 1 by omega)]
  simp [Pos.anchored, pos]

theorem qualifiedName_eq {r : CellRef} (hsheet : r.sheet ≠ "") :
    r.qualifiedName = r.fixedName false false := by
  have hempty : r.sheet.isEmpty = false := by simpa using hsheet
  rw [qualifiedName, fixedName, name]
  cases Column.name r.col with
  | error f => rfl
  | ok letters =>
    simp [bind, Except.bind, hempty, dollar, String.append_assoc]

end CellRef

theorem AreaRef.parse_join {front back : List Char}
    (hfront : ∀ c ∈ front.head?, isBlank c = false)
    (hback : ∀ c ∈ back, isBlank c = false ∧ c ≠ ':') (home : String) :
    AreaRef.parse (some (String.ofList (front ++ ':' :: back))) home = (do
      let first ← CellRef.parse (some (String.ofList front)) home
      let last ← CellRef.parse (some (String.ofList back)) first.sheet
      .ok ⟨first, last⟩) := by
  have hcontains : (front ++ ':' :: back).contains ':' = true := by simp
  have hstrip := strip_append hfront
    (List.forall_mem_cons.2 ⟨by decide, fun c hc => (hback c hc).1⟩ :
      ∀ c ∈ ':' :: back, isBlank c = false)
  rw [AreaRef.parse]
  simp only [Option.getD_some, String.toList_ofList, hcontains, Bool.not_true, Bool.false_eq_true,
    if_false, hstrip, splitLast?_append fun h => (hback ':' h).2 rfl]

namespace CellRef

/-- The name of a cell is read back as the cell: behind the title of its sheet, whatever the sheet
at hand and wherever dollar signs are put, and without a title on its own sheet. The names of two
cells of a sheet with a colon between them are read back as the area between them. -/
theorem names_read_back {a b : CellRef} (hsheet : a.sheet ≠ "") (hsame : b.sheet = a.sheet)
    (harow : 0 ≤ a.row) (hacol : 0 ≤ a.col ∧ a.col ≤ Column.last) (hbrow : 0 ≤ b.row)
    (hbcol : 0 ≤ b.col ∧ b.col ≤ Column.last) (home : String) :
    (∃ name, a.qualifiedName = .ok name ∧ parse (some name) home = .ok a) ∧
    (∀ column row, ∃ name, a.fixedName column row = .ok name ∧
      parse (some name) home = .ok a) ∧
    (∃ name, a.name = .ok name ∧ parse (some name) a.sheet = .ok a) ∧
    ∃ front back, a.qualifiedName = .ok front ∧ b.name = .ok back ∧
      AreaRef.parse (some (front ++ ":" ++ back)) home = .ok ⟨a, b⟩ := by
  have ha : a.pos.Named := ⟨Int.le_trans (by decide) harow, hacol.1, hacol.2⟩
  have hb : b.pos.Named := ⟨Int.le_trans (by decide) hbrow, hbcol.1, hbcol.2⟩
  have htitle : a.sheet.toList ≠ [] := by simpa using hsheet
  have hfixed : ∀ column row, parse (some (String.ofList
      (SheetTitle.inReference a.sheet.toList ++ '!' :: a.pos.anchored column row))) home =
        .ok a := by
    intro column row
    rw [parse_titled htitle ha harow, String.ofList_toList]
    rfl
  have hplain : ∀ {r : CellRef}, r.pos.Named → 0 ≤ r.row →
      parse (some (String.ofList r.pos.written)) r.sheet = .ok r := by
    intro r hr hrow
    rw [← Pos.anchored_false, parse_anchored hr hrow]
    rfl
  have hqualified := (qualifiedName_eq hsheet).trans (fixedName_eq ha harow false false)
  refine ⟨⟨_, hqualified, hfixed false false⟩,
    fun column row => ⟨_, fixedName_eq ha harow column row, hfixed column row⟩,
    ⟨_, name_eq ha, hplain ha harow⟩, _, _, hqualified, name_eq hb, ?_⟩
  have hjoin : String.ofList (SheetTitle.inReference a.sheet.toList ++ '!' ::
      a.pos.anchored false false) ++ ":" ++ String.ofList b.pos.written =
      String.ofList (SheetTitle.inReference a.sheet.toList ++ '!' :: a.pos.anchored false false ++
        ':' :: b.pos.written) := by
    simp [← String.toList_inj]
  have hhead : ∀ c ∈ (SheetTitle.inReference a.sheet.toList ++ '!' ::
      a.pos.anchored false false).head?, isBlank c = false :=
    isBlank_head_append (SheetTitle.isBlank_head_inReference _) (by decide)
  have hback : ∀ c ∈ b.pos.written, isBlank c = false ∧ c ≠ ':' := by
    intro c hc
    rw [← Pos.anchored_false] at hc
    refine ⟨Pos.isBlank_of_mem_anchored hc, ?_⟩
    rintro rfl
    exact absurd (Pos.range_of_mem_anchored hc) (by decide)
  rw [hjoin, AreaRef.parse_join hhead hback, hfixed]
  simp only [bind, Except.bind, ← hsame, hplain hb hbrow]

def corner : CellRef := ⟨"it's 5:1!", 4, 27⟩

def opposite : CellRef := ⟨"it's 5:1!", 9, 18277⟩

theorem corners_read_back :
    corner.sheet ≠ "" ∧ opposite.sheet = corner.sheet ∧ 0 ≤ corner.row ∧
      (0 ≤ corner.col ∧ corner.col ≤ Column.last) ∧ 0 ≤ opposite.row ∧
      (0 ≤ opposite.col ∧ opposite.col ≤ Column.last) ∧
      corner.qualifiedName.toOption = some "'it''s 5:1!'!AB5" ∧
      (∃ name, corner.qualifiedName = .ok name ∧ parse (some name) "Other" = .ok corner) ∧
      (∀ column row, ∃ name, corner.fixedName column row = .ok name ∧
        parse (some name) "Other" = .ok corner) ∧
      (∃ name, corner.name = .ok name ∧ parse (some name) corner.sheet = .ok corner) ∧
      ∃ front back, corner.qualifiedName = .ok front ∧ opposite.name = .ok back ∧
        AreaRef.parse (some (front ++ ":" ++ back)) "Other" = .ok ⟨corner, opposite⟩ :=
  ⟨by decide, rfl, by decide, by decide, by decide, by decide, by decide +kernel,
    names_read_back (a := corner) (b := opposite) (by decide) rfl (by decide) (by decide)
      (by decide) (by decide) "Other"⟩

end CellRef

end SheetTemplate
