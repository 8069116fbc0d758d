import SheetTemplate.Proofs.Directive.Writing
import SheetTemplate.Proofs.Formula.Denoting
import SheetTemplate.Proofs.Outcomes

namespace SheetTemplate

open Number Text

namespace Text

theorem mem_of_mem_trim {p : Char → Bool} {cs : List Char} {c : Char} (h : c ∈ trim p cs) :
    c ∈ cs := by
  rw [trim, trimRight, List.mem_reverse] at h
  have := (List.dropWhile_suffix _).subset h
  exact (List.dropWhile_suffix _).subset (List.mem_reverse.1 this)

end Text

namespace Directive

variable {cs ds : List Char} {c : Char}

theorem isAreaChar_of_isWord (h : isWord c = true) (hsmall : c.toNat < 128) :
    isAreaChar c = true := by
  rw [isWord, if_pos hsmall, Bool.or_eq_true, beq_iff_eq] at h
  rcases h with h | rfl
  · rw [isAreaChar, h, Bool.true_or]
  · decide

theorem isAreaChar_of_mem_written {p : Pos} (h : c ∈ p.written) : isAreaChar c = true := by
  have hanchored : c ∈ p.anchored false false := h
  have hrange := Pos.range_of_mem_anchored hanchored
  exact isAreaChar_of_isWord (FormulaRef.isWord_of_mem_written h) (by omega)

theorem range_of_isAlphanum (h : c.isAlphanum = true) : 48 ≤ c.toNat ∧ c.toNat ≤ 122 := by
  have hupper : c.isUpper = true ↔ 65 ≤ c.toNat ∧ c.toNat ≤ 90 := decide_eq_true_iff
  have hlower : c.isLower = true ↔ 97 ≤ c.toNat ∧ c.toNat ≤ 122 :=
    Bool.and_eq_true_iff.trans (and_congr decide_eq_true_iff decide_eq_true_iff)
  have hdigit : c.isDigit = true ↔ 48 ≤ c.toNat ∧ c.toNat ≤ 57 :=
    Bool.and_eq_true_iff.trans (and_congr decide_eq_true_iff decide_eq_true_iff)
  have halpha : c.isAlpha = true ↔ c.isUpper = true ∨ c.isLower = true := Bool.or_eq_true_iff
  rw [Char.isAlphanum, Bool.or_eq_true, halpha, hupper, hlower, hdigit] at h
  omega

theorem isBlank_of_isAreaChar (h : isAreaChar c = true) : isBlank c = false := by
  rw [isAreaChar, Bool.or_eq_true, List.contains_iff_mem] at h
  rcases h with h | h
  · have := range_of_isAlphanum h
    exact isBlank_of_printable (by omega) (by omega)
  · simp only [List.mem_cons, List.not_mem_nil, or_false] at h
    rcases h with rfl | rfl | rfl | rfl | rfl <;> decide

def Cuts (c : Char) : Prop := isAreaChar c = false ∧ c ≠ ':'

instance (c : Char) : Decidable (Cuts c) :=
  inferInstanceAs (Decidable (isAreaChar c = false ∧ c ≠ ':'))

theorem pieces_ne_nil (cs : List Char) : areaTexts.pieces cs ≠ [] := by
  cases cs with
  | nil => exact List.cons_ne_nil _ _
  | cons c cs =>
    rw [areaTexts.pieces]
    split
    · split <;> exact List.cons_ne_nil _ _
    · exact List.cons_ne_nil _ _

theorem pieces_append (hc : Cuts c) (cs ds : List Char) :
    areaTexts.pieces (cs ++ c :: ds) = areaTexts.pieces cs ++ areaTexts.pieces ds := by
  induction cs with
  | nil =>
    have hcut : ¬(isAreaChar c || c == ':') = true := by simp [hc.1, hc.2]
    simp only [List.nil_append, areaTexts.pieces, if_neg hcut, List.singleton_append]
  | cons d cs ih =>
    obtain ⟨p, rest, hp⟩ := List.exists_cons_of_ne_nil (pieces_ne_nil cs)
    rw [List.cons_append, areaTexts.pieces, areaTexts.pieces, ih, hp]
    split <;> rfl

theorem areaTexts_append (hc : Cuts c) (cs ds : List Char) :
    areaTexts (cs ++ c :: ds) = areaTexts cs ++ areaTexts ds := by
  rw [areaTexts, pieces_append hc, List.flatMap_append]
  rfl

theorem mem_of_mem_pieces {p : List Char} (hp : p ∈ areaTexts.pieces cs) (hc : c ∈ p) : c ∈ cs := by
  induction cs generalizing p with
  | nil =>
    cases List.mem_singleton.1 hp
    cases hc
  | cons d cs ih =>
    obtain ⟨q, rest, hq⟩ := List.exists_cons_of_ne_nil (pieces_ne_nil cs)
    rw [hq] at ih
    rw [areaTexts.pieces, hq] at hp
    split at hp
    · rcases List.mem_cons.1 hp with rfl | hp
      · rcases List.mem_cons.1 hc with rfl | hc
        · exact List.mem_cons_self
        · exact List.mem_cons_of_mem d (ih List.mem_cons_self hc)
      · exact List.mem_cons_of_mem d (ih (List.mem_cons_of_mem q hp) hc)
    · rcases List.mem_cons.1 hp with rfl | hp
      · cases hc
      · exact List.mem_cons_of_mem d (ih hp hc)

theorem areaTexts_of_not_mem (h : ':' ∉ cs) : areaTexts cs = [] := by
  rw [areaTexts, List.flatMap_eq_nil_iff]
  intro p hp
  rw [splitOnChar_of_not_mem fun hmem => h (mem_of_mem_pieces hp hmem)]
  rfl

theorem pieces_of_forall (h : ∀ c ∈ cs, (isAreaChar c || c == ':') = true) :
    areaTexts.pieces cs = [cs] := by
  induction cs with
  | nil => rfl
  | cons c cs ih =>
    obtain ⟨hc, hcs⟩ := List.forall_mem_cons.1 h
    rw [areaTexts.pieces, if_pos hc, ih hcs]

theorem areaTexts_range (hcs : ∀ c ∈ cs, isAreaChar c = true) (hds : ∀ c ∈ ds, isAreaChar c = true)
    (hcsne : cs ≠ []) (hdsne : ds ≠ []) : areaTexts (cs ++ ':' :: ds) = [cs ++ ':' :: ds] := by
  have hcolon : ∀ {xs : List Char}, (∀ c ∈ xs, isAreaChar c = true) → ':' ∉ xs := fun h hmem =>
    absurd (h ':' hmem) (by decide)
  rw [areaTexts, pieces_of_forall, List.flatMap_singleton, splitOnChar_append (hcolon hcs),
    splitOnChar_of_not_mem (hcolon hds), areaPairs, if_neg (by simp [hcsne, hdsne])]
  · rfl
  · simp only [List.mem_append, List.mem_cons]
    rintro c (hc | rfl | hc)
    · rw [hcs c hc, Bool.true_or]
    · decide
    · rw [hds c hc, Bool.true_or]

def areaEnd (cs : List Char) : List Char := (cs.reverse.takeWhile isAreaChar).reverse

theorem areaEnd_of_forall (h : ∀ c ∈ cs, isAreaChar c = true) : areaEnd cs = cs := by
  rw [areaEnd, List.takeWhile_eq_self_iff.2 fun c hc => h c (List.mem_reverse.1 hc),
    List.reverse_reverse]

theorem areaEnd_append (h : ∀ c ∈ ds, isAreaChar c = true) :
    areaEnd (cs ++ ds) = areaEnd cs ++ ds := by
  rw [areaEnd, List.reverse_append,
    List.takeWhile_append_of_pos fun c hc => h c (List.mem_reverse.1 hc), List.reverse_append,
    List.reverse_reverse]
  rfl

theorem isAreaChar_of_mem_areaEnd (h : c ∈ areaEnd cs) : isAreaChar c = true :=
  List.mem_takeWhile_imp (List.mem_reverse.1 h)

theorem areaEnd_cases (cs : List Char) :
    areaEnd cs = cs ∨ ∃ front c, cs = front ++ c :: areaEnd cs ∧ isAreaChar c = false := by
  have hsplit := List.takeWhile_append_dropWhile (p := isAreaChar) (l := cs.reverse)
  have hcs : cs = (cs.reverse.dropWhile isAreaChar).reverse ++ areaEnd cs := by
    rw [areaEnd, ← List.reverse_append, hsplit, List.reverse_reverse]
  cases hrest : cs.reverse.dropWhile isAreaChar with
  | nil =>
    rw [hrest] at hcs
    exact .inl hcs.symm
  | cons c rest =>
    refine .inr ⟨rest.reverse, c, ?_, ?_⟩
    · rw [hrest] at hcs
      simpa using hcs
    · exact head_dropWhile isAreaChar cs.reverse c (by rw [hrest]; rfl)

theorem areaTexts_names (hcolon : ':' ∉ cs) (hcs : areaEnd cs ≠ [])
    (hds : ∀ c ∈ ds, isAreaChar c = true) (hdsne : ds ≠ []) :
    areaTexts (cs ++ ':' :: ds) = [areaEnd cs ++ ':' :: ds] := by
  have hend : areaTexts (areaEnd cs ++ ':' :: ds) = [areaEnd cs ++ ':' :: ds] :=
    areaTexts_range (fun c hc => isAreaChar_of_mem_areaEnd hc) hds hcs hdsne
  rcases areaEnd_cases cs with hall | ⟨front, c, hsplit, hc⟩
  · rwa [hall] at hend ⊢
  · -- what stands before the end of the first name has no colon, and so no area in it
    have hfront : ':' ∉ front := fun h => hcolon (by rw [hsplit]; exact List.mem_append_left _ h)
    have hne : c ≠ ':' := by
      rintro rfl
      exact hcolon (by rw [hsplit]; simp)
    have hjoin : cs ++ ':' :: ds = front ++ c :: (areaEnd cs ++ ':' :: ds) := by
      conv_lhs => rw [hsplit]
      simp
    rw [hjoin, areaTexts_append ⟨hc, hne⟩, areaTexts_of_not_mem hfront, List.nil_append, hend]

end Directive

namespace CellRef

variable {cs title : List Char} {home : String} {r : CellRef}

theorem mem_of_unquote? (h : unquote? cs = some title) :
    ∀ c ∈ title, c ∈ cs := by
  induction cs using unquote?.induct generalizing title with
  | case1 =>
    cases h
    exact nofun
  | case2 rest ih =>
    rw [unquote?, Option.map_eq_some_iff] at h
    obtain ⟨body, hbody, rfl⟩ := h
    intro c hc
    rcases List.mem_cons.1 hc with rfl | hc
    · exact List.mem_cons_self
    · exact List.mem_cons_of_mem _ (List.mem_cons_of_mem _ (ih hbody c hc))
  | case3 rest hsingle =>
    rw [unquote?] at h
    · cases h
    · exact hsingle
  | case4 d rest hpair hd ih =>
    rw [unquote?, Option.map_eq_some_iff] at h
    · obtain ⟨body, hbody, rfl⟩ := h
      intro c hc
      rcases List.mem_cons.1 hc with rfl | hc
      · exact List.mem_cons_self
      · exact List.mem_cons_of_mem _ (ih hbody c hc)
    · exact hpair
    · exact hd

theorem mem_of_quotedTitle? (h : quotedTitle? cs = some title) : ∀ c ∈ title, c ∈ cs := by
  unfold quotedTitle? at h
  split at h
  · next rest =>
    split at h
    · next body hbody =>
      split at h
      · cases h
      · intro c hc
        have hrest : c ∈ rest.reverse := by
          rw [hbody]
          exact List.mem_cons_of_mem _ (List.mem_reverse.1 (mem_of_unquote? h c hc))
        exact List.mem_cons_of_mem _ (List.mem_reverse.1 hrest)
    · cases h
  · cases h

theorem mem_of_title? (h : title? cs = some title) : ∀ c ∈ title, c ∈ cs := by
  unfold title? at h
  split at h
  · next hquoted =>
    cases h
    exact mem_of_quotedTitle? hquoted
  · split at h
    · cases h
    · cases h
      exact fun c hc => mem_of_mem_trim (mem_of_mem_trim hc)

theorem mem_of_parse {front back : List Char} (hback : '!' ∉ back)
    (hstrip : strip (front ++ '!' :: back) = front ++ '!' :: back)
    (h : parse (some (String.ofList (front ++ '!' :: back))) home = .ok r) :
    ∀ c ∈ r.sheet.toList, c ∈ front := by
  rw [parse, Option.getD_some, String.toList_ofList, hstrip, split?, splitLast?_append hback] at h
  cases hname : splitName? back with
  | none =>
    simp only [hname, bind, Option.bind] at h
    cases h
  | some parts =>
    obtain ⟨letters, digits⟩ := parts
    cases htitle : title? front with
    | none =>
      simp only [hname, htitle, bind, Option.bind] at h
      cases h
    | some title =>
      simp only [hname, htitle, bind, Option.bind] at h
      split at h
      · cases h
      · cases hcol : Column.ofName (String.ofList letters) with
        | error f =>
          simp only [hcol, Except.bind] at h
          cases h
        | ok col =>
          simp only [hcol, Except.bind, Except.ok.injEq] at h
          subst h
          intro c hc
          rw [Option.map_some, Option.getD_some, String.toList_ofList] at hc
          exact mem_of_title? htitle c hc

theorem named_of_name {name : String} (h : r.name = .ok name) (hrow : 0 ≤ r.row) :
    r.pos.Named ∧ name.toList = r.pos.written := by
  have hcol : 0 ≤ r.col ∧ r.col ≤ Column.last := by
    rw [CellRef.name, Column.name] at h
    split at h
    · cases h
    · split at h
      · cases h
      · omega
  have hnamed : r.pos.Named := ⟨Int.le_trans (by decide) hrow, hcol.1, hcol.2⟩
  refine ⟨hnamed, ?_⟩
  rw [name_eq hnamed, Except.ok.injEq] at h
  rw [← h, String.toList_ofList]

end CellRef

structure ListedArea (home : String) where
  area : AreaRef
  qualified : Bool
  front : String
  back : String
  one_sheet : area.last.sheet = area.sheet
  rows : 0 ≤ area.first.row ∧ 0 ≤ area.last.row
  front_name : (if qualified then area.first.qualifiedName else area.first.name) = .ok front
  back_name : area.last.name = .ok back
  unqualified : qualified = false → area.sheet = home
  titled : qualified = true → area.sheet ≠ "" ∧ ':' ∉ area.sheet.toList ∧ ']' ∉ area.sheet.toList

namespace ListedArea

open Directive

variable {home : String} {x : ListedArea home}

def text (x : ListedArea home) : List Char := x.front.toList ++ ':' :: x.back.toList

def found (x : ListedArea home) : List Char := areaEnd x.front.toList ++ ':' :: x.back.toList

def title (x : ListedArea home) : List Char :=
  if x.qualified then SheetTitle.inReference x.area.sheet.toList ++ ['!'] else []

theorem back_eq (x : ListedArea home) :
    x.area.last.pos.Named ∧ x.back.toList = x.area.last.pos.written :=
  CellRef.named_of_name x.back_name x.rows.2

theorem front_eq (x : ListedArea home) :
    x.area.first.pos.Named ∧ x.front.toList = x.title ++ x.area.first.pos.written := by
  have hfront := x.front_name
  cases hq : x.qualified with
  | false =>
    rw [hq] at hfront
    rw [title, hq]
    exact CellRef.named_of_name hfront x.rows.1
  | true =>
    rw [hq, if_pos rfl, CellRef.qualifiedName] at hfront
    cases hname : x.area.first.name with
    | error f =>
      rw [hname] at hfront
      cases hfront
    | ok name =>
      obtain ⟨hnamed, hwritten⟩ := CellRef.named_of_name hname x.rows.1
      have hempty : x.area.first.sheet.isEmpty = false :=
        Bool.eq_false_iff.2 fun h => (x.titled hq).1 (String.isEmpty_iff.1 h)
      simp only [hname, hempty, bind, Except.bind, Except.ok.injEq] at hfront
      refine ⟨hnamed, ?_⟩
      rw [← hfront, title, hq, ← hwritten]
      simp [SheetTitle.quoteIfNeeded, AreaRef.sheet]

theorem back_chars (x : ListedArea home) :
    (∀ c ∈ x.back.toList, isAreaChar c = true) ∧ x.back.toList ≠ [] := by
  rw [x.back_eq.2]
  exact ⟨fun c hc => isAreaChar_of_mem_written hc, by simp [Pos.written, Column.letters_ne_nil]⟩

theorem areaEnd_front (x : ListedArea home) :
    areaEnd x.front.toList = areaEnd x.title ++ x.area.first.pos.written := by
  rw [x.front_eq.2]
  exact areaEnd_append fun c hc => isAreaChar_of_mem_written hc

theorem mem_front {c : Char} (h : c ∈ x.front.toList) :
    isAreaChar c = true ∨ c ≠ ':' ∧ c ≠ ']' := by
  rw [x.front_eq.2, List.mem_append] at h
  rcases h with h | h
  · rw [title] at h
    split at h
    · next hq =>
      rcases List.mem_append.1 h with h | h
      · rcases Formula.Move.mem_inReference h with h | rfl
        · obtain ⟨-, hcolon, hbracket⟩ := x.titled hq
          exact .inr ⟨fun heq => hcolon (heq ▸ h), fun heq => hbracket (heq ▸ h)⟩
        · exact .inl (by decide)
      · cases List.mem_singleton.1 h
        exact .inl (by decide)
    · cases h
  · exact .inl (isAreaChar_of_mem_written h)

theorem colon_not_mem_front (x : ListedArea home) : ':' ∉ x.front.toList := by
  intro h
  rcases mem_front h with h | h
  · exact absurd h (by decide)
  · exact h.1 rfl

theorem bracket_not_mem_text (x : ListedArea home) : ']' ∉ x.text := by
  rw [text, List.mem_append, List.mem_cons]
  rintro (h | h | h)
  · rcases mem_front h with h | h
    · exact absurd h (by decide)
    · exact h.2 rfl
  · exact absurd h (by decide)
  · exact absurd (x.back_chars.1 ']' h) (by decide)

theorem areaTexts_text (x : ListedArea home) : areaTexts x.text = [x.found] := by
  obtain ⟨hback, hne⟩ := x.back_chars
  refine areaTexts_names x.colon_not_mem_front ?_ hback hne
  rw [x.areaEnd_front]
  simp [Pos.written, Column.letters_ne_nil]

theorem parse_back (x : ListedArea home) :
    CellRef.parse (some (String.ofList x.back.toList)) x.area.first.sheet = .ok x.area.last := by
  obtain ⟨hnamed, hback⟩ := x.back_eq
  have hsheet : x.area.last.sheet = x.area.first.sheet := x.one_sheet
  rw [hback, ← Pos.anchored_false, CellRef.parse_anchored hnamed x.rows.2, ← hsheet]
  rfl

theorem parse_front (x : ListedArea home) :
    CellRef.parse (some (String.ofList (areaEnd x.front.toList))) home = .ok x.area.first ↔
      (x.qualified = true → ∀ c ∈ x.area.sheet.toList, isAreaChar c = true) := by
  have hnamed := x.front_eq.1
  rw [x.areaEnd_front, title]
  cases hq : x.qualified with
  | false =>
    have hfirst : CellRef.ofPos home x.area.first.pos = x.area.first :=
      congrArg (CellRef.ofPos · x.area.first.pos) (x.unqualified hq).symm
    have hparse : CellRef.parse (some (String.ofList x.area.first.pos.written)) home =
        .ok x.area.first := by
      rw [← Pos.anchored_false, CellRef.parse_anchored hnamed x.rows.1, hfirst]
    exact iff_of_true hparse nofun
  | true =>
    have hmark : '!' ∉ x.area.first.pos.written := fun h =>
      absurd (FormulaRef.isWord_of_mem_written h) (by decide)
    rw [if_pos rfl, areaEnd_append (List.forall_mem_singleton.2 (by decide)), List.append_assoc,
      List.singleton_append]
    constructor
    · intro hparse _ c hc
      have hstrip : ∀ d ∈ areaEnd (SheetTitle.inReference x.area.sheet.toList) ++
          '!' :: x.area.first.pos.written, isBlank d = false := by
        simp only [List.mem_append, List.mem_cons]
        rintro d (hd | rfl | hd)
        · exact isBlank_of_isAreaChar (isAreaChar_of_mem_areaEnd hd)
        · decide
        · exact isBlank_of_isAreaChar (isAreaChar_of_mem_written hd)
      exact isAreaChar_of_mem_areaEnd
        (CellRef.mem_of_parse hmark (trim_of_forall hstrip) hparse c hc)
    · intro hsheet
      have htitle : ∀ c ∈ SheetTitle.inReference x.area.sheet.toList, isAreaChar c = true := by
        intro c hc
        rcases Formula.Move.mem_inReference hc with hc | rfl
        · exact hsheet rfl c hc
        · decide
      have hne : x.area.sheet.toList ≠ [] := by simpa using (x.titled hq).1
      rw [areaEnd_of_forall htitle, ← Pos.anchored_false,
        CellRef.parse_titled hne hnamed x.rows.1, String.ofList_toList]
      rfl

theorem readArea_found (x : ListedArea home) (name : String) {cell : CellRef}
    (hcell : cell.sheet = home) : readArea name cell x.found = .ok x.area ↔
      (x.qualified = true → ∀ c ∈ x.area.sheet.toList, isAreaChar c = true) := by
  have hhead : ∀ c ∈ (areaEnd x.front.toList).head?, isBlank c = false := fun c hc =>
    isBlank_of_isAreaChar (isAreaChar_of_mem_areaEnd (List.mem_of_mem_head? hc))
  have hback : ∀ c ∈ x.back.toList, isBlank c = false ∧ c ≠ ':' := by
    intro c hc
    have hchar := x.back_chars.1 c hc
    refine ⟨isBlank_of_isAreaChar hchar, ?_⟩
    rintro rfl
    exact absurd hchar (by decide)
  have hparse := AreaRef.parse_join hhead hback home
  rw [← x.parse_front, readArea, hcell]
  simp only [found, hparse]
  cases hfirst : CellRef.parse (some (String.ofList (areaEnd x.front.toList))) home with
  | error f => simp [bind, Except.bind]
  | ok first =>
    simp only [bind, Except.bind, Except.ok.injEq]
    constructor
    · intro h
      split at h
      · next area harea =>
        rw [Except.ok.injEq] at h
        rw [← h]
        split at harea <;> cases harea
        rfl
      · cases h
    · rintro rfl
      rw [x.parse_back]

end ListedArea

namespace Directive

variable {home : String}

def listText (listed : List (ListedArea home)) : List Char :=
  joinWith [',', ' '] (listed.map fun x => '"' :: (x.text ++ ['"']))

theorem areaTexts_cons (hc : Cuts c) (cs : List Char) : areaTexts (c :: cs) = areaTexts cs :=
  areaTexts_append hc [] cs

theorem areaTexts_listText (listed : List (ListedArea home)) :
    areaTexts (listText listed) = listed.map ListedArea.found := by
  have hquote : Cuts '"' := by decide
  have hquoted : ∀ (x : ListedArea home) (rest : List Char),
      areaTexts ('"' :: (x.text ++ ['"']) ++ rest) = x.found :: areaTexts rest := by
    intro x rest
    rw [List.cons_append, areaTexts_cons hquote, List.append_assoc, List.singleton_append,
      areaTexts_append hquote, x.areaTexts_text]
    rfl
  induction listed with
  | nil => rfl
  | cons x listed ih =>
    cases listed with
    | nil =>
      rw [listText, List.map_singleton, joinWith, List.intercalate_singleton,
        ← List.append_nil ('"' :: _), hquoted]
      rfl
    | cons y listed =>
      rw [listText, List.map_cons, List.map_cons, joinWith, List.intercalate_cons_cons,
        List.append_assoc, hquoted, List.map_cons, ← ih]
      rfl

def OpensList (cs : List Char) : Prop :=
  ∃ front back rest, (∀ c ∈ front ++ back, isBlank c = true) ∧
    cs = "areas".toList ++ (front ++ '=' :: (back ++ '[' :: rest))

theorem eq_of_afterEquals? {rest : List Char} (h : Attributes.afterEquals? cs = some rest) :
    ∃ front back, (∀ c ∈ front ++ back, isBlank c = true) ∧
      cs = front ++ '=' :: (back ++ rest) := by
  have hskip : ∀ xs : List Char, xs = xs.takeWhile isBlank ++ Attributes.skipBlanks xs := fun xs =>
    List.takeWhile_append_dropWhile.symm
  unfold Attributes.afterEquals? at h
  split at h
  · next more hmore =>
    cases h
    refine ⟨cs.takeWhile isBlank, more.takeWhile isBlank, ?_, ?_⟩
    · intro c hc
      rcases List.mem_append.1 hc with hc | hc <;> exact List.mem_takeWhile_imp hc
    · rw [← hskip more, ← hmore]
      exact hskip cs
  · cases h

theorem opensList_of_bracketList? {rest : List Char}
    (h : (dropPrefix? "areas".toList cs).bind bracketList? = some rest) : OpensList cs := by
  obtain ⟨more, hmore, hlist⟩ := Option.bind_eq_some_iff.1 h
  unfold bracketList? at hlist
  split at hlist
  · next inner hafter =>
    obtain ⟨front, back, hblank, hcs⟩ := eq_of_afterEquals? hafter
    refine ⟨front, back, inner, hblank, ?_⟩
    rw [eq_append_of_dropPrefix? hmore, hcs]
  · cases hlist

theorem not_opensList_of_flat (h : '[' ∉ cs) : ¬OpensList cs := by
  rintro ⟨front, back, rest, -, rfl⟩
  simp at h

theorem not_opensList_append {before : List Char} (hne : before ≠ []) (h : ¬OpensList before)
    (rest : List Char) : ¬OpensList (before ++ ("areas=".toList ++ '[' :: rest)) := by
  rintro ⟨front, back, other, hblank, heq⟩
  have hnot : ∀ {c : Char}, isBlank c = false → c ∉ front ++ back := fun hc hmem =>
    absurd (hblank _ hmem) (by simp [hc])
  have hflat : '[' ∉ "areas".toList ++ (front ++ '=' :: back) := by
    have := hnot (c := '[') (by decide)
    simp_all
  have heq : before ++ ("areas=".toList ++ '[' :: rest) =
      "areas".toList ++ (front ++ '=' :: back) ++ '[' :: other := by simpa using heq
  by_cases hmem : '[' ∈ before
  · -- the bracket that is met first is one of the text before
    obtain ⟨start, more, rfl, hstart⟩ := List.eq_append_cons_of_mem hmem
    have hcut := congrArg (splitFirst? ['[']) heq
    rw [List.append_assoc, List.cons_append, splitFirst?_of_not_mem hstart,
      splitFirst?_of_not_mem hflat, Option.some.injEq, Prod.mk.injEq] at hcut
    refine h ⟨front, back, more, hblank, ?_⟩
    rw [hcut.1]
    simp
  · -- the word before the bracket is the word of the list, which leaves no room before it
    have hopen : '[' ∉ before ++ "areas=".toList := by
      rw [List.mem_append]
      rintro (hc | hc)
      · exact hmem hc
      · exact absurd hc (by decide)
    have hcut := congrArg (splitFirst? ['[']) heq
    rw [← List.append_assoc, splitFirst?_of_not_mem hopen, splitFirst?_of_not_mem hflat,
      Option.some.injEq, Prod.mk.injEq] at hcut
    have hcount := congrArg (List.count 'a') hcut.1
    have hblanks := List.count_eq_zero.2 (hnot (c := 'a') (by decide))
    rw [List.count_append] at hblanks
    obtain ⟨c, more, rfl⟩ := List.exists_cons_of_ne_nil hne
    obtain rfl : c = 'a' := (List.cons.inj hcut.1).1
    simp at hcount
    omega

theorem areaList?_append {before list after : List Char}
    (hbefore : ∀ s, s <:+ before → ¬OpensList s) (hlist : ']' ∉ list) :
    areaList? (before ++ ("areas=".toList ++ '[' :: (list ++ ']' :: after))) = some list := by
  induction before with
  | nil =>
    have hbracket : bracketList? ('=' :: '[' :: (list ++ ']' :: after)) = some list := by
      have hafter : Attributes.afterEquals? ('=' :: '[' :: (list ++ ']' :: after)) =
          some ('[' :: (list ++ ']' :: after)) := rfl
      rw [bracketList?, hafter]
      simp only [span_of_not_mem hlist]
      rfl
    have hfound : (dropPrefix? "areas".toList
        ('a' :: ("reas=".toList ++ '[' :: (list ++ ']' :: after)))).bind bracketList? =
          some list := hbracket
    change areaList? ('a' :: ("reas=".toList ++ '[' :: (list ++ ']' :: after))) = some list
    rw [areaList?, hfound]
  | cons c before ih =>
    have hnone : (dropPrefix? "areas".toList
        (c :: before ++ ("areas=".toList ++ '[' :: (list ++ ']' :: after)))).bind bracketList? =
          none := by
      rw [Option.eq_none_iff_forall_ne_some]
      intro rest hrest
      exact not_opensList_append (List.cons_ne_nil c before)
        (hbefore _ (List.suffix_refl _)) _ (opensList_of_bracketList? hrest)
    rw [List.cons_append] at hnone ⊢
    rw [areaList?, hnone]
    exact ih fun s hs => hbefore s (hs.trans (List.suffix_cons c before))

theorem bracket_not_mem_listText (listed : List (ListedArea home)) : ']' ∉ listText listed := by
  intro h
  rcases mem_joinWith h with h | ⟨part, hpart, h⟩
  · exact absurd h (by decide)
  · obtain ⟨x, -, rfl⟩ := List.mem_map.1 hpart
    simp [x.bracket_not_mem_text] at h

def listInner (before : List Char) (listed : List (ListedArea home)) (after : List Char) :
    List Char :=
  before ++ ("areas=".toList ++ '[' :: (listText listed ++ ']' :: after))

/-- A command whose last cell can be read has exactly the areas of its list, in their order and on
their sheets, if and only if the titles written in the list consist of letters, digits and the few
marks that a list is searched for. -/
theorem listed_areas_iff (cell : CellRef) (name before : List Char)
    (listed : List (ListedArea cell.sheet)) (after : List Char) (hopen : '(' ∉ name)
    (hname : strip name ≠ []) (hbefore : ∀ s, s <:+ before → ¬OpensList s)
    (hlast : ∃ last, readLastCell (lineText name (listInner before listed after))
      (String.ofList (strip name)) (Attributes.parse (listInner before listed after)) cell =
        .ok last) :
    (∃ d, parse (lineText name (listInner before listed after)) cell = .ok d ∧
      d.areas = listed.map (·.area)) ↔
        ∀ x ∈ listed, x.qualified = true → ∀ c ∈ x.area.sheet.toList, isAreaChar c = true := by
  obtain ⟨last, hlast⟩ := hlast
  have hlist : areaList? (listInner before listed after) = some (listText listed) :=
    areaList?_append hbefore (bracket_not_mem_listText listed)
  have hread : (∀ x ∈ listed, x.qualified = true → ∀ c ∈ x.area.sheet.toList,
      isAreaChar c = true) ↔ (listed.map ListedArea.found).mapM
        (readArea (String.ofList (strip name)) cell) = .ok (listed.map (·.area)) := by
    rw [Outcomes.mapM_map_eq_ok]
    exact forall₂_congr fun x _ => (x.readArea_found _ rfl).symm
  rw [hread, parse_lineText hopen hname, hlast, hlist, Option.map_some, Option.getD_some,
    areaTexts_listText]
  simp only [bind, Except.bind]
  cases (listed.map ListedArea.found).mapM (readArea (String.ofList (strip name)) cell) with
  | error f => simp
  | ok areas => simp

end Directive

def ownArea : ListedArea "S" where
  area := ⟨⟨"S", 0, 0⟩, ⟨"S", 3, 2⟩⟩
  qualified := false
  front := "A1"
  back := "C4"
  one_sheet := rfl
  rows := by decide
  front_name := by decide +kernel
  back_name := by decide +kernel
  unqualified := by decide
  titled := by decide

def quotedArea : ListedArea "S" where
  area := ⟨⟨"It's", 1, 1⟩, ⟨"It's", 2, 2⟩⟩
  qualified := true
  front := "'It''s'!B2"
  back := "C3"
  one_sheet := rfl
  rows := by decide
  front_name := by decide +kernel
  back_name := by decide +kernel
  unqualified := by decide
  titled := by decide

def spacedArea : ListedArea "S" where
  area := ⟨⟨"My Sheet", 1, 1⟩, ⟨"My Sheet", 2, 2⟩⟩
  qualified := true
  front := "'My Sheet'!B2"
  back := "C3"
  one_sheet := rfl
  rows := by decide
  front_name := by decide +kernel
  back_name := by decide +kernel
  unqualified := by decide
  titled := by decide

theorem Directive.choice_listed :
    (∃ d, parse "jx:if(lastCell=\"C4\" areas=[\"A1:C4\", \"'It''s'!B2:C3\"])".toList
      ⟨"S", 0, 0⟩ = .ok d ∧ d.areas = [ownArea.area, quotedArea.area]) ∧
    ¬∃ d, parse "jx:if(lastCell=\"C4\" areas=[\"A1:C4\", \"'My Sheet'!B2:C3\"])".toList
      ⟨"S", 0, 0⟩ = .ok d ∧ d.areas = [ownArea.area, spacedArea.area] := by
  have hbefore : ∀ s, s <:+ "lastCell=\"C4\" ".toList → ¬OpensList s := fun s hs =>
    not_opensList_of_flat fun hmem => absurd (hs.subset hmem) (by decide)
  constructor
  · refine (listed_areas_iff ⟨"S", 0, 0⟩ "if".toList "lastCell=\"C4\" ".toList
      [ownArea, quotedArea] [] (by decide) (by decide) hbefore
      ⟨some ⟨"S", 3, 2⟩, by decide +kernel⟩).2 ?_
    exact List.forall_mem_cons.2 ⟨nofun, List.forall_mem_singleton.2 fun _ =>
      List.all_eq_true.1 (by decide)⟩
  · intro h
    -- the space ends what is found of the title
    have := (listed_areas_iff ⟨"S", 0, 0⟩ "if".toList "lastCell=\"C4\" ".toList
      [ownArea, spacedArea] [] (by decide) (by decide) hbefore
      ⟨some ⟨"S", 3, 2⟩, by decide +kernel⟩).1 h spacedArea (by simp) rfl ' ' (by decide)
    exact absurd this (by decide)

end SheetTemplate
