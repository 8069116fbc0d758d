import Mathlib.Logic.Basic
import SheetTemplate.Formula.Relocate
import SheetTemplate.Proofs.Formula.Spelling

namespace SheetTemplate

open Number Text

namespace Formula

def titleLength? (cs : List Char) : Option Nat :=
  (FormulaRef.quotedTitle? cs).map fun (_, rest) => cs.length - rest.length

def hidden (skip : Nat) : List Char → List Bool
  | [] => []
  | c :: cs =>
    match skip with
    | skip + 1 => true :: hidden skip cs
    | 0 =>
      if c == '"' then
        match literalLength? cs with
        | some n => true :: hidden n cs
        | none => false :: hidden 0 cs
      else if c == '\'' then
        match titleLength? cs with
        | some n => false :: hidden n cs
        | none => false :: hidden 0 cs
      else false :: hidden 0 cs

def readPieces (prev : Option Char) (skip : Nat) (hidden : List Bool) :
    List Char → List FormulaPiece
  | [] => []
  | c :: cs =>
    match skip with
    | skip + 1 => readPieces (some c) skip hidden.tail cs
    | 0 =>
      let found :=
        if FormulaRef.mayFollow prev && !hidden.headD false then FormulaRef.at? (c :: cs) else none
      match found with
      | some (r, rest) =>
        let written := (c :: cs).take (cs.length + 1 - rest.length)
        .reference r written :: readPieces (some c) (written.length - 1) hidden.tail cs
      | none => .char c :: readPieces (some c) 0 hidden.tail cs

def reading (formula : List Char) : List FormulaPiece :=
  readPieces none 0 (hidden 0 formula) formula

namespace Move

def readPiece (m : Move) : FormulaPiece → Except Failure String
  | .char c => .ok (String.ofList [c])
  | .reference _ written => m.relocate (String.ofList written)

def relocateRead (m : Move) (formula : String) : Except Failure String := do
  return joinText "" (← (reading formula.toList).mapM m.readPiece)

end Move

inductive Lexeme where
  | literal (body : List Char)
  | title (body : List Char)
  | char (c : Char)

def doubled (quote : Char) (body : List Char) : List Char :=
  body.flatMap fun c => if c = quote then [quote, quote] else [c]

namespace Lexeme

def text : Lexeme → List Char
  | literal body => '"' :: (doubled '"' body ++ ['"'])
  | title body => '\'' :: (doubled '\'' body ++ ['\''])
  | char c => [c]

def hides : Lexeme → List Bool
  | literal body => true :: List.replicate ((doubled '"' body).length + 1) true
  | title body => false :: List.replicate ((doubled '\'' body).length + 1) true
  | char _ => [false]

def Closed : Lexeme → List Char → Prop
  | literal _, rest => ∀ c ∈ rest.head?, c ≠ '"'
  | title _, rest => ∀ c ∈ rest.head?, c ≠ '\''
  | char c, _ => c ≠ '"' ∧ c ≠ '\''

end Lexeme

def lexText (ls : List Lexeme) : List Char := ls.flatMap Lexeme.text

/-- Words that a formula is read as. -/
def Lexed : List Lexeme → Prop
  | [] => True
  | l :: ls => l.Closed (lexText ls) ∧ Lexed ls

theorem lexText_cons (l : Lexeme) (ls : List Lexeme) : lexText (l :: ls) = l.text ++ lexText ls :=
  rfl

theorem literalLength?_doubled (body : List Char) {rest : List Char}
    (h : ∀ c ∈ rest.head?, c ≠ '"') :
    literalLength? (doubled '"' body ++ '"' :: rest) = some ((doubled '"' body).length + 1) := by
  induction body with
  | nil =>
    cases rest with
    | nil => rfl
    | cons c rest =>
      have hc := h c rfl
      change literalLength? ('"' :: c :: rest) = _
      rw [literalLength?]
      · rfl
      · rintro ds heq
        exact hc (List.cons.inj heq).1
  | cons c body ih =>
    have hcons : doubled '"' (c :: body) =
        (if c = '"' then ['"', '"'] else [c]) ++ doubled '"' body := rfl
    rw [hcons]
    by_cases hc : c = '"'
    · rw [if_pos hc]
      simp only [List.cons_append, List.nil_append, literalLength?, ih, List.length_cons]
    · rw [if_neg hc]
      simp only [List.cons_append, List.nil_append, List.length_cons]
      rw [literalLength?, ih, Option.map_some]
      · exact fun _ heq => absurd heq hc
      · exact hc

theorem quotedTitle?_doubled (body : List Char) {rest : List Char}
    (h : ∀ c ∈ rest.head?, c ≠ '\'') :
    FormulaRef.quotedTitle? (doubled '\'' body ++ '\'' :: rest) = some (body, rest) := by
  induction body with
  | nil =>
    change FormulaRef.quotedTitle? ('\'' :: rest) = _
    rw [FormulaRef.quotedTitle?]
    rintro ds rfl
    exact h _ rfl rfl
  | cons c body ih =>
    have hcons : doubled '\'' (c :: body) =
        (if c = '\'' then ['\'', '\''] else [c]) ++ doubled '\'' body := rfl
    rw [hcons]
    by_cases hc : c = '\''
    · rw [if_pos hc]
      simp only [List.cons_append, List.nil_append, FormulaRef.quotedTitle?, ih, Option.map_some, hc]
    · rw [if_neg hc]
      simp only [List.cons_append, List.nil_append]
      rw [FormulaRef.quotedTitle?, ih, Option.map_some]
      · exact fun _ heq => absurd heq hc
      · exact hc

theorem titleLength?_doubled (body : List Char) {rest : List Char}
    (h : ∀ c ∈ rest.head?, c ≠ '\'') :
    titleLength? (doubled '\'' body ++ '\'' :: rest) = some ((doubled '\'' body).length + 1) := by
  rw [titleLength?, quotedTitle?_doubled body h]
  simp only [Option.map_some, Option.some.injEq, List.length_append, List.length_cons]
  omega

theorem literal_text_append (body rest : List Char) :
    (Lexeme.literal body).text ++ rest = '"' :: (doubled '"' body ++ '"' :: rest) := by
  simp [Lexeme.text]

theorem title_text_append (body rest : List Char) :
    (Lexeme.title body).text ++ rest = '\'' :: (doubled '\'' body ++ '\'' :: rest) := by
  simp [Lexeme.text]

theorem hidden_append (w : List Char) (c : Char) (rest : List Char) :
    hidden (w.length + 1) (w ++ c :: rest) =
      List.replicate (w.length + 1) true ++ hidden 0 rest := by
  induction w with
  | nil => rfl
  | cons d w ih => exact congrArg (true :: ·) ih

theorem hidden_lexText {ls : List Lexeme} (h : Lexed ls) :
    hidden 0 (lexText ls) = ls.flatMap Lexeme.hides := by
  induction ls with
  | nil => rfl
  | cons l ls ih =>
    obtain ⟨hclosed, hls⟩ := h
    rw [lexText_cons, List.flatMap_cons, ← ih hls]
    cases l with
    | literal body =>
      rw [literal_text_append, hidden, if_pos (by decide), literalLength?_doubled body hclosed]
      exact congrArg (true :: ·) (hidden_append ..)
    | title body =>
      rw [title_text_append, hidden, if_neg (by decide), if_pos (by decide),
        titleLength?_doubled body hclosed]
      exact congrArg (false :: ·) (hidden_append ..)
    | char c =>
      have hc : c ≠ '"' ∧ c ≠ '\'' := hclosed
      have hsingle : (Lexeme.char c).text ++ lexText ls = c :: lexText ls := rfl
      rw [hsingle, hidden, if_neg (by simpa using hc.1), if_neg (by simpa using hc.2)]
      rfl

def Bare (prev : Option Char) : List Char → List Char → Prop
  | [], _ => True
  | c :: cs, rest =>
    (FormulaRef.mayFollow prev = true → FormulaRef.at? (c :: (cs ++ rest)) = none) ∧
      Bare (some c) cs rest

/-- Words whose quotes cannot be mistaken: no literal has an apostrophe in it and no title a double
quote, and no reference begins inside of a title that does not begin one itself. -/
def Clear (prev : Option Char) : List Lexeme → Prop
  | [] => True
  | .literal body :: ls => '\'' ∉ body ∧ Clear (some '"') ls
  | .title body :: ls =>
    '"' ∉ body ∧
      (FormulaRef.mayFollow prev = true ∧
          (FormulaRef.at? (lexText (.title body :: ls))).isSome = true ∨
        Bare (some '\'') (doubled '\'' body ++ ['\'']) (lexText ls)) ∧
      Clear (some '\'') ls
  | .char c :: ls => Clear (some c) ls

def Lexeme.quotes : Lexeme → List Bool
  | literal body => true :: List.replicate ((doubled '"' body).length + 1) true
  | title body => false :: List.replicate ((doubled '\'' body).length + 1) false
  | char _ => [false]

theorem inLiteral_append (w : List Char) (c : Char) (rest : List Char) :
    inLiteral (w.length + 1) (w ++ c :: rest) =
      List.replicate (w.length + 1) true ++ inLiteral 0 rest := by
  induction w with
  | nil => rfl
  | cons d w ih => exact congrArg (true :: ·) ih

theorem inLiteral_plain {w : List Char} (h : '"' ∉ w) (rest : List Char) :
    inLiteral 0 (w ++ rest) = List.replicate w.length false ++ inLiteral 0 rest := by
  induction w with
  | nil => rfl
  | cons c w ih =>
    obtain ⟨hc, hw⟩ := not_or.1 (fun h' => h (List.mem_cons.2 h'))
    rw [List.cons_append, inLiteral, if_neg (by simpa using Ne.symm hc), ih hw]
    rfl

theorem mem_of_mem_doubled {q c : Char} {body : List Char} (h : c ∈ doubled q body) : c ∈ body := by
  obtain ⟨d, hd, hc⟩ := List.mem_flatMap.1 h
  split at hc
  · next heq =>
    simp only [List.mem_cons, List.not_mem_nil, or_false, or_self] at hc
    rwa [hc, ← heq]
  · rwa [List.mem_singleton.1 hc]

theorem inLiteral_lexText {ls : List Lexeme} {prev : Option Char} (h : Lexed ls)
    (hclear : Clear prev ls) : inLiteral 0 (lexText ls) = ls.flatMap Lexeme.quotes := by
  induction ls generalizing prev with
  | nil => rfl
  | cons l ls ih =>
    obtain ⟨hclosed, hls⟩ := h
    rw [lexText_cons, List.flatMap_cons]
    cases l with
    | literal body =>
      rw [literal_text_append, inLiteral, if_pos (by decide), literalLength?_doubled body hclosed,
        ← ih hls hclear.2]
      exact congrArg (true :: ·) (inLiteral_append ..)
    | title body =>
      have hplain : '"' ∉ (Lexeme.title body).text := by
        simp only [Lexeme.text, List.mem_cons, List.mem_append, List.not_mem_nil, or_false]
        rintro (h | h | h)
        · cases h
        · exact hclear.1 (mem_of_mem_doubled h)
        · cases h
      rw [inLiteral_plain hplain, ← ih hls hclear.2.2]
      simp [Lexeme.text, Lexeme.quotes, List.replicate_succ]
    | char c =>
      have hc : c ≠ '"' := hclosed.1
      rw [← ih hls hclear]
      have hplain : '"' ∉ [c] := by simpa using Ne.symm hc
      exact inLiteral_plain hplain (lexText ls)

section

variable {prev : Option Char} {c : Char} {cs w rest : List Char} {marks : List Bool}
  {r : FormulaRef}

theorem pieces_none (h : FormulaRef.mayFollow prev = true → FormulaRef.at? (c :: cs) = none) :
    pieces prev 0 marks (c :: cs) = .char c :: pieces (some c) 0 marks.tail cs := by
  have hfound : (if FormulaRef.mayFollow prev then FormulaRef.at? (c :: cs) else none) = none := by
    split
    · next hprev => exact h hprev
    · rfl
  rw [pieces.eq_def]
  simp only [hfound]

theorem pieces_found (hprev : FormulaRef.mayFollow prev = true)
    (h : FormulaRef.at? (c :: (w ++ rest)) = some (r, rest)) :
    pieces prev 0 marks (c :: (w ++ rest)) =
      (if marks.headD false then (c :: w).map .char else [.reference r (c :: w)]) ++
        pieces (some c) w.length marks.tail (w ++ rest) := by
  have hwritten : (c :: (w ++ rest)).take ((w ++ rest).length + 1 - rest.length) = c :: w := by
    rw [List.length_append, show w.length + rest.length + 1 - rest.length = w.length + 1 by omega,
      List.take_succ_cons, List.take_left]
  rw [pieces]
  simp only [hprev, h, if_true, hwritten, List.length_cons, Nat.add_sub_cancel]

theorem readPieces_none
    (h : FormulaRef.mayFollow prev = true → marks.headD false = false →
      FormulaRef.at? (c :: cs) = none) :
    readPieces prev 0 marks (c :: cs) = .char c :: readPieces (some c) 0 marks.tail cs := by
  have hfound : (if FormulaRef.mayFollow prev && !marks.headD false then FormulaRef.at? (c :: cs)
      else none) = none := by
    split
    · next hmay =>
      simp only [Bool.and_eq_true, Bool.not_eq_true'] at hmay
      exact h hmay.1 hmay.2
    · rfl
  rw [readPieces.eq_def]
  simp only [hfound]

theorem readPieces_found (hprev : FormulaRef.mayFollow prev = true)
    (hmark : marks.headD false = false)
    (h : FormulaRef.at? (c :: (w ++ rest)) = some (r, rest)) :
    readPieces prev 0 marks (c :: (w ++ rest)) =
      .reference r (c :: w) :: readPieces (some c) w.length marks.tail (w ++ rest) := by
  have hwritten : (c :: (w ++ rest)).take ((w ++ rest).length + 1 - rest.length) = c :: w := by
    rw [List.length_append, show w.length + rest.length + 1 - rest.length = w.length + 1 by omega,
      List.take_succ_cons, List.take_left]
  rw [readPieces]
  simp only [hprev, hmark, h, Bool.not_false, Bool.and_self, if_true, hwritten, List.length_cons,
    Nat.add_sub_cancel]

theorem pieces_skip (prev : Option Char) (w : List Char) (d : Char) (skip : Nat) (more : List Bool)
    (rest : List Char) (h : marks.length = w.length + 1) :
    pieces prev (w.length + 1 + skip) (marks ++ more) (w ++ d :: rest) =
      pieces (some d) skip more rest := by
  induction w generalizing prev marks with
  | nil =>
    obtain ⟨b, rfl⟩ := List.length_eq_one_iff.1 h
    rw [List.length_nil, Nat.zero_add, Nat.add_comm]
    rfl
  | cons c w ih =>
    obtain ⟨b, marks, rfl⟩ := List.exists_cons_of_length_eq_add_one h
    rw [List.length_cons, Nat.add_right_comm]
    exact ih (some c) (Nat.succ.inj h)

theorem readPieces_skip (prev : Option Char) (w : List Char) (d : Char) (skip : Nat)
    (more : List Bool) (rest : List Char) (h : marks.length = w.length + 1) :
    readPieces prev (w.length + 1 + skip) (marks ++ more) (w ++ d :: rest) =
      readPieces (some d) skip more rest := by
  induction w generalizing prev marks with
  | nil =>
    obtain ⟨b, rfl⟩ := List.length_eq_one_iff.1 h
    rw [List.length_nil, Nat.zero_add, Nat.add_comm]
    rfl
  | cons c w ih =>
    obtain ⟨b, marks, rfl⟩ := List.exists_cons_of_length_eq_add_one h
    rw [List.length_cons, Nat.add_right_comm]
    exact ih (some c) (Nat.succ.inj h)

theorem readPieces_hidden (prev : Option Char) (w : List Char) (d : Char) (more : List Bool)
    (rest : List Char) :
    readPieces prev 0 (List.replicate (w.length + 1) true ++ more) (w ++ d :: rest) =
      (w ++ [d]).map .char ++ readPieces (some d) 0 more rest := by
  induction w generalizing prev with
  | nil => exact readPieces_none fun _ hmark => Bool.noConfusion hmark
  | cons c w ih =>
    rw [List.cons_append, readPieces_none fun _ hmark => Bool.noConfusion hmark]
    exact congrArg (FormulaPiece.char c :: ·) (ih (some c))

theorem pieces_bare {w : List Char} {d : Char} (h : Bare prev (w ++ [d]) rest)
    (hmarks : marks.length = w.length + 1) (more : List Bool) :
    pieces prev 0 (marks ++ more) (w ++ d :: rest) =
      (w ++ [d]).map .char ++ pieces (some d) 0 more rest := by
  induction w generalizing prev marks with
  | nil =>
    obtain ⟨b, rfl⟩ := List.length_eq_one_iff.1 hmarks
    exact pieces_none h.1
  | cons c w ih =>
    obtain ⟨b, marks, rfl⟩ := List.exists_cons_of_length_eq_add_one hmarks
    rw [List.cons_append] at h
    obtain ⟨hnone, hbare⟩ := h
    rw [List.append_assoc, List.singleton_append] at hnone
    exact (pieces_none hnone).trans
      (congrArg (FormulaPiece.char c :: ·) (ih hbare (Nat.succ.inj hmarks)))

theorem pieces_literal (prev : Option Char) {w : List Char} (h : '\'' ∉ w) {skip : Nat}
    (hskip : skip ≤ w.length) (more : List Bool) (rest : List Char) :
    pieces prev skip (List.replicate (w.length + 1) true ++ more) (w ++ '"' :: rest) =
      ((w ++ ['"']).drop skip).map .char ++ pieces (some '"') 0 more rest := by
  induction w generalizing prev skip with
  | nil =>
    obtain rfl := Nat.le_zero.1 hskip
    refine pieces_none fun _ => ?_
    by_contra hsome
    obtain ⟨⟨r, rest'⟩, hfound⟩ := Option.ne_none_iff_exists'.1 hsome
    obtain ⟨w, -, hunquoted, -⟩ := FormulaRef.at?_cons hfound
    exact (hunquoted (by decide) _ List.mem_cons_self).1 rfl
  | cons c w ih =>
    obtain ⟨hc, hw⟩ := not_or.1 (fun h' => h (List.mem_cons.2 h'))
    cases skip with
    | succ skip => exact ih (some c) hw (Nat.le_of_succ_le_succ hskip)
    | zero =>
      cases hprev : FormulaRef.mayFollow prev with
      | false =>
        rw [List.cons_append, pieces_none fun h => by rw [hprev] at h; cases h]
        exact congrArg (FormulaPiece.char c :: ·) (ih (some c) hw (Nat.zero_le _))
      | true =>
        cases hfound : FormulaRef.at? (c :: (w ++ '"' :: rest)) with
        | none =>
          rw [List.cons_append, pieces_none fun _ => hfound]
          exact congrArg (FormulaPiece.char c :: ·) (ih (some c) hw (Nat.zero_le _))
        | some found =>
          obtain ⟨r, rest'⟩ := found
          obtain ⟨u, hu, hunquoted, -⟩ := FormulaRef.at?_cons hfound
          have hunquoted := hunquoted (Ne.symm hc)
          -- A reference without an apostrophe has no quote in it, so that it ends within the
          -- literal.
          obtain ⟨v, rfl, rfl⟩ : ∃ v, w = u ++ v ∧ rest' = v ++ '"' :: rest := by
            rcases List.append_eq_append_iff.1 hu with ⟨v, rfl, hv⟩ | ⟨v, rfl, rfl⟩
            · cases v with
              | nil => exact ⟨[], by simp, by simpa using hv.symm⟩
              | cons d v =>
                obtain ⟨rfl, -⟩ := List.cons.inj hv
                exact absurd rfl (hunquoted '"' (by simp)).1
            · exact ⟨v, rfl, rfl⟩
          have hlength : u.length ≤ (u ++ v).length := by simp
          have hih := ih (some c) hw hlength
          simp only [List.append_assoc, List.drop_left] at hih
          rw [hu] at hfound
          simp only [List.cons_append, List.append_assoc, List.length_cons, List.replicate_succ]
          rw [pieces_found hprev hfound]
          simp only [List.headD_cons, if_true, List.tail_cons]
          rw [← List.cons_append, ← List.replicate_succ, hih]
          simp

end

def Agrees (prev : Option Char) (ls : List Lexeme) : Prop :=
  ∀ skip, FormulaRef.Unquoted ((lexText ls).take skip) →
    pieces prev skip (ls.flatMap Lexeme.quotes) (lexText ls) =
      readPieces prev skip (ls.flatMap Lexeme.hides) (lexText ls)

variable {prev : Option Char} {ls : List Lexeme} {body : List Char} {c : Char}

theorem unquoted_nil : FormulaRef.Unquoted [] := fun _ h => nomatch h

theorem agrees_literal (hbody : '\'' ∉ body) (h : Agrees (some '"') ls) :
    Agrees prev (.literal body :: ls) := by
  intro skip hskip
  cases skip with
  | succ skip => exact absurd rfl (hskip '"' List.mem_cons_self).1
  | zero =>
    have hbody : '\'' ∉ '"' :: doubled '"' body := by
      rintro (_ | ⟨_, h⟩)
      exact hbody (mem_of_mem_doubled h)
    have hpieces := pieces_literal prev hbody (Nat.zero_le _) (ls.flatMap Lexeme.quotes) (lexText ls)
    have hread := readPieces_hidden prev ('"' :: doubled '"' body) '"' (ls.flatMap Lexeme.hides)
      (lexText ls)
    rw [lexText_cons, literal_text_append]
    exact hpieces.trans ((congrArg _ (h 0 unquoted_nil)).trans hread.symm)

theorem agrees_char (hc : c ≠ '\'') (h : Agrees (some c) ls) : Agrees prev (.char c :: ls) := by
  intro skip hskip
  change pieces prev skip (false :: ls.flatMap Lexeme.quotes) (c :: lexText ls) =
    readPieces prev skip (false :: ls.flatMap Lexeme.hides) (c :: lexText ls)
  cases skip with
  | succ skip => exact h skip fun d hd => hskip d (List.mem_cons_of_mem c hd)
  | zero =>
    by_cases hnone : FormulaRef.mayFollow prev = true → FormulaRef.at? (c :: lexText ls) = none
    · rw [pieces_none hnone, readPieces_none fun h _ => hnone h]
      exact congrArg (FormulaPiece.char c :: ·) (h 0 unquoted_nil)
    · obtain ⟨hprev, hsome⟩ := Classical.not_imp.1 hnone
      obtain ⟨⟨r, rest⟩, hfound⟩ := Option.ne_none_iff_exists'.1 hsome
      obtain ⟨w, hw, hunquoted, -⟩ := FormulaRef.at?_cons hfound
      have hnext := h w.length (by
        rw [hw, List.take_left]
        exact fun d hd => hunquoted hc d (List.mem_cons_of_mem c hd))
      rw [hw] at hfound hnext ⊢
      rw [pieces_found hprev hfound, readPieces_found hprev rfl hfound]
      exact congrArg (FormulaPiece.reference r (c :: w) :: ·) hnext

theorem agrees_bare (hbare : Bare prev (Lexeme.title body).text (lexText ls))
    (h : Agrees (some '\'') ls) : Agrees prev (.title body :: ls) := by
  intro skip hskip
  cases skip with
  | succ skip => exact absurd rfl (hskip '\'' List.mem_cons_self).2
  | zero =>
    have hlength : (Lexeme.title body).quotes.length = ('\'' :: doubled '\'' body).length + 1 := by
      simp [Lexeme.quotes]
    have hpieces := pieces_bare hbare hlength (ls.flatMap Lexeme.quotes)
    have hread := readPieces_hidden (some '\'') (doubled '\'' body) '\'' (ls.flatMap Lexeme.hides)
      (lexText ls)
    have hnone : FormulaRef.mayFollow prev = true →
        FormulaRef.at? ('\'' :: (doubled '\'' body ++ '\'' :: lexText ls)) = none := by
      simpa using hbare.1
    rw [lexText_cons, title_text_append]
    refine hpieces.trans (Eq.symm ((readPieces_none fun h _ => hnone h).trans ?_))
    change FormulaPiece.char '\'' :: readPieces (some '\'') 0
      (List.replicate _ true ++ ls.flatMap Lexeme.hides) _ = _
    rw [hread, ← h 0 unquoted_nil]
    rfl

theorem agrees_reference (hclosed : (Lexeme.title body).Closed (lexText ls))
    (hprev : FormulaRef.mayFollow prev = true)
    (hsome : (FormulaRef.at? (lexText (.title body :: ls))).isSome = true)
    (h : Agrees (some '\'') ls) : Agrees prev (.title body :: ls) := by
  intro skip hskip
  cases skip with
  | succ skip => exact absurd rfl (hskip '\'' List.mem_cons_self).2
  | zero =>
    rw [lexText_cons, title_text_append] at hsome ⊢
    obtain ⟨⟨r, rest⟩, hfound⟩ := Option.isSome_iff_exists.1 hsome
    obtain ⟨u, hu, hunquoted⟩ := FormulaRef.at?_title (quotedTitle?_doubled body hclosed) hfound
    have hnext := h u.length (by rwa [hu, List.take_left])
    have hsplit : doubled '\'' body ++ '\'' :: lexText ls =
        (doubled '\'' body ++ '\'' :: u) ++ rest := by
      simp [hu]
    have hlength : (doubled '\'' body ++ '\'' :: u).length =
        (doubled '\'' body).length + 1 + u.length := by
      rw [List.length_append, List.length_cons]
      omega
    have hquotes : (Lexeme.title body).quotes.tail.length = (doubled '\'' body).length + 1 :=
      List.length_replicate
    have hhides : (Lexeme.title body).hides.tail.length = (doubled '\'' body).length + 1 :=
      List.length_replicate
    have hpieces := pieces_skip (some '\'') (doubled '\'' body) '\'' u.length
      (ls.flatMap Lexeme.quotes) (lexText ls) hquotes
    have hread := readPieces_skip (some '\'') (doubled '\'' body) '\'' u.length
      (ls.flatMap Lexeme.hides) (lexText ls) hhides
    rw [hsplit] at hfound ⊢
    rw [pieces_found hprev hfound, readPieces_found hprev rfl hfound, ← hsplit, hlength]
    exact congrArg (FormulaPiece.reference r _ :: ·) (hpieces.trans (hnext.trans hread.symm))

theorem agrees_of_clear (hlexed : Lexed ls) (hclear : Clear prev ls) : Agrees prev ls := by
  induction ls generalizing prev with
  | nil => exact fun _ _ => rfl
  | cons l ls ih =>
    obtain ⟨hclosed, hls⟩ := hlexed
    cases l with
    | literal body => exact agrees_literal hclear.1 (ih hls hclear.2)
    | title body =>
      obtain ⟨-, hbegins, hclear⟩ := hclear
      by_cases hbegin : FormulaRef.mayFollow prev = true ∧
          (FormulaRef.at? (lexText (.title body :: ls))).isSome = true
      · exact agrees_reference hclosed hbegin.1 hbegin.2 (ih hls hclear)
      · refine agrees_bare ⟨fun hprev => ?_, hbegins.resolve_left hbegin⟩ (ih hls hclear)
        have := not_and.1 hbegin hprev
        rwa [Option.not_isSome_iff_eq_none] at this
    | char c => exact agrees_char hclosed.2 (ih hls hclear)

theorem split_eq_reading (hlexed : Lexed ls) (hclear : Clear none ls) :
    split (lexText ls) = reading (lexText ls) := by
  rw [split, reading, inLiteral_lexText hlexed hclear, hidden_lexText hlexed]
  exact agrees_of_clear hlexed hclear 0 unquoted_nil

end Formula

end SheetTemplate
