import Mathlib.Data.List.Induction
import Mathlib.Data.List.TakeDrop
import SheetTemplate.Formula.Reference

namespace SheetTemplate

open Number Text

namespace Column

theorem letter_spec {k : Nat} (h : k < 26) :
    letterValue? (letter k) = some (k + 1) ∧ SheetTitle.isAsciiLetter (letter k) = true ∧
      isLetter (letter k) = true ∧ upperChar (letter k) = [letter k] ∧
      isWord (letter k) = true := by
  revert h k
  decide

theorem letter_starts {k : Nat} (h : k < 26) :
    letter k ≠ '\'' ∧ SheetTitle.isPlainStart (letter k) = true := by
  revert h k
  decide

theorem letter_ne_dollar {k : Nat} (h : k < 26) : letter k ≠ '$' := by
  revert h k
  decide

theorem letters_eq (n : Nat) :
    letters n = if n < 26 then [letter n] else letters (n / 26 - 1) ++ [letter (n % 26)] := by
  rw [letters]

theorem forall_mem_letters {P : Char → Prop} (hP : ∀ k < 26, P (letter k)) (n : Nat) :
    ∀ c ∈ letters n, P c := by
  induction n using Nat.strongRecOn with
  | ind n ih =>
    intro c hc
    rw [letters_eq] at hc
    split at hc
    · next h =>
      rw [List.mem_singleton.1 hc]
      exact hP n h
    · rcases List.mem_append.1 hc with hc | hc
      · exact ih (n / 26 - 1) (by omega) c hc
      · rw [List.mem_singleton.1 hc]
        exact hP (n % 26) (Nat.mod_lt _ (by decide))

theorem number?_append (cs : List Char) (c : Char) :
    number? (cs ++ [c]) =
      (number? cs).bind fun n => (letterValue? c).map fun d => 26 * n + d := by
  rw [number?, List.foldl_append]
  rfl

theorem number?_letters (n : Nat) : number? (letters n) = some (n + 1) := by
  induction n using Nat.strongRecOn with
  | ind n ih =>
    rw [letters_eq]
    split
    · next h =>
      have := number?_append [] (letter n)
      rw [List.nil_append] at this
      rw [this, (letter_spec h).1]
      simp [number?]
    · have hmod : n % 26 < 26 := Nat.mod_lt _ (by decide)
      rw [number?_append, ih _ (by omega), (letter_spec hmod).1]
      simp only [Option.bind_some, Option.map_some, Option.some.injEq]
      omega

theorem letters_ne_nil (n : Nat) : letters n ≠ [] := by
  rw [letters_eq]
  split <;> simp

theorem length_letters_le {n : Nat} (h : n ≤ last) : (letters n).length ≤ 3 := by
  have one : ∀ k < 26, (letters k).length = 1 := by
    intro k hk
    rw [letters_eq, if_pos hk]
    rfl
  have two : ∀ k < 702, (letters k).length ≤ 2 := by
    intro k hk
    rw [letters_eq]
    split
    · simp
    · have := one (k / 26 - 1) (by omega)
      simp only [List.length_append, List.length_singleton]
      omega
  rw [letters_eq]
  split
  · simp
  · have := two (n / 26 - 1) (by simp only [last] at h; omega)
    simp only [List.length_append, List.length_singleton]
    omega

theorem upper_letters (n : Nat) : upper (letters n) = letters n := by
  have h : ∀ cs : List Char, (∀ c ∈ cs, upperChar c = [c]) → upper cs = cs := by
    intro cs hcs
    induction cs with
    | nil => rfl
    | cons c cs ih =>
      have hc := hcs c List.mem_cons_self
      have := ih fun d hd => hcs d (List.mem_cons_of_mem _ hd)
      rw [upper] at this ⊢
      rw [List.flatMap_cons, hc, this]
      rfl
  exact h _ (forall_mem_letters (fun k hk => (letter_spec hk).2.2.2.1) n)

theorem ofLetters?_letters {n : Nat} (h : n ≤ last) : ofLetters? (letters n) = some n := by
  have hall : (letters n).all isLetter = true :=
    List.all_eq_true.2 (forall_mem_letters (fun k hk => (letter_spec hk).2.2.1) n)
  have hlength := length_letters_le h
  rw [ofLetters?, upper_letters, number?_letters, hall]
  simp only [List.isEmpty_iff, letters_ne_nil, Bool.not_true, Bool.or_false, Bool.or_eq_true,
    decide_eq_true_eq]
  rw [if_neg]
  rintro (h | h)
  · cases h
  · omega

theorem number?_bound {cs : List Char} {n : Nat} (h : number? cs = some n) :
    25 * n + 26 ≤ Nat.pow 26 (cs.length + 1) := by
  induction cs using List.reverseRecOn generalizing n with
  | nil =>
    cases h
    decide
  | append_singleton cs c ih =>
    rw [number?_append] at h
    obtain ⟨m, hm, h⟩ := Option.bind_eq_some_iff.1 h
    obtain ⟨d, hd, rfl⟩ := Option.map_eq_some_iff.1 h
    have hd : d ≤ 26 := by
      unfold letterValue? at hd
      split at hd
      · next hc =>
        cases hd
        have : c.toNat ≤ 'Z'.toNat := by
          simp only [Bool.and_eq_true, decide_eq_true_eq] at hc
          exact hc.2
        simp only [Char.reduceToNat] at this
        omega
      · cases hd
    have := ih hm
    have hpow : Nat.pow 26 (cs.length + 1 + 1) = Nat.pow 26 (cs.length + 1) * 26 := rfl
    rw [List.length_append, List.length_singleton, hpow]
    omega

theorem le_last_of_ofLetters? {cs : List Char} {n : Nat} (h : ofLetters? cs = some n) :
    n ≤ last := by
  simp only [ofLetters?] at h
  split at h
  · cases h
  · next hc =>
    simp only [Bool.or_eq_true, decide_eq_true_eq, not_or, Nat.not_lt] at hc
    split at h
    · next m hm =>
      cases h
      have hbound := number?_bound hm
      have hpow : Nat.pow 26 ((upper cs).length + 1) ≤ Nat.pow 26 4 :=
        Nat.pow_le_pow_right (by decide) (by omega)
      rw [show Nat.pow 26 4 = 456976 from rfl] at hpow
      simp only [last]
      omega
    · cases h

theorem name_eq {n : Int} (h0 : 0 ≤ n) (h : n ≤ last) :
    name n = .ok (String.ofList (letters n.toNat)) := by
  rw [name, if_neg (by omega), if_neg (by omega)]

end Column

namespace Number

theorem baseDigit?_of_isDigit {c : Char} (h : c.isDigit = true) :
    baseDigit? c = some (c.toNat - 48) ∧ c.toNat - 48 < 10 ∧ isDecimal c = true ∧ c ≠ '_' := by
  have hrange : 48 ≤ c.toNat ∧ c.toNat ≤ 57 := by
    simp only [Char.isDigit, Bool.and_eq_true, decide_eq_true_eq] at h
    exact h
  have hvalue : digitValue? c = some (c.toNat - 48) := by
    rw [digitValue?, if_pos (by omega), if_pos h]
  refine ⟨by rw [baseDigit?, hvalue], by omega, by rw [isDecimal, hvalue]; rfl, ?_⟩
  rintro rfl
  simp at hrange

theorem after_eq {cs : List Char} (h : ∀ c ∈ cs, c.isDigit = true) (n : Nat) :
    readDigits?.after 10 n cs = some (Nat.ofDigitChars 10 cs n) := by
  induction cs generalizing n with
  | nil => rfl
  | cons c cs ih =>
    obtain ⟨hvalue, hlt, -, hne⟩ := baseDigit?_of_isDigit (h c List.mem_cons_self)
    rw [readDigits?.after]
    · simp only [hvalue, if_pos hlt]
      rw [ih (fun d hd => h d (List.mem_cons_of_mem _ hd)), Nat.ofDigitChars_cons, Nat.mul_comm]
      rfl
    · exact hne

theorem natDigits_eq (n : Nat) : natDigits n = Nat.toDigits 10 n := by
  rw [natDigits, Nat.toString_eq_repr, Nat.toList_repr]

theorem isDigit_of_mem_natDigits {n : Nat} {c : Char} (h : c ∈ natDigits n) : c.isDigit = true := by
  rw [natDigits_eq] at h
  exact Nat.isDigit_of_mem_toDigits (by decide) (by decide) h

theorem readDigits?_natDigits (n : Nat) : readDigits? 10 (natDigits n) = some n := by
  have hall := fun c (hc : c ∈ natDigits n) => isDigit_of_mem_natDigits hc
  have hvalue : Nat.ofDigitChars 10 (natDigits n) 0 = n := by
    rw [natDigits_eq, Nat.ofDigitChars_ten_toDigits]
  cases hd : natDigits n with
  | nil =>
    rw [natDigits_eq] at hd
    exact absurd hd Nat.toDigits_ne_nil
  | cons c cs =>
    rw [hd] at hall hvalue
    obtain ⟨hc, hlt, -⟩ := baseDigit?_of_isDigit (hall c List.mem_cons_self)
    rw [readDigits?, readDigits?.start, hc]
    simp only [if_pos hlt]
    rw [after_eq fun d hd => hall d (List.mem_cons_of_mem _ hd), ← hvalue, Nat.ofDigitChars_cons]
    rfl

theorem toList_showInt {n : Int} (h : 0 ≤ n) : (showInt n).toList = natDigits n.toNat := by
  rw [showInt, if_neg (by omega), natDigits]
  congr 2
  omega

end Number

structure Pos.Named (p : Pos) : Prop where
  row : -1 ≤ p.row
  left : 0 ≤ p.col
  right : p.col ≤ Column.last

def Pos.written (p : Pos) : List Char :=
  Column.letters p.col.toNat ++ natDigits (p.row + 1).toNat

theorem CellRef.name_eq {r : CellRef} (h : r.pos.Named) :
    r.name = .ok (String.ofList r.pos.written) := by
  have hname : Column.name r.col = .ok (String.ofList (Column.letters r.col.toNat)) :=
    Column.name_eq h.left h.right
  have hrow : showInt (r.row + 1) = String.ofList (natDigits (r.row + 1).toNat) := by
    have := h.row
    rw [← toList_showInt (by simp only [CellRef.pos] at this; omega), String.ofList_toList]
  rw [CellRef.name, hname]
  change Except.ok (_ ++ showInt (r.row + 1)) = _
  rw [hrow, ← String.ofList_append]
  rfl

theorem span_append {p : Char → Bool} {xs ys : List Char} (hx : ∀ c ∈ xs, p c = true)
    (hy : ∀ c ∈ ys.head?, p c = false) : (xs ++ ys).span p = (xs, ys) := by
  rw [List.span_eq_takeWhile_dropWhile, List.takeWhile_append_of_pos hx,
    List.dropWhile_append_of_pos hx]
  cases ys with
  | nil => simp
  | cons c cs =>
    have := hy c rfl
    simp [this]

namespace FormulaRef

theorem dropDollar_of_head {cs : List Char} (h : ∀ c ∈ cs.head?, c ≠ '$') : dropDollar cs = cs := by
  unfold dropDollar
  split
  · exact absurd rfl (h '$' rfl)
  · rfl

theorem head_letters (n : Nat) (rest : List Char) :
    ∃ k < 26, (Column.letters n ++ rest).head? = some (Column.letter k) := by
  have h := Column.forall_mem_letters (P := fun c => ∃ k < 26, c = Column.letter k)
    (fun k hk => ⟨k, hk, rfl⟩) n
  cases hc : Column.letters n with
  | nil => exact absurd hc (Column.letters_ne_nil n)
  | cons c cs =>
    rw [hc] at h
    obtain ⟨k, hk, rfl⟩ := h c List.mem_cons_self
    exact ⟨k, hk, rfl⟩

theorem head_natDigits (n : Nat) (rest : List Char) :
    ∃ c, c.isDigit = true ∧ (natDigits n ++ rest).head? = some c := by
  cases hc : natDigits n with
  | nil =>
    rw [natDigits_eq] at hc
    exact absurd hc Nat.toDigits_ne_nil
  | cons c cs =>
    refine ⟨c, isDigit_of_mem_natDigits (n := n) ?_, rfl⟩
    rw [hc]
    exact List.mem_cons_self

theorem isDigit_not {c : Char} (h : c.isDigit = true) :
    SheetTitle.isAsciiLetter c = false ∧ c ≠ '$' := by
  have hrange : 48 ≤ c.toNat ∧ c.toNat ≤ 57 := by
    simp only [Char.isDigit, Bool.and_eq_true, decide_eq_true_eq] at h
    exact h
  constructor
  · have hsmall : ¬ 'a' ≤ c := fun h => by
      have : 'a'.toNat ≤ c.toNat := h
      simp only [Char.reduceToNat] at this
      omega
    have hlarge : ¬ 'A' ≤ c := fun h => by
      have : 'A'.toNat ≤ c.toNat := h
      simp only [Char.reduceToNat] at this
      omega
    simp [SheetTitle.isAsciiLetter, hsmall, hlarge]
  · rintro rfl
    simp at hrange

theorem cellAt?_written {p : Pos} (h : p.Named) {rest : List Char}
    (hrest : ∀ c ∈ rest.head?, isDecimal c = false) :
    cellAt? (p.written ++ rest) = some (p, rest) := by
  have hletters : ((p.written ++ rest).span SheetTitle.isAsciiLetter) =
      (Column.letters p.col.toNat, natDigits (p.row + 1).toNat ++ rest) := by
    rw [Pos.written, List.append_assoc]
    apply span_append
    · exact Column.forall_mem_letters (fun k hk => (Column.letter_spec hk).2.1) _
    · intro c hc
      obtain ⟨d, hd, hhead⟩ := head_natDigits (p.row + 1).toNat rest
      rw [hhead] at hc
      cases hc
      exact (isDigit_not hd).1
  have hdigits : (natDigits (p.row + 1).toNat ++ rest).span isDecimal =
      (natDigits (p.row + 1).toNat, rest) := by
    apply span_append _ hrest
    intro c hc
    exact (baseDigit?_of_isDigit (isDigit_of_mem_natDigits hc)).2.2.1
  have hfirst : dropDollar (p.written ++ rest) = p.written ++ rest := by
    apply dropDollar_of_head
    intro c hc
    rw [Pos.written, List.append_assoc] at hc
    obtain ⟨k, hk, hhead⟩ := head_letters p.col.toNat (natDigits (p.row + 1).toNat ++ rest)
    rw [hhead] at hc
    cases hc
    exact Column.letter_ne_dollar hk
  have hsecond : dropDollar (natDigits (p.row + 1).toNat ++ rest) =
      natDigits (p.row + 1).toNat ++ rest := by
    apply dropDollar_of_head
    intro c hc
    obtain ⟨d, hd, hhead⟩ := head_natDigits (p.row + 1).toNat rest
    rw [hhead] at hc
    cases hc
    exact (isDigit_not hd).2
  -- What was cut off reads back as the column and the row.
  have hcol : p.col.toNat ≤ Column.last := by
    have := h.right
    omega
  rw [cellAt?, hfirst, hletters]
  simp only [hsecond, hdigits, Column.ofLetters?_letters hcol, readDigits?_natDigits]
  rw [if_pos (Column.length_letters_le hcol)]
  have := h.row
  have := h.left
  cases p
  simp only [Option.some.injEq, Prod.mk.injEq, and_true, Pos.mk.injEq] at *
  omega

theorem isWord_of_mem_written {p : Pos} {c : Char} (h : c ∈ p.written) : isWord c = true := by
  rcases List.mem_append.1 h with h | h
  · exact Column.forall_mem_letters (P := fun c => isWord c = true)
      (fun k hk => (Column.letter_spec hk).2.2.2.2) _ c h
  · have hd := isDigit_of_mem_natDigits h
    have hsmall : c.toNat < 128 := by
      simp only [Char.isDigit, Bool.and_eq_true, decide_eq_true_eq] at hd
      have : c.toNat ≤ 57 := hd.2
      omega
    rw [isWord, if_pos hsmall, Char.isAlphanum, hd, Bool.or_true, Bool.true_or]

def Ends (rest : List Char) : Prop :=
  ∀ c ∈ rest.head?, isWord c = false ∧ isDecimal c = false ∧ c ∉ ['(', '!', '.', ':']

theorem mayEnd_of_ends {rest : List Char} (h : Ends rest) : mayEnd rest = true := by
  cases rest with
  | nil => rfl
  | cons c cs =>
    obtain ⟨hw, -, hc⟩ := h c rfl
    simp only [List.mem_cons, not_or] at hc
    simp [mayEnd, hw, hc.1, hc.2.1]

theorem sheetAt?_of_plain {c : Char} {cs title rest : List Char} (hquote : c ≠ '\'')
    (hstart : SheetTitle.isPlainStart c = true)
    (hspan : (c :: cs).span (fun c => isWord c || c == '.') = (title, rest))
    (hmark : ∀ c ∈ rest.head?, c ≠ '!') : sheetAt? (c :: cs) = none := by
  unfold sheetAt?
  split
  · next heq => exact absurd (List.cons.inj heq).1 hquote
  · next heq =>
    obtain ⟨rfl, rfl⟩ := List.cons.inj heq
    simp only [hstart, if_true, hspan]
    split
    · next heq =>
      obtain ⟨-, rfl⟩ := Prod.mk.inj (Option.some.inj heq)
      exact absurd rfl (hmark '!' rfl)
    · rfl
  · next heq => cases heq

theorem sheetAt?_written (p : Pos) {rest : List Char}
    (h : ∀ c ∈ rest.head?, isWord c = false ∧ c ≠ '.' ∧ c ≠ '!') :
    sheetAt? (p.written ++ rest) = none := by
  have hspan : (p.written ++ rest).span (fun c => isWord c || c == '.') = (p.written, rest) := by
    apply span_append
    · intro c hc
      rw [isWord_of_mem_written hc, Bool.true_or]
    · intro c hc
      obtain ⟨hw, hdot, -⟩ := h c hc
      simp [hw, hdot]
  obtain ⟨k, hk, hhead⟩ := head_letters p.col.toNat (natDigits (p.row + 1).toNat ++ rest)
  rw [← List.append_assoc] at hhead
  change (p.written ++ rest).head? = _ at hhead
  cases hcs : p.written ++ rest with
  | nil =>
    rw [hcs] at hhead
    cases hhead
  | cons c cs =>
    rw [hcs] at hhead hspan
    cases hhead
    obtain ⟨hquote, hstart⟩ := Column.letter_starts hk
    exact sheetAt?_of_plain hquote hstart hspan fun c hc => (h c hc).2.2

section

variable {sheet? : Option (List Char)} {p q : Pos} {rest : List Char}

theorem rangeAt?_written (h : p.Named) (hrest : Ends rest) :
    rangeAt? sheet? (p.written ++ rest) = some (⟨sheet?, p, none⟩, rest) := by
  have hcell := cellAt?_written h fun c hc => (hrest c hc).2.1
  have hcolon : ∀ c cs, rest = c :: cs → c ≠ ':' := by
    rintro c cs rfl
    have := (hrest c rfl).2.2
    simp only [List.mem_cons, not_or] at this
    exact this.2.2.2.1
  simp only [rangeAt?, hcell, Option.bind_eq_bind, Option.bind_some, mayEnd_of_ends hrest]
  split
  · next h =>
    split at h
    · exact absurd rfl (hcolon _ _ rfl)
    · cases h
  · rfl

theorem rangeAt?_range (hp : p.Named) (hq : q.Named) (hrest : Ends rest) :
    rangeAt? sheet? (p.written ++ ':' :: (q.written ++ rest)) =
      some (⟨sheet?, p, some q⟩, rest) := by
  have hfirst : cellAt? (p.written ++ ':' :: (q.written ++ rest)) =
      some (p, ':' :: (q.written ++ rest)) := by
    refine cellAt?_written hp fun c hc => ?_
    cases hc
    decide
  have hlast := cellAt?_written hq fun c hc => (hrest c hc).2.1
  simp only [rangeAt?, hfirst, hlast, Option.bind_eq_bind, Option.bind_some,
    mayEnd_of_ends hrest, if_true]

theorem at?_written (h : p.Named) (hrest : Ends rest) :
    at? (p.written ++ rest) = some (⟨none, p, none⟩, rest) := by
  have hsheet : sheetAt? (p.written ++ rest) = none := by
    refine sheetAt?_written p fun c hc => ?_
    obtain ⟨hw, -, hc⟩ := hrest c hc
    simp only [List.mem_cons, not_or] at hc
    exact ⟨hw, hc.2.2.1, hc.2.1⟩
  simp only [at?, hsheet, Option.bind_eq_bind, Option.bind_none, rangeAt?_written h hrest]

theorem at?_range (hp : p.Named) (hq : q.Named) (hrest : Ends rest) :
    at? (p.written ++ ':' :: (q.written ++ rest)) = some (⟨none, p, some q⟩, rest) := by
  have hsheet : sheetAt? (p.written ++ ':' :: (q.written ++ rest)) = none := by
    refine sheetAt?_written p fun c hc => ?_
    cases hc
    decide
  simp only [at?, hsheet, Option.bind_eq_bind, Option.bind_none, rangeAt?_range hp hq hrest]

end

theorem named_of_cellAt? {cs rest : List Char} {p : Pos} (h : cellAt? cs = some (p, rest)) :
    p.Named := by
  simp only [cellAt?] at h
  split at h
  · next col row hcol hrow =>
    split at h
    · cases h
      have := Column.le_last_of_ofLetters? hcol
      refine ⟨?_, ?_, ?_⟩ <;> simp only <;> omega
    · cases h
  · cases h

def Named (r : FormulaRef) : Prop := r.first.Named ∧ ∀ p ∈ r.last?, p.Named

theorem named_of_rangeAt? {sheet? : Option (List Char)} {cs rest : List Char} {r : FormulaRef}
    (h : rangeAt? sheet? cs = some (r, rest)) : r.Named := by
  simp only [rangeAt?, Option.bind_eq_bind] at h
  obtain ⟨⟨first, after⟩, hfirst, h⟩ := Option.bind_eq_some_iff.1 h
  have hnamed := named_of_cellAt? hfirst
  split at h
  · next found hfound =>
    cases h
    split at hfound
    · split at hfound
      · next last _ hlast =>
        split at hfound
        · cases hfound
          refine ⟨hnamed, fun p hp => ?_⟩
          cases hp
          exact named_of_cellAt? hlast
        · cases hfound
      · cases hfound
    · cases hfound
  · split at h
    · cases h
      exact ⟨hnamed, fun p hp => nomatch hp⟩
    · cases h

theorem named_of_at? {cs rest : List Char} {r : FormulaRef} (h : at? cs = some (r, rest)) :
    r.Named := by
  simp only [at?, Option.bind_eq_bind] at h
  split at h
  · next found hfound =>
    cases h
    obtain ⟨_, _, hr⟩ := Option.bind_eq_some_iff.1 hfound
    exact named_of_rangeAt? hr
  · exact named_of_rangeAt? h

end FormulaRef

namespace Formula

theorem named_of_mem_pieces {prev : Option Char} {skip : Nat} {literal : List Bool}
    {cs : List Char} {r : FormulaRef} {written : List Char}
    (h : .reference r written ∈ pieces prev skip literal cs) : r.Named := by
  induction cs generalizing prev skip literal with
  | nil => cases h
  | cons c cs ih =>
    cases skip with
    | succ skip => exact ih h
    | zero =>
      simp only [pieces] at h
      split at h
      · next found _ hfound =>
        rcases List.mem_append.1 h with h | h
        · split at h
          · obtain ⟨_, _, h⟩ := List.mem_map.1 h
            cases h
          · cases List.mem_singleton.1 h
            split at hfound
            · exact FormulaRef.named_of_at? hfound
            · cases hfound
        · exact ih h
      · rcases List.mem_cons.1 h with h | h
        · cases h
        · exact ih h

end Formula

end SheetTemplate
