import SheetTemplate.Expr.Token
import SheetTemplate.Proofs.Expr.Reading

namespace SheetTemplate

open Text

/-- A text of characters, quoted texts and braces in pairs. Braces and quotes stand nowhere else;
`quoted` says which texts can stand between two quotes. -/
inductive Formed (quoted : Char → List Char → Prop) : List Char → Prop
  | nil : Formed quoted []
  | char {c : Char} {cs : List Char} (hquote : Segment.isQuote c = false) (hopen : c ≠ '\x7b')
      (hclose : c ≠ '\x7d') (hcs : Formed quoted cs) : Formed quoted (c :: cs)
  | quote {q : Char} {body cs : List Char} (hquote : Segment.isQuote q = true)
      (hbody : quoted q body) (hcs : Formed quoted cs) : Formed quoted (q :: (body ++ q :: cs))
  | braces {inner cs : List Char} (hinner : Formed quoted inner) (hcs : Formed quoted cs) :
      Formed quoted ('\x7b' :: (inner ++ '\x7d' :: cs))

def IsString (q : Char) (body : List Char) : Prop :=
  Expr.stringBody? q (body ++ [q]) = some (body, [])

namespace Formed

variable {quoted other : Char → List Char → Prop} {cs ds : List Char}

theorem mono (h : ∀ q body, quoted q body → other q body) (hcs : Formed quoted cs) :
    Formed other cs := by
  induction hcs with
  | nil => exact .nil
  | char hquote hopen hclose _ ih => exact .char hquote hopen hclose ih
  | quote hquote hbody _ ih => exact .quote hquote (h _ _ hbody) ih
  | braces _ _ ihinner ih => exact .braces ihinner ih

theorem plain (h : ∀ c ∈ cs, Segment.isQuote c = false ∧ c ≠ '\x7b' ∧ c ≠ '\x7d') :
    Formed quoted cs := by
  induction cs with
  | nil => exact .nil
  | cons c cs ih =>
    obtain ⟨⟨hquote, hopen, hclose⟩, hcs⟩ := List.forall_mem_cons.1 h
    exact .char hquote hopen hclose (ih hcs)

theorem append (hcs : Formed quoted cs) (hds : Formed quoted ds) : Formed quoted (cs ++ ds) := by
  induction hcs with
  | nil => exact hds
  | char hquote hopen hclose _ ih => exact .char hquote hopen hclose ih
  | quote hquote hbody _ ih => simpa using Formed.quote hquote hbody ih
  | braces hinner _ _ ih => simpa using Formed.braces hinner ih

def Closes (quoted : Char → List Char → Prop) : Nat → List Char → Prop
  | 0, cs => Formed quoted cs
  | depth + 1, cs => ∃ front back, cs = front ++ '\x7d' :: back ∧ Formed quoted front ∧
      Closes quoted depth back

theorem Closes.append {depth : Nat} (hcs : Formed quoted cs) (hds : Closes quoted depth ds) :
    Closes quoted depth (cs ++ ds) := by
  cases depth with
  | zero => exact hcs.append hds
  | succ depth =>
    obtain ⟨front, back, rfl, hfront, hback⟩ := hds
    exact ⟨cs ++ front, back, (List.append_assoc ..).symm, hcs.append hfront, hback⟩

theorem Closes.brace {depth : Nat} (hcs : Closes quoted (depth + 1) cs) :
    Closes quoted depth ('\x7b' :: cs) := by
  obtain ⟨front, back, rfl, hfront, hback⟩ := hcs
  have := Closes.append (hfront.braces .nil) hback
  simpa using this

end Formed

namespace Segment

variable {c q : Char} {cs e body rest : List Char} {depth : Nat}

def prepend (front : List Char) (found : List Char × List Char) : List Char × List Char :=
  (front ++ found.1, found.2)

theorem map_prepend (front back : List Char) (found : Option (List Char × List Char)) :
    (found.map (prepend back)).map (prepend front) = found.map (prepend (front ++ back)) := by
  cases found <;> simp [prepend]

def closing? (depth : Nat) (cs : List Char) : Option (List Char × List Char) :=
  close .standard depth none 0 cs

theorem closing?_open (depth : Nat) (cs : List Char) :
    closing? depth ('\x7b' :: cs) = (closing? (depth + 1) cs).map (prepend ['\x7b']) := rfl

theorem closing?_close_zero (cs : List Char) : closing? 0 ('\x7d' :: cs) = some ([], cs) := rfl

theorem closing?_close_succ (depth : Nat) (cs : List Char) :
    closing? (depth + 1) ('\x7d' :: cs) = (closing? depth cs).map (prepend ['\x7d']) := rfl

theorem closing?_char (hquote : isQuote c = false) (hopen : c ≠ '\x7b') (hclose : c ≠ '\x7d')
    (depth : Nat) (cs : List Char) :
    closing? depth (c :: cs) = (closing? depth cs).map (prepend [c]) := by
  by_cases hnested : startsWith ['$', '\x7b'] (c :: cs) = true
  · -- an opening mark counts as its brace, whichever way its first character is passed over
    obtain ⟨rest, hrest⟩ := Option.isSome_iff_exists.1 hnested
    obtain ⟨rfl, rfl⟩ : c = '$' ∧ cs = '\x7b' :: rest := by
      simpa using eq_append_of_dropPrefix? hrest
    rfl
  · have hnone : dropPrefix? ['\x7d'] (c :: cs) = none := by
      rw [dropPrefix?, if_neg (by simpa using Ne.symm hclose)]
    rw [closing?, close.eq_def]
    simp only [Marks.standard, hquote, hnested, hnone, beq_iff_eq, hopen, beq_self_eq_true,
      Bool.false_eq_true, if_false, Bool.true_and]
    rfl

theorem closing?_quote (hquote : isQuote q = true) (depth : Nat) (cs : List Char) :
    closing? depth (q :: cs) = (close .standard depth (some q) 0 cs).map (prepend [q]) := by
  rw [closing?, close.eq_def]
  simp only [hquote, if_true]
  rfl

theorem close_quoted (q : Char) (depth : Nat) (c : Char) (cs : List Char) :
    close .standard depth (some q) 0 (c :: cs) =
      (if c = q then closing? depth cs else close .standard depth (some q) 0 cs).map
        (prepend [c]) := by
  rw [close.eq_def]
  simp only [beq_iff_eq]
  split <;> rfl

theorem close_quoted_append (h : q ∉ body) (depth : Nat) (cs : List Char) :
    close .standard depth (some q) 0 (body ++ q :: cs) =
      (closing? depth cs).map (prepend (body ++ [q])) := by
  induction body with
  | nil => rw [List.nil_append, close_quoted, if_pos rfl]; rfl
  | cons c body ih =>
    rw [List.mem_cons, not_or] at h
    rw [List.cons_append, close_quoted, if_neg (Ne.symm h.1), ih h.2, map_prepend]
    rfl

theorem closing?_append (h : Formed (fun q body => q ∉ body) e) (depth : Nat) (cs : List Char) :
    closing? depth (e ++ cs) = (closing? depth cs).map (prepend e) := by
  induction h generalizing depth cs with
  | nil => exact (congrFun Option.map_id _).symm
  | char hquote hopen hclose _ ih =>
    rw [List.cons_append, closing?_char hquote hopen hclose, ih, map_prepend]
    rfl
  | quote hquote hbody _ ih =>
    rw [List.cons_append, closing?_quote hquote, List.append_assoc, List.cons_append,
      close_quoted_append hbody, ih, map_prepend, map_prepend]
    simp
  | braces _ _ ihinner ih =>
    rw [List.cons_append, closing?_open, List.append_assoc, ihinner, List.cons_append,
      closing?_close_succ, ih, map_prepend, map_prepend, map_prepend]
    simp

theorem closes_of_close :
    (closing? depth cs = some (body, rest) →
      Formed.Closes (fun q body => q ∉ body) depth body) ∧
    ∀ q, close .standard depth (some q) 0 cs = some (body, rest) → ∃ front back,
      body = front ++ q :: back ∧ q ∉ front ∧
        Formed.Closes (fun q body => q ∉ body) depth back := by
  -- within quoted text, what is passed over is first the rest of it and its quote
  induction cs generalizing depth body with
  | nil => exact ⟨nofun, nofun⟩
  | cons c cs ih =>
    constructor
    · intro h
      by_cases hquote : isQuote c = true
      · rw [closing?_quote hquote, Option.map_eq_some_iff] at h
        obtain ⟨found, hfound, heq⟩ := h
        cases heq
        obtain ⟨front, back, hbody, hfront, hback⟩ := ih.2 c hfound
        have := Formed.Closes.append (.quote hquote hfront .nil) hback
        simpa [hbody] using this
      by_cases hopen : c = '\x7b'
      · subst hopen
        rw [closing?_open, Option.map_eq_some_iff] at h
        obtain ⟨found, hfound, heq⟩ := h
        cases heq
        exact (ih.1 hfound).brace
      by_cases hclose : c = '\x7d'
      · subst hclose
        cases depth with
        | zero =>
          cases h
          exact .nil
        | succ depth =>
          rw [closing?_close_succ, Option.map_eq_some_iff] at h
          obtain ⟨found, hfound, heq⟩ := h
          cases heq
          exact ⟨[], found.1, rfl, .nil, ih.1 hfound⟩
      · have hquote : isQuote c = false := Bool.not_eq_true _ ▸ hquote
        rw [closing?_char hquote hopen hclose, Option.map_eq_some_iff] at h
        obtain ⟨found, hfound, heq⟩ := h
        cases heq
        exact Formed.Closes.append (.char hquote hopen hclose .nil) (ih.1 hfound)
    · intro q h
      rw [close_quoted, Option.map_eq_some_iff] at h
      obtain ⟨found, hfound, heq⟩ := h
      cases heq
      split at hfound
      · next hc => exact ⟨[], found.1, by rw [hc]; rfl, List.not_mem_nil, ih.1 hfound⟩
      · next hc =>
        obtain ⟨front, back, hbody, hfront, hback⟩ := ih.2 q hfound
        refine ⟨c :: front, back, by rw [hbody]; rfl, ?_, hback⟩
        rw [List.mem_cons, not_or]
        exact ⟨Ne.symm hc, hfront⟩

theorem closing?_eq_some_iff :
    closing? 0 (e ++ '\x7d' :: rest) = some (e, rest) ↔ Formed (fun q body => q ∉ body) e := by
  constructor
  · exact fun h => closes_of_close.1 h
  · intro h
    rw [closing?_append h, closing?_close_zero, Option.map_some, prepend, List.append_nil]

theorem splitFirst?_opening {before : List Char} (h : hasOpening .standard before = false)
    (rest : List Char) :
    splitFirst? ['$', '\x7b'] (before ++ '$' :: '\x7b' :: rest) = some (before, rest) := by
  induction before with
  | nil => rfl
  | cons c before ih =>
    have hsplit : splitFirst? ['$', '\x7b'] (c :: before) = none :=
      Option.not_isSome_iff_eq_none.1 (Bool.eq_false_iff.1 h)
    rw [splitFirst?] at hsplit
    split at hsplit
    · cases hsplit
    · next hhead =>
      have hbefore : hasOpening .standard before = false := by
        rw [hasOpening, containsText, Option.isSome_eq_false_iff, Option.isNone_iff_eq_none]
        exact Option.map_eq_none_iff.1 hsplit
      have hnone : dropPrefix? ['$', '\x7b'] (c :: (before ++ '$' :: '\x7b' :: rest)) = none := by
        cases before with
        | nil => simp [dropPrefix?]
        | cons d before => simpa [dropPrefix?] using hhead
      rw [List.cons_append, splitFirst?, hnone, ih hbefore]
      rfl

theorem written_standard (e : List Char) :
    written .standard (.expression e) = '$' :: '\x7b' :: (e ++ ['\x7d']) := rfl

theorem next?_written {before : List Char} (h : hasOpening .standard before = false)
    (after : List Char) : next? .standard (before ++ (written .standard (.expression e) ++ after)) =
      (closing? 0 (e ++ '\x7d' :: after)).map fun found => (before, found.1, found.2) := by
  have hsplit : splitFirst? Marks.standard.opening
      (before ++ (written .standard (.expression e) ++ after)) =
        some (before, e ++ '\x7d' :: after) := by
    rw [written_standard, List.cons_append, List.cons_append, List.append_assoc]
    exact splitFirst?_opening h _
  rw [next?, hsplit]
  rfl

theorem split_of_unopened (h : hasOpening .standard cs = false) :
    split .standard cs = literals cs := by
  have hnext : next? .standard cs = none := by
    rw [next?, Option.not_isSome_iff_eq_none.1 (Bool.eq_false_iff.1 h)]
  rw [split, hnext]

/-- An expression is recognised: as the whole of a text, and between any literal texts. -/
def Recognised (e : List Char) : Prop :=
  single? .standard (written .standard (.expression e)) = some e ∧
    ∀ before after, hasOpening .standard before = false → hasOpening .standard after = false →
      split .standard (before ++ (written .standard (.expression e) ++ after)) =
        literals before ++ expression e :: literals after

theorem strip_written (e : List Char) :
    strip (written .standard (.expression e)) = written .standard (.expression e) := by
  apply strip_of_ends
  · intro c hc
    cases hc
    decide
  · intro c hc
    rw [written_standard, ← List.cons_append, ← List.cons_append, List.getLast?_concat] at hc
    cases hc
    decide

theorem formed_of_single? (h : single? .standard (written .standard (.expression e)) = some e) :
    Formed (fun q body => q ∉ body) e := by
  have hsplit : split .standard (written .standard (.expression e)) = [expression e] := by
    rw [single?, strip_written] at h
    split at h
    · next he =>
      cases h
      exact he
    · cases h
  have hopening : hasOpening .standard [] = false := rfl
  have hnext := next?_written (e := e) hopening []
  rw [List.nil_append, List.append_nil] at hnext
  rw [split, hnext] at hsplit
  cases hclose : closing? 0 (e ++ ['\x7d']) with
  | none =>
    rw [hclose] at hsplit
    cases hsplit
  | some found =>
    rw [hclose] at hsplit
    obtain ⟨rfl, -⟩ : found.1 = e ∧ split .standard found.2 = [] := by
      simpa [literals] using hsplit
    exact closes_of_close.1 hclose

/-- Every expression is recognised in which quotes and braces are paired, and no other. So one of
complete strings is recognised if no string has a quote of its own kind in it, which a backslash
would escape. -/
theorem recognised_iff (e : List Char) : (Recognised e ↔ Formed (fun q body => q ∉ body) e) ∧
    (Formed (fun q body => IsString q body ∧ q ∉ body) e → Recognised e) := by
  have hiff : Recognised e ↔ Formed (fun q body => q ∉ body) e := by
    constructor
    · exact fun h => formed_of_single? h.1
    · intro h
      have hsplit : ∀ before after, hasOpening .standard before = false →
          hasOpening .standard after = false →
            split .standard (before ++ (written .standard (.expression e) ++ after)) =
              literals before ++ expression e :: literals after := by
        intro before after hbefore hafter
        rw [split, next?_written hbefore, closing?_eq_some_iff.2 h, Option.map_some]
        dsimp only
        rw [split_of_unopened hafter]
      refine ⟨?_, hsplit⟩
      have := hsplit [] [] rfl rfl
      rw [List.nil_append, List.append_nil] at this
      rw [single?, strip_written, this]
      rfl
  exact ⟨hiff, fun h => hiff.2 (h.mono fun q body hbody => hbody.2)⟩

theorem mapping_recognised :
    Recognised "\x7b'\x7d': x\x7d".toList ∧
      Formed IsString "'it\\'s'".toList ∧ ¬Recognised "'it\\'s'".toList := by
  refine ⟨(recognised_iff _).2 ?_, ?_, ?_⟩
  · have hkey : IsString '\'' ['\x7d'] ∧ '\'' ∉ ['\x7d'] := ⟨rfl, by decide⟩
    have hpair : Formed (fun q body => IsString q body ∧ q ∉ body)
        ('\'' :: (['\x7d'] ++ '\'' :: ": x".toList)) :=
      .quote rfl hkey (.plain (by simp [Segment.isQuote]))
    exact hpair.braces .nil
  · have hstring : Formed IsString ('\'' :: ("it\\'s".toList ++ ['\''])) := .quote rfl rfl .nil
    exact hstring
  · rintro ⟨hsingle, -⟩
    exact absurd hsingle (by decide +kernel)

end Segment

end SheetTemplate
