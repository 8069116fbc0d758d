import Mathlib.Data.List.Chain
import Mathlib.Data.List.Infix
import SheetTemplate.Proofs.Expr.Reading

/-!
A text cut into literal texts and expressions. The segments written back are the text, each cut goes
to the first opening mark that has a closing mark, and no text is left over or cut twice.
-/

namespace SheetTemplate

namespace Text

theorem length_le_of_splitFirst? {sep cs before after front back : List Char}
    (h : splitFirst? sep cs = some (before, after)) (hcs : cs = front ++ (sep ++ back)) :
    before.length ≤ front.length := by
  induction cs generalizing before front with
  | nil =>
    rw [splitFirst?] at h
    split at h
    · cases h
      exact Nat.zero_le _
    · cases h
  | cons c cs ih =>
    rw [splitFirst?] at h
    split at h
    · cases h
      exact Nat.zero_le _
    · next hhead =>
      obtain ⟨⟨b, a⟩, hrest, heq⟩ := Option.map_eq_some_iff.1 h
      cases heq
      cases front with
      | nil =>
        rw [hcs, List.nil_append, dropPrefix?_self] at hhead
        cases hhead
      | cons d front =>
        cases hcs
        exact Nat.succ_le_succ (ih hrest rfl)

theorem not_infix_of_splitFirst? {sep cs before after : List Char} (hsep : sep ≠ [])
    (h : splitFirst? sep cs = some (before, after)) : ¬ sep <:+: before ++ sep.dropLast := by
  rintro ⟨front, back, heq⟩
  have hcs : cs = front ++ (sep ++ (back ++ [sep.getLast hsep] ++ after)) := by
    have hend : cs = before ++ sep.dropLast ++ [sep.getLast hsep] ++ after := by
      rw [List.append_assoc before, List.dropLast_concat_getLast hsep]
      exact eq_append_of_splitFirst? h
    rw [hend, ← heq]
    simp only [List.append_assoc]
  have hle := length_le_of_splitFirst? h hcs
  have hpos := List.length_pos_iff.2 hsep
  have hlength := congrArg List.length heq
  simp only [List.length_append, List.length_dropLast] at hlength
  omega

theorem splitFirst?_of_not_infix {sep before : List Char} (hsep : sep ≠ [])
    (h : ¬ sep <:+: before ++ sep.dropLast) (after : List Char) :
    splitFirst? sep (before ++ (sep ++ after)) = some (before, after) := by
  induction before with
  | nil =>
    obtain ⟨c, rest, rfl⟩ := List.exists_cons_of_ne_nil hsep
    rw [List.nil_append, List.cons_append, splitFirst?, ← List.cons_append, dropPrefix?_self]
  | cons c before ih =>
    have hrest : ¬ sep <:+: before ++ sep.dropLast := fun hin => h (hin.trans ⟨[c], [], by simp⟩)
    have hhead : dropPrefix? sep (c :: (before ++ (sep ++ after))) = none := by
      rw [Option.eq_none_iff_forall_ne_some]
      intro rest hdrop
      have hwhole : c :: (before ++ (sep ++ after)) =
          c :: before ++ sep.dropLast ++ ([sep.getLast hsep] ++ after) := by
        rw [List.append_assoc _ sep.dropLast, ← List.append_assoc sep.dropLast,
          List.dropLast_concat_getLast]
        rfl
      have hprefix : sep <+: c :: before ++ sep.dropLast := by
        refine List.prefix_of_prefix_length_le ⟨rest, (eq_append_of_dropPrefix? hdrop).symm⟩
          ⟨[sep.getLast hsep] ++ after, hwhole.symm⟩ ?_
        simp only [List.length_append, List.length_cons, List.length_dropLast]
        omega
      exact h hprefix.isInfix
    rw [List.cons_append, splitFirst?, hhead, ih hrest]
    rfl

end Text

open Text

namespace Segment

variable {m : Marks} {cs body rest before : List Char} {segments : List Segment}

/-- How the segments of a text make it up. -/
structure Splits (m : Marks) (cs : List Char) (segments : List Segment) : Prop where
  lossless : segments.flatMap (written m) = cs
  filled : literal [] ∉ segments
  apart : segments.IsChain fun s t => s.isExpression = true ∨ t.isExpression = true
  unopened : ∀ text, literal text ∈ segments.dropLast →
    ¬ m.opening <:+: text ++ m.opening.dropLast
  closed : ∀ e later, (expression e :: later) <:+ segments →
    close m 0 none 0 (e ++ m.closing ++ later.flatMap (written m)) =
      some (e, later.flatMap (written m))
  unclosed : ∀ text, segments.getLast? = some (literal text) → next? m text = none

theorem splits_literals (h : next? m cs = none) : Splits m cs (literals cs) := by
  by_cases hcs : cs = []
  · subst hcs
    refine ⟨rfl, List.not_mem_nil, .nil, nofun, fun e later hlater => ?_, nofun⟩
    cases List.suffix_nil.1 hlater
  have hliterals : literals cs = [literal cs] :=
    if_neg fun hempty => hcs (List.isEmpty_iff.1 hempty)
  rw [hliterals]
  refine ⟨List.append_nil cs, ?_, .singleton _, nofun, ?_, ?_⟩
  · intro hmem
    cases List.mem_singleton.1 hmem
    exact hcs rfl
  · intro e later hlater
    rcases List.suffix_cons_iff.1 hlater with heq | hnil
    · cases heq
    · cases List.suffix_nil.1 hnil
  · intro text htext
    cases htext
    exact h

theorem Splits.expression (h : Splits m rest segments)
    (hclose : close m 0 none 0 (body ++ m.closing ++ rest) = some (body, rest)) :
    Splits m (m.opening ++ body ++ m.closing ++ rest) (.expression body :: segments) where
  lossless := by rw [List.flatMap_cons, h.lossless, written]
  filled := by
    intro hmem
    rcases List.mem_cons.1 hmem with heq | hmem
    · cases heq
    · exact h.filled hmem
  apart := List.isChain_cons.2 ⟨fun _ _ => .inl rfl, h.apart⟩
  unopened := by
    intro text htext
    cases segments with
    | nil => cases htext
    | cons s segments =>
      rcases List.mem_cons.1 htext with heq | hmem
      · cases heq
      · exact h.unopened text hmem
  closed := by
    intro e later hlater
    rcases List.suffix_cons_iff.1 hlater with heq | hlater
    · cases heq
      rw [h.lossless]
      exact hclose
    · exact h.closed e later hlater
  unclosed := by
    intro text htext
    cases segments with
    | nil => cases htext
    | cons s segments => exact h.unclosed text (List.getLast?_cons_cons ▸ htext)

theorem Splits.literal (h : Splits m cs (.expression body :: segments)) (hbefore : before ≠ [])
    (hopening : ¬ m.opening <:+: before ++ m.opening.dropLast) :
    Splits m (before ++ cs) (.literal before :: .expression body :: segments) where
  lossless := by rw [List.flatMap_cons, h.lossless, written]
  filled := by
    intro hmem
    rcases List.mem_cons.1 hmem with heq | hmem
    · cases heq
      exact hbefore rfl
    · exact h.filled hmem
  apart := List.isChain_cons_cons.2 ⟨.inr rfl, h.apart⟩
  unopened := by
    intro text htext
    rw [List.dropLast_cons_cons] at htext
    rcases List.mem_cons.1 htext with heq | hmem
    · cases heq
      exact hopening
    · exact h.unopened text hmem
  closed := by
    intro e later hlater
    rcases List.suffix_cons_iff.1 hlater with heq | hlater
    · cases heq
    · exact h.closed e later hlater
  unclosed := by
    intro text htext
    exact h.unclosed text (List.getLast?_cons_cons ▸ htext)

theorem exists_of_next? (h : next? m cs = some (before, body, rest)) :
    ∃ after, splitFirst? m.opening cs = some (before, after) ∧
      close m 0 none 0 after = some (body, rest) := by
  rw [next?] at h
  split at h
  · cases h
  · next b after hfirst =>
    obtain ⟨found, hclose, heq⟩ := Option.map_eq_some_iff.1 h
    cases heq
    exact ⟨after, hfirst, hclose⟩

-- By induction on the cuts: each takes the first expression off the text.
theorem splits_split (m : Marks) (cs : List Char) : Splits m cs (split m cs) := by
  fun_induction split m cs with
  | case1 cs hnext => exact splits_literals hnext
  | case2 cs before body rest hnext ih =>
    obtain ⟨after, hfirst, hclose⟩ := exists_of_next? hnext
    have hexpression := ih.expression (eq_append_of_close hclose ▸ hclose)
    have hcs := eq_append_of_next? hnext
    by_cases hbefore : before = []
    · rw [hbefore] at hcs ⊢
      exact hcs ▸ hexpression
    · have hliteral := hexpression.literal hbefore (not_infix_of_splitFirst? m.opening_ne hfirst)
      rw [literals, if_neg (by rwa [List.isEmpty_iff]), hcs]
      simpa only [List.append_assoc, List.cons_append, List.nil_append] using hliteral

theorem Splits.tail {s : Segment} (h : Splits m cs (s :: segments)) :
    Splits m (segments.flatMap (written m)) segments where
  lossless := rfl
  filled := fun hmem => h.filled (List.mem_cons_of_mem s hmem)
  apart := h.apart.tail
  unopened := by
    intro text htext
    cases segments with
    | nil => cases htext
    | cons t segments => exact h.unopened text (List.mem_cons_of_mem s htext)
  closed := fun e later hlater => h.closed e later (hlater.trans (List.suffix_cons s segments))
  unclosed := by
    intro text htext
    cases segments with
    | nil => cases htext
    | cons t segments => exact h.unclosed text (List.getLast?_cons_cons.trans htext)

theorem split_of_next? (h : next? m cs = some (before, body, rest)) :
    split m cs = literals before ++ .expression body :: split m rest := by
  rw [split, h]

theorem split_of_next?_none (h : next? m cs = none) : split m cs = literals cs := by
  rw [split, h]

theorem next?_written_append (hopening : ¬ m.opening <:+: before ++ m.opening.dropLast)
    (hclose : close m 0 none 0 (body ++ m.closing ++ rest) = some (body, rest)) :
    next? m (before ++ (written m (.expression body) ++ rest)) = some (before, body, rest) := by
  have hcs : before ++ (written m (.expression body) ++ rest) =
      before ++ (m.opening ++ (body ++ m.closing ++ rest)) := by
    simp only [written, List.append_assoc]
  rw [next?, hcs, splitFirst?_of_not_infix m.opening_ne hopening]
  simp only [hclose, Option.map_some]

theorem Splits.split_expression (h : Splits m cs (.expression body :: segments)) :
    split m cs = .expression body :: split m (segments.flatMap (written m)) := by
  have hopening : ¬ m.opening <:+: [] ++ m.opening.dropLast := by
    intro hin
    have hpos := List.length_pos_iff.2 m.opening_ne
    have := hin.length_le
    rw [List.nil_append, List.length_dropLast] at this
    omega
  have hnext := next?_written_append hopening (h.closed body segments (List.suffix_refl _))
  rw [← h.lossless, List.flatMap_cons, ← List.nil_append (written m _ ++ _), split_of_next? hnext]
  rfl

theorem Splits.literals_eq {text : List Char} (h : Splits m cs (.literal text :: segments)) :
    literals text = [.literal text] := by
  refine if_neg fun hempty => h.filled ?_
  rw [List.isEmpty_iff.1 hempty]
  exact List.mem_cons_self

-- A text is cut in one way only. By induction on the segments: the first opening mark, the
-- closing mark that belongs to it and so what is left to cut are all fixed.
theorem Splits.eq_split (h : Splits m cs segments) : segments = split m cs := by
  induction segments generalizing cs with
  | nil =>
    cases h.lossless
    have hempty : next? m [] = none := by
      rw [next?, splitFirst?, if_neg (by simpa using m.opening_ne)]
    exact (split_of_next?_none hempty).symm
  | cons s later ih =>
    have hlater := ih h.tail
    cases s with
    | expression e => rw [h.split_expression, ← hlater]
    | literal text =>
      cases later with
      | nil =>
        have hcs : text = cs := (List.append_nil text).symm.trans h.lossless
        rw [← hcs, split_of_next?_none (h.unclosed text rfl), h.literals_eq]
      | cons t rest =>
        cases t with
        | literal text' => simpa [isExpression] using h.apart
        | expression e =>
          rw [h.tail.split_expression] at hlater
          have hnext := next?_written_append (h.unopened text List.mem_cons_self)
            (h.closed e rest (List.suffix_cons _ _))
          rw [← h.lossless, List.flatMap_cons, List.flatMap_cons, written, split_of_next? hnext,
            h.literals_eq, ← (List.cons.inj hlater).2]
          rfl

theorem expressions_le (m : Marks) (segments : List Segment) :
    segments.countP isExpression * (m.opening.length + m.closing.length) ≤
      (segments.flatMap (written m)).length := by
  induction segments with
  | nil => simp
  | cons s segments ih =>
    rw [List.flatMap_cons, List.length_append]
    cases s with
    | literal text =>
      rw [List.countP_cons_of_neg Bool.false_ne_true]
      exact Nat.le_add_left_of_le ih
    | expression text =>
      rw [List.countP_cons_of_pos rfl, Nat.succ_mul, written]
      simp only [List.length_append]
      omega

/-- A text is cut without loss: the segments written back are the text, no literal text is empty or
beside another, and an opening mark stands in no literal text but the last. They are the only segments
of which this and the rules for closing marks hold. As each cut takes two marks, there are no more cuts
than pairs of marks have room in the text. -/
theorem lossless_split (m : Marks) (cs : List Char) :
    Splits m cs (split m cs) ∧ (∀ segments, Splits m cs segments → segments = split m cs) ∧
      (split m cs).countP isExpression * (m.opening.length + m.closing.length) ≤ cs.length := by
  have hsplits := splits_split m cs
  refine ⟨hsplits, fun segments h => h.eq_split, ?_⟩
  have := expressions_le m (split m cs)
  rwa [hsplits.lossless] at this

end Segment

end SheetTemplate
