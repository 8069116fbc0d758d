import Mathlib.Data.List.TakeWhile
import SheetTemplate.Proofs.Formula.Naming

namespace SheetTemplate

open Number Text

namespace FormulaRef

def Unquoted (cs : List Char) : Prop := ∀ c ∈ cs, c ≠ '"' ∧ c ≠ '\''

theorem Unquoted.append {cs ds : List Char} (hc : Unquoted cs) (hd : Unquoted ds) :
    Unquoted (cs ++ ds) := fun c h => (List.mem_append.1 h).elim (hc c) (hd c)

def Inner (cs : List Char) : Prop := Unquoted cs ∧ '!' ∉ cs

theorem Inner.append {cs ds : List Char} (hc : Inner cs) (hd : Inner ds) : Inner (cs ++ ds) :=
  ⟨hc.1.append hd.1, fun h => (List.mem_append.1 h).elim hc.2 hd.2⟩

theorem inner_of_forall {p : Char → Bool} {cs : List Char} (h : ∀ c ∈ cs, p c = true)
    (hp : p '"' = false ∧ p '\'' = false ∧ p '!' = false) : Inner cs := by
  have hne : ∀ c ∈ cs, ∀ d, p d = false → c ≠ d := by
    rintro c hc d hd rfl
    rw [h c hc] at hd
    cases hd
  exact ⟨fun c hc => ⟨hne c hc _ hp.1, hne c hc _ hp.2.1⟩, fun hc => hne _ hc _ hp.2.2 rfl⟩

theorem dropDollar_split (cs : List Char) :
    ∃ d, cs = d ++ dropDollar cs ∧ (∀ c ∈ d, c = '$') ∧
      ∀ after : List Char, (∀ c ∈ after.head?, c ≠ '$') → dropDollar (d ++ after) = after := by
  unfold dropDollar
  split
  · next cs => exact ⟨['$'], rfl, by simp, fun _ _ => rfl⟩
  · exact ⟨[], rfl, by simp, fun after h => dropDollar_of_head h⟩

theorem span_split (p : Char → Bool) (cs : List Char) :
    ∃ w rest, cs.span p = (w, rest) ∧ cs = w ++ rest ∧ (∀ c ∈ w, p c = true) ∧
      ∀ c ∈ rest.head?, p c = false := by
  refine ⟨cs.takeWhile p, cs.dropWhile p, List.span_eq_takeWhile_dropWhile ..,
    List.takeWhile_append_dropWhile.symm, fun c hc => ?_, fun c hc => ?_⟩
  · exact List.mem_takeWhile_imp hc
  · have := List.head?_dropWhile_not p cs
    rw [hc] at this
    simpa using this

theorem head?_append_congr {w : List Char} (hw : w ≠ []) (cs ds : List Char) :
    (w ++ cs).head? = (w ++ ds).head? := by
  cases w with
  | nil => exact absurd rfl hw
  | cons c w => rfl

theorem inner_dollars {d : List Char} (h : ∀ c ∈ d, c = '$') : Inner d :=
  inner_of_forall (p := (· == '$')) (fun c hc => beq_iff_eq.2 (h c hc)) (by decide)

theorem cellAt?_split {cs rest : List Char} {p : Pos} (h : cellAt? cs = some (p, rest)) :
    ∃ w, cs = w ++ rest ∧ w ≠ [] ∧ Inner w ∧
      ∀ after : List Char, (∀ c ∈ after.head?, isDecimal c = false) →
        cellAt? (w ++ after) = some (p, after) := by
  obtain ⟨d, hd, hdollar, hdrop⟩ := dropDollar_split cs
  obtain ⟨letters, cs', hspan, hcs, hletters, hstop⟩ :=
    span_split SheetTitle.isAsciiLetter (dropDollar cs)
  obtain ⟨d', hd', hdollar', hdrop'⟩ := dropDollar_split cs'
  obtain ⟨digits, rest', hspan', hcs', hdigits, -⟩ := span_split isDecimal (dropDollar cs')
  simp only [cellAt?, hspan, hspan'] at h
  split at h
  · next col row hcol hrow =>
    split at h
    · next hlength =>
      obtain ⟨hp, rfl⟩ := Prod.mk.inj (Option.some.inj h)
      have hne : letters ≠ [] := by
        rintro rfl
        cases hcol
      have hne' : digits ≠ [] := by
        rintro rfl
        cases hrow
      -- The word is a dollar sign or none, the letters, a dollar sign or none, and the digits.
      refine ⟨d ++ letters ++ (d' ++ digits), ?_, by simp [hne], ?_, fun after hafter => ?_⟩
      · rw [hd, hcs, hd', hcs']
        simp only [List.append_assoc]
      · refine ((inner_dollars hdollar).append (inner_of_forall hletters (by decide))).append
          ((inner_dollars hdollar').append (inner_of_forall hdigits (by decide)))
      · have hfirst : dropDollar (d ++ (letters ++ (d' ++ (digits ++ after)))) =
            letters ++ (d' ++ (digits ++ after)) := by
          refine hdrop _ fun c hc => ?_
          have hmem : c ∈ letters := by
            rw [head?_append_congr hne _ [], List.append_nil] at hc
            exact List.mem_of_mem_head? hc
          rintro rfl
          exact absurd (hletters _ hmem) (by decide)
        have hsecond : dropDollar (d' ++ (digits ++ after)) = digits ++ after := by
          refine hdrop' _ fun c hc => ?_
          have hmem : c ∈ digits := by
            rw [head?_append_congr hne' _ [], List.append_nil] at hc
            exact List.mem_of_mem_head? hc
          rintro rfl
          exact absurd (hdigits _ hmem) (by decide)
        have hspan : (letters ++ (d' ++ (digits ++ after))).span SheetTitle.isAsciiLetter =
            (letters, d' ++ (digits ++ after)) := by
          refine span_append hletters ?_
          rw [hd', hcs', ← List.append_assoc, head?_append_congr (by simp [hne']) _ after,
            List.append_assoc] at hstop
          exact hstop
        have hspan' : (digits ++ after).span isDecimal = (digits, after) :=
          span_append hdigits hafter
        simp only [List.append_assoc, cellAt?, hfirst, hspan, hsecond, hspan', hcol, hrow,
          if_pos hlength, hp]
    · cases h
  · cases h

theorem rangeAt?_split {sheet? : Option (List Char)} {cs rest : List Char} {r : FormulaRef}
    (h : rangeAt? sheet? cs = some (r, rest)) :
    ∃ w, cs = w ++ rest ∧ w ≠ [] ∧ Inner w ∧ rangeAt? sheet? w = some (r, []) := by
  simp only [rangeAt?, Option.bind_eq_bind] at h
  obtain ⟨⟨first, after⟩, hfirst, h⟩ := Option.bind_eq_some_iff.1 h
  obtain ⟨w, hw, hne, hinner, hagain⟩ := cellAt?_split hfirst
  split at h
  · next found hfound =>
    cases h
    split at hfound
    · next heq =>
      cases heq
      split at hfound
      · next last _ hlast =>
        split at hfound
        · cases hfound
          obtain ⟨w', hw', -, hinner', hagain'⟩ := cellAt?_split hlast
          have hcolon : Inner [':'] := inner_of_forall (p := (· == ':')) (by simp) (by decide)
          refine ⟨w ++ (':' :: w'), ?_, by simp, hinner.append (hcolon.append hinner'), ?_⟩
          · rw [hw, hw', List.append_assoc]
            rfl
          · have hfirst := hagain (':' :: w') fun c hc => by
              cases hc
              decide
            have hlast := hagain' [] fun c hc => absurd hc (Option.not_mem_none c)
            rw [List.append_nil] at hlast
            simp only [rangeAt?, hfirst, hlast, Option.bind_eq_bind, Option.bind_some, mayEnd,
              if_true]
        · cases hfound
      · cases hfound
    · cases hfound
  · split at h
    · cases h
      have hfirst := hagain [] fun c hc => absurd hc (Option.not_mem_none c)
      rw [List.append_nil] at hfirst
      refine ⟨w, hw, hne, hinner, ?_⟩
      simp only [rangeAt?, hfirst, Option.bind_eq_bind, Option.bind_some, mayEnd, if_true]
    · cases h

theorem quotedTitle?_split {cs title rest : List Char} (h : quotedTitle? cs = some (title, rest)) :
    ∃ t, cs = t ++ rest ∧ ∀ after : List Char, (∀ c ∈ after.head?, c ≠ '\'') →
      quotedTitle? (t ++ after) = some (title, after) := by
  induction cs using quotedTitle?.induct generalizing title with
  | case1 => cases h
  | case2 cs ih =>
    rw [quotedTitle?] at h
    obtain ⟨⟨title', rest'⟩, hcs, h⟩ := Option.map_eq_some_iff.1 h
    cases h
    obtain ⟨t, rfl, hagain⟩ := ih hcs
    refine ⟨'\'' :: '\'' :: t, rfl, fun after hafter => ?_⟩
    rw [List.cons_append, List.cons_append, quotedTitle?, hagain after hafter]
    rfl
  | case3 cs hnot =>
    rw [quotedTitle?] at h
    · cases h
      refine ⟨['\''], rfl, fun after hafter => ?_⟩
      rw [List.cons_append, List.nil_append, quotedTitle?]
      rintro ds rfl
      exact hafter _ rfl rfl
    · exact hnot
  | case4 c cs hc hquote ih =>
    rw [quotedTitle?] at h
    · obtain ⟨⟨title', rest'⟩, hcs, h⟩ := Option.map_eq_some_iff.1 h
      cases h
      obtain ⟨t, rfl, hagain⟩ := ih hcs
      refine ⟨c :: t, rfl, fun after hafter => ?_⟩
      rw [List.cons_append, quotedTitle?, hagain after hafter]
      · rfl
      · exact fun _ heq => absurd heq hquote
      · exact hquote
    · exact hc
    · exact hquote

theorem sheetAt?_quoted (cs : List Char) :
    sheetAt? ('\'' :: cs) =
      match (quotedTitle? cs).filter fun (title, _) => !title.isEmpty with
      | some (title, '!' :: rest) => some (title, rest)
      | _ => none := rfl

theorem sheetAt?_plain {c : Char} (cs : List Char) (hc : c ≠ '\'')
    (hstart : SheetTitle.isPlainStart c = true) :
    sheetAt? (c :: cs) =
      match (c :: cs).span fun c => isWord c || c == '.' with
      | (title, '!' :: rest) => some (title, rest)
      | _ => none := by
  unfold sheetAt?
  split
  · next heq => exact absurd (List.cons.inj heq).1 hc
  · next heq =>
    obtain ⟨rfl, rfl⟩ := List.cons.inj heq
    simp only [hstart, if_true]
    split <;> simp_all
  · next heq => cases heq

theorem sheetAt?_split {cs title rest : List Char} (h : sheetAt? cs = some (title, rest)) :
    ∃ w, cs = w ++ '!' :: rest ∧ (cs.head? ≠ some '\'' → Unquoted w) ∧
      ∀ after, sheetAt? (w ++ '!' :: after) = some (title, after) := by
  cases cs with
  | nil => cases h
  | cons c cs =>
    by_cases hc : c = '\''
    · subst hc
      rw [sheetAt?_quoted] at h
      split at h
      · next title' rest' hquoted =>
        cases h
        obtain ⟨hquoted, hne⟩ := Option.filter_eq_some_iff.1 hquoted
        obtain ⟨t, rfl, hagain⟩ := quotedTitle?_split hquoted
        refine ⟨'\'' :: t, rfl, fun hhead => absurd rfl hhead, fun after => ?_⟩
        have := hagain ('!' :: after) fun c hc => by
          cases hc
          decide
        rw [List.cons_append, sheetAt?_quoted, this, Option.filter_some, if_pos hne]
        rfl
      · cases h
    · have hstart : SheetTitle.isPlainStart c = true := by
        by_contra hstart
        simp [sheetAt?, hstart] at h
      obtain ⟨w, rest', hspan, hcs, hw, -⟩ := span_split (fun c => isWord c || c == '.') (c :: cs)
      rw [sheetAt?_plain cs hc hstart, hspan] at h
      split at h
      · next title' rest' heq =>
        cases h
        cases heq
        refine ⟨title, hcs, fun _ => (inner_of_forall hw (by decide)).1, fun after => ?_⟩
        have hmark : ∀ c ∈ ('!' :: after).head?, (isWord c || c == '.') = false := by
          rintro c ⟨⟩
          decide
        have hspan := span_append hw hmark
        cases title with
        | nil =>
          cases hcs
          exact absurd hstart (by decide)
        | cons d title =>
          obtain ⟨rfl, -⟩ := List.cons.inj hcs
          rw [List.cons_append] at hspan ⊢
          rw [sheetAt?_plain _ hc hstart, hspan]
          rfl
      · cases h

theorem mark_of_sheetAt? {cs title rest : List Char} (h : sheetAt? cs = some (title, rest)) :
    '!' ∈ cs := by
  obtain ⟨w, rfl, -⟩ := sheetAt?_split h
  simp

theorem at?_split {cs rest : List Char} {r : FormulaRef} (h : at? cs = some (r, rest)) :
    ∃ w, cs = w ++ rest ∧ w ≠ [] ∧ (cs.head? ≠ some '\'' → Unquoted w) ∧ at? w = some (r, []) := by
  simp only [at?, Option.bind_eq_bind] at h
  split at h
  · next found hfound =>
    cases h
    obtain ⟨⟨title, cs'⟩, hsheet, hrange⟩ := Option.bind_eq_some_iff.1 hfound
    obtain ⟨w, rfl, hunquoted, hagain⟩ := sheetAt?_split hsheet
    obtain ⟨w', rfl, -, hinner, hagain'⟩ := rangeAt?_split hrange
    refine ⟨w ++ '!' :: w', by simp, by simp, fun hhead => ?_, ?_⟩
    · exact (hunquoted hhead).append
        (List.forall_mem_cons.2 ⟨by decide, hinner.1⟩)
    · simp only [at?, hagain, hagain', Option.bind_eq_bind, Option.bind_some]
  · obtain ⟨w, rfl, hne, hinner, hagain⟩ := rangeAt?_split h
    refine ⟨w, rfl, hne, fun _ => hinner.1, ?_⟩
    have hsheet : sheetAt? w = none := by
      cases hw : sheetAt? w with
      | none => rfl
      | some found => exact absurd (mark_of_sheetAt? hw) hinner.2
    simp only [at?, hsheet, hagain, Option.bind_eq_bind, Option.bind_none]

theorem at?_cons {c : Char} {cs rest : List Char} {r : FormulaRef}
    (h : at? (c :: cs) = some (r, rest)) :
    ∃ w, cs = w ++ rest ∧ (c ≠ '\'' → Unquoted (c :: w)) ∧ at? (c :: w) = some (r, []) := by
  obtain ⟨w, hw, hne, hunquoted, hagain⟩ := at?_split h
  obtain ⟨d, w, rfl⟩ := List.exists_cons_of_ne_nil hne
  obtain ⟨rfl, rfl⟩ := List.cons.inj hw
  exact ⟨w, rfl, fun hc => hunquoted fun hhead => hc (Option.some.inj hhead), hagain⟩

theorem at?_title {cs title after rest : List Char} {r : FormulaRef}
    (htitle : quotedTitle? cs = some (title, after)) (h : at? ('\'' :: cs) = some (r, rest)) :
    ∃ u, after = u ++ rest ∧ Unquoted u := by
  simp only [at?, Option.bind_eq_bind] at h
  split at h
  · next found hfound =>
    cases h
    obtain ⟨⟨title', cs'⟩, hsheet, hrange⟩ := Option.bind_eq_some_iff.1 hfound
    rw [sheetAt?_quoted] at hsheet
    split at hsheet
    · next hquoted =>
      cases hsheet
      rw [htitle] at hquoted
      obtain ⟨hquoted, -⟩ := Option.filter_eq_some_iff.1 hquoted
      cases hquoted
      obtain ⟨w, rfl, -, hinner, -⟩ := rangeAt?_split hrange
      exact ⟨'!' :: w, rfl, List.forall_mem_cons.2 ⟨by decide, hinner.1⟩⟩
    · cases hsheet
  · obtain ⟨w, hw, hne, hinner, -⟩ := rangeAt?_split h
    obtain ⟨c, w, rfl⟩ := List.exists_cons_of_ne_nil hne
    obtain ⟨rfl, -⟩ := List.cons.inj hw
    exact absurd rfl (hinner.1 '\'' List.mem_cons_self).2

end FormulaRef

end SheetTemplate
