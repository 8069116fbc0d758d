import Mathlib.Data.Nat.Digits.Defs
import SheetTemplate.Proofs.Expr.Reading
import SheetTemplate.Proofs.Workbook.Titles

namespace SheetTemplate

open Number Text

namespace SheetTitle

variable {cs base : List Char} {c : Char} {n : Nat}

/-- What is demanded of a title, but for its last character. -/
structure Fits (cs : List Char) : Prop where
  pos : 1 ≤ cs.length
  short : cs.length ≤ 31
  allowed : ∀ c ∈ cs, c ∉ ['/', '\\', ':', '*', '?', '[', ']']
  start : cs.head? ≠ some '\''

def stripped (cs : List Char) : List Char :=
  trim (· == '\'') (cs.map fun c => if isForbidden c then '_' else c)

theorem cleaned_eq (cs : List Char) :
    cleaned cs = (if (stripped cs).isEmpty then "Sheet".toList else stripped cs).take longest := rfl

theorem head?_stripped (cs : List Char) : (stripped cs).head? ≠ some '\'' := by
  intro h
  obtain ⟨-, -, -, -, -, hhead, -⟩ :=
    exists_of_trim (· == '\'') (cs.map fun c => if isForbidden c then '_' else c)
  cases hhead _ h

theorem getLast?_stripped (cs : List Char) : (stripped cs).getLast? ≠ some '\'' := by
  intro h
  obtain ⟨-, -, -, -, -, -, hlast⟩ :=
    exists_of_trim (· == '\'') (cs.map fun c => if isForbidden c then '_' else c)
  cases hlast _ h

theorem isForbidden_of_mem_stripped (h : c ∈ stripped cs) : isForbidden c = false := by
  obtain ⟨front, back, hcs, -⟩ :=
    exists_of_trim (· == '\'') (cs.map fun c => if isForbidden c then '_' else c)
  have hmem : c ∈ cs.map fun c => if isForbidden c then '_' else c := by
    rw [hcs]
    exact List.mem_append_left _ (List.mem_append_right _ h)
  obtain ⟨d, -, rfl⟩ := List.mem_map.1 hmem
  split
  · rfl
  · next hd => exact Bool.eq_false_iff.2 hd

theorem not_mem_of_isForbidden (h : isForbidden c = false) :
    c ∉ ['/', '\\', ':', '*', '?', '[', ']'] :=
  fun hmem => Bool.eq_false_iff.1 h (List.contains_iff_mem.2 hmem)

theorem fits_cleaned (cs : List Char) : Fits (cleaned cs) where
  pos := List.length_pos_iff.2 (cleaned_ne_nil cs)
  short := List.length_take_le _ _
  allowed := by
    intro c hc
    have hmem := List.mem_of_mem_take (cleaned_eq cs ▸ hc)
    split at hmem
    · have hdefault : ("Sheet".toList.all fun c => !isForbidden c) = true := by decide
      refine not_mem_of_isForbidden ?_
      simpa using List.all_eq_true.1 hdefault c hmem
    · exact not_mem_of_isForbidden (isForbidden_of_mem_stripped hmem)
  start := by
    rw [cleaned_eq, List.head?_take, if_neg (by decide)]
    split
    · decide
    · exact head?_stripped cs

theorem getLast?_cleaned (cs : List Char) :
    (cleaned cs).getLast? = some '\'' ↔ (stripped cs)[30]? = some '\'' := by
  rw [cleaned_eq]
  split
  · next h =>
    rw [List.isEmpty_iff.1 h]
    decide
  · rw [List.getLast?_take, if_neg (by decide), Option.or_eq_some_iff]
    constructor
    · rintro (h | ⟨-, h⟩)
      · exact h
      · exact absurd h (getLast?_stripped cs)
    · exact .inl

theorem length_natDigits_le {k : Nat} (hk : 0 < k) (h : n < 10 ^ k) : (natDigits n).length ≤ k := by
  rw [natDigits_eq]
  exact Nat.toDigits_length 10 n k hk h

theorem fits_numbered (hbase : Fits base) (hn : n < 10 ^ 21) : Fits (numbered base n) := by
  by_cases h : n = 1
  · rw [numbered, if_pos h]
    exact hbase
  have hlength : ('_' :: natDigits n).length ≤ 22 :=
    Nat.succ_le_succ (length_natDigits_le (by decide) hn)
  rw [numbered, if_neg h]
  refine ⟨?_, ?_, ?_, ?_⟩
  · rw [List.length_append, List.length_cons]
    omega
  · have := List.length_take_le (longest - ('_' :: natDigits n).length) base
    rw [List.length_append]
    simp only [longest] at this ⊢
    omega
  · intro c hc
    rcases List.mem_append.1 hc with hc | hc
    · exact hbase.allowed c (List.mem_of_mem_take hc)
    · rcases List.mem_cons.1 hc with rfl | hc
      · decide
      · have hdigits : (['/', '\\', ':', '*', '?', '[', ']'].all fun c => !c.isDigit) = true := by
          decide
        intro hmem
        have hdigit := List.all_eq_true.1 hdigits c hmem
        rw [isDigit_of_mem_natDigits hc] at hdigit
        cases hdigit
  · intro hhead
    rw [List.head?_append, List.head?_take] at hhead
    rcases Option.or_eq_some_iff.1 hhead with hhead | ⟨-, hhead⟩
    · split at hhead
      · cases hhead
      · exact hbase.start hhead
    · cases hhead

theorem getLast?_numbered (base : List Char) (hn : n ≠ 1) :
    (numbered base n).getLast? ≠ some '\'' := by
  intro h
  rw [numbered, if_neg hn, List.getLast?_append_of_ne_nil _ (List.cons_ne_nil _ _)] at h
  rcases List.mem_cons.1 (List.mem_of_getLast? h) with h | h
  · cases h
  · cases isDigit_of_mem_natDigits h

theorem safe_eq (name : String) (existing : List String) :
    ((∀ t ∈ existing, lower t.toList ≠ lower (cleaned name.toList)) ∧
        (safe name existing).toList = cleaned name.toList) ∨
      (∃ t ∈ existing, lower t.toList = lower (cleaned name.toList)) ∧
        ∃ n, 2 ≤ n ∧ n ≤ existing.length + 2 ∧
          (safe name existing).toList = numbered (cleaned name.toList) n := by
  rw [safe, String.toList_ofList, firstFree]
  split
  · next h =>
    obtain ⟨n, hle, hlt, hn⟩ := firstFree_eq (cleaned name.toList)
      (existing.map fun s => lower s.toList) 2 (existing.map fun s => lower s.toList).length
    obtain ⟨t, ht, htaken⟩ := List.mem_map.1 (List.contains_iff_mem.1 h)
    rw [List.length_map] at hlt
    exact .inr ⟨⟨t, ht, htaken⟩, n, hle, by omega, hn⟩
  · next h =>
    refine .inl ⟨fun t ht htaken => h ?_, rfl⟩
    exact List.contains_iff_mem.2 (List.mem_map.2 ⟨t, ht, htaken⟩)

/-- A title has a length of 1 to 31, no forbidden character and no apostrophe in front, whatever the
name and the existing titles. It ends with an apostrophe exactly if a free name is cut right after one. -/
theorem safe_fits (name : String) (existing : List String) (h : existing.length < 10 ^ 20) :
    Fits (safe name existing).toList ∧
      ((safe name existing).toList.getLast? = some '\'' ↔
        (∀ t ∈ existing, lower t.toList ≠ lower (cleaned name.toList)) ∧
          (stripped name.toList)[30]? = some '\'') := by
  rcases safe_eq name existing with ⟨hfree, heq⟩ | ⟨⟨t, ht, htaken⟩, n, hle, hlt, heq⟩
  · rw [heq]
    refine ⟨fits_cleaned _, (getLast?_cleaned _).trans ⟨fun hlast => ⟨hfree, hlast⟩, And.right⟩⟩
  · rw [heq]
    refine ⟨fits_numbered (fits_cleaned _) (by omega), fun hlast => ?_, fun hcut => ?_⟩
    · exact absurd hlast (getLast?_numbered _ (by omega))
    · exact absurd htaken (hcut.1 t ht)

theorem cut_name_fits :
    ([] : List String).length < 10 ^ 20 ∧
      Fits (safe "abcdefghijklmnopqrstuvwxyz1234'/" []).toList ∧
      (safe "abcdefghijklmnopqrstuvwxyz1234'/" []).toList.getLast? = some '\'' ∧
      ["ABCDEFGHIJKLMNOPQRSTUVWXYZ1234'"].length < 10 ^ 20 ∧
      (safe "abcdefghijklmnopqrstuvwxyz1234'/" ["ABCDEFGHIJKLMNOPQRSTUVWXYZ1234'"]).toList.getLast? ≠
        some '\'' := by
  have hnone : ([] : List String).length < 10 ^ 20 := by decide
  have hone : ["ABCDEFGHIJKLMNOPQRSTUVWXYZ1234'"].length < 10 ^ 20 := by decide
  obtain ⟨hfits, hlast⟩ := safe_fits "abcdefghijklmnopqrstuvwxyz1234'/" [] hnone
  refine ⟨hnone, hfits, hlast.2 ⟨nofun, by decide⟩, hone, fun h => ?_⟩
  have hfree := ((safe_fits _ _ hone).2.1 h).1
  exact hfree _ List.mem_cons_self (by decide +kernel)

end SheetTitle

end SheetTemplate
