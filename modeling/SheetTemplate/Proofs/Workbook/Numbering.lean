import Mathlib.Data.List.Dedup
import SheetTemplate.Proofs.Workbook.Titles

namespace SheetTemplate

namespace SheetTitle

open Text Number

variable {base cs : List Char} {taken : List (List Char)} {k n : Nat}

/-- A search from a candidate on passes by a number of candidates that are taken, in any case of their
letters, and ends with the first that is free. -/
inductive Finds (base : List Char) (taken : List (List Char)) : Nat → Nat → List Char → Prop where
  | free {n : Nat} : lower (numbered base n) ∉ taken → Finds base taken n 0 (numbered base n)
  | passed {n k : Nat} {cs : List Char} : lower (numbered base n) ∈ taken →
      Finds base taken (n + 1) k cs → Finds base taken n (k + 1) cs

theorem Finds.mem_of_lt (h : Finds base taken n k cs) :
    ∀ j < k, lower (numbered base (n + j)) ∈ taken := by
  induction h with
  | free _ => exact fun j hj => absurd hj (Nat.not_lt_zero j)
  | passed htaken _ ih =>
    intro j hj
    cases j with
    | zero => exact htaken
    | succ j =>
      have := ih j (Nat.lt_of_succ_lt_succ hj)
      rwa [Nat.add_right_comm] at this

theorem Finds.eq_of_free (h : Finds base taken 1 k cs) (hfree : lower base ∉ taken) : cs = base := by
  cases h with
  | free _ => rfl
  | passed htaken _ => exact absurd htaken hfree

theorem finds_firstFree {fuel : Nat} (h : lower (firstFree base taken n fuel) ∉ taken) :
    ∃ k, Finds base taken n k (firstFree base taken n fuel) := by
  induction fuel generalizing n with
  | zero => exact ⟨0, .free h⟩
  | succ fuel ih =>
    rw [firstFree] at h ⊢
    split at h
    · next htaken =>
      rw [if_pos htaken]
      obtain ⟨k, hk⟩ := ih h
      exact ⟨k + 1, .passed (List.contains_iff_mem.1 htaken) hk⟩
    · next hfree =>
      rw [if_neg hfree]
      exact ⟨0, .free h⟩

theorem Finds.passed_le (h : Finds base taken 1 k cs) : k ≤ taken.length + 1 := by
  have hle : k - 1 ≤ taken.length := by
    refine numbered_taken_le base fun j hj => ?_
    rw [show 2 + j = 1 + (j + 1) by omega]
    exact h.mem_of_lt (j + 1) (by omega)
  omega

theorem Finds.exists_repeated (h : Finds base taken 1 (taken.length + 1) cs) :
    ∃ m, 2 ≤ m ∧ m ≤ taken.length + 1 ∧ lower (numbered base m) = lower base := by
  by_contra hnone
  have hne : ∀ m, 2 ≤ m → m ≤ taken.length + 1 → lower (numbered base m) ≠ lower base :=
    fun m htwo hle heq => hnone ⟨m, htwo, hle, heq⟩
  have hle : taken.length + 1 ≤ taken.length := by
    refine length_le_of_taken base 1 (fun i hi j hj hij => ?_) h.mem_of_lt
    rcases Nat.eq_zero_or_pos i with rfl | hipos
    · rcases Nat.eq_zero_or_pos j with rfl | hjpos
      · rfl
      · exact absurd hij.symm (hne (1 + j) (by omega) (by omega))
    · rcases Nat.eq_zero_or_pos j with rfl | hjpos
      · exact absurd hij (hne (1 + i) (by omega) (by omega))
      · have := numbered_inj (by omega) (by omega) hij
        omega
  omega

theorem Finds.congr (h : Finds base taken n k cs) (taken' : List (List Char))
    (hmem : ∀ x, x ∈ taken' ↔ x ∈ taken) : Finds base taken' n k cs := by
  induction h with
  | free hfree => exact .free fun h => hfree ((hmem _).1 h)
  | passed htaken _ ih => exact .passed ((hmem _).2 htaken) ih

def safeAll (existing : List String) : List String → List String
  | [] => []
  | name :: rest => safe name existing :: safeAll (safe name existing :: existing) rest

theorem safeAll_fresh (names existing : List String) :
    ∀ t ∈ safeAll existing names, ∀ u ∈ existing, lower t.toList ≠ lower u.toList := by
  induction names generalizing existing with
  | nil => exact fun _ h => (nomatch h)
  | cons name rest ih =>
    intro t ht u hu
    rcases List.mem_cons.1 ht with rfl | ht
    · exact safe_fresh name existing u hu
    · exact ih _ t ht u (List.mem_cons_of_mem _ hu)

theorem safeAll_distinct (names existing : List String) :
    (safeAll existing names).Pairwise fun t u => lower t.toList ≠ lower u.toList := by
  induction names generalizing existing with
  | nil => exact .nil
  | cons name rest ih =>
    refine .cons (fun t ht h => ?_) (ih _)
    exact safeAll_fresh rest _ t ht _ List.mem_cons_self h.symm

/-- The search for a title ends for every name and all existing titles, after no more candidates with a
number than there are titles, and one more. The title is the name itself when this is free; in no
case of the letters is it an existing title, nor are any two titles the same that are made one after
another. -/
theorem safe_found (name : String) (existing : List String) :
    (∃ k, Finds (cleaned name.toList) (existing.map fun t => lower t.toList) 1 k
        (safe name existing).toList ∧ k ≤ existing.dedup.length + 1 ∧
      (k = existing.dedup.length + 1 → ∃ m, 2 ≤ m ∧ m ≤ k ∧
        lower (numbered (cleaned name.toList) m) = lower (cleaned name.toList))) ∧
      (∀ t ∈ existing, lower (safe name existing).toList ≠ lower t.toList) ∧
      ((∀ t ∈ existing, lower (cleaned name.toList) ≠ lower t.toList) →
        (safe name existing).toList = cleaned name.toList) ∧
      ∀ names, (safeAll existing names).Pairwise (fun t u => lower t.toList ≠ lower u.toList) ∧
        ∀ t ∈ safeAll existing names, ∀ u ∈ existing, lower t.toList ≠ lower u.toList := by
  have hfree := firstFree_not_mem (cleaned name.toList) (existing.map fun t => lower t.toList)
  obtain ⟨k, hk⟩ := finds_firstFree hfree
  have hsafe : (safe name existing).toList = firstFree (cleaned name.toList)
      (existing.map fun t => lower t.toList) 1
        ((existing.map fun t => lower t.toList).length + 1) := String.toList_ofList
  rw [← hsafe] at hk
  have hdedup := hk.congr (existing.dedup.map fun t => lower t.toList) fun x => by
    simp only [List.mem_map, List.mem_dedup]
  refine ⟨⟨k, hk, ?_, ?_⟩, safe_fresh name existing, fun hname => ?_, fun names =>
    ⟨safeAll_distinct names existing, safeAll_fresh names existing⟩⟩
  · have := hdedup.passed_le
    rwa [List.length_map] at this
  · rintro rfl
    have hlength : (existing.dedup.map fun t => lower t.toList).length = existing.dedup.length :=
      List.length_map _
    rw [← hlength] at hdedup ⊢
    exact hdedup.exists_repeated
  · refine hk.eq_of_free fun hmem => ?_
    obtain ⟨t, ht, heq⟩ := List.mem_map.1 hmem
    exact hname t ht heq.symm

example : safe "abcdefghijklmnopqrstuvwxyz123_2" ["ABCDEFGHIJKLMNOPQRSTUVWXYZ123_2"] =
    "abcdefghijklmnopqrstuvwxyz123_3" := by decide +kernel

end SheetTitle

end SheetTemplate
