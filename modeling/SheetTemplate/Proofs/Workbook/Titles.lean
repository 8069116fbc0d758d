import Mathlib.Data.List.Nodup
import Mathlib.Data.List.Perm.Subperm
import SheetTemplate.Proofs.Formula.Naming

namespace SheetTemplate

namespace Text

def IsLow (c : Char) : Prop := c ≠ 'Σ' ∧ lowerChar c = [c]

theorem lowerFrom_low {cs : List Char} (h : ∀ c ∈ cs, IsLow c) (before : List Char) :
    lowerFrom before cs = cs := by
  induction cs generalizing before with
  | nil => rfl
  | cons c cs ih =>
    obtain ⟨hsigma, hlow⟩ := h c List.mem_cons_self
    rw [lowerFrom, ih fun d hd => h d (List.mem_cons_of_mem c hd)]
    simp [hsigma, hlow]

theorem lowerFrom_append (before cs ds : List Char) :
    ∃ low, lowerFrom before (cs ++ ds) = low ++ lowerFrom (cs.reverse ++ before) ds := by
  induction cs generalizing before with
  | nil => exact ⟨[], rfl⟩
  | cons c cs ih =>
    obtain ⟨low, hlow⟩ := ih (c :: before)
    rw [List.cons_append, lowerFrom, hlow, List.reverse_cons, List.append_assoc]
    exact ⟨_, (List.append_assoc _ _ _).symm⟩

theorem isLow_of_isDigit {c : Char} (h : c.isDigit = true) : IsLow c := by
  have hrange : 48 ≤ c.toNat ∧ c.toNat ≤ 57 := by
    simpa [Char.isDigit, UInt32.le_iff_toNat_le] using h
  have hlower : c.toLower = c := by
    refine dif_neg ?_
    rintro ⟨hfirst, -⟩
    have : 65 ≤ c.toNat := hfirst
    omega
  constructor
  · rintro rfl
    cases h
  · rw [lowerChar, if_pos (by omega), hlower]

end Text

namespace SheetTitle

open Text Number

variable {base : List Char} {taken : List (List Char)} {m n : Nat}

theorem lower_numbered (base : List Char) (hn : n ≠ 1) :
    ∃ low, lower (numbered base n) = low ++ '_' :: natDigits n := by
  rw [numbered, if_neg hn]
  obtain ⟨low, hlow⟩ := lowerFrom_append [] (base.take (longest - ('_' :: natDigits n).length))
    ('_' :: natDigits n)
  refine ⟨low, hlow.trans (congrArg _ (lowerFrom_low ?_ _))⟩
  intro c hc
  rcases List.mem_cons.1 hc with rfl | hc
  · exact ⟨by decide, by decide⟩
  · exact isLow_of_isDigit (isDigit_of_mem_natDigits hc)

theorem numbered_inj (hm : m ≠ 1) (hn : n ≠ 1)
    (h : lower (numbered base m) = lower (numbered base n)) : m = n := by
  obtain ⟨low, hlow⟩ := lower_numbered base hm
  obtain ⟨low', hlow'⟩ := lower_numbered base hn
  have hplain : ∀ k, ∀ c ∈ (natDigits k).reverse, (c != '_') = true := by
    intro k c hc
    have := isDigit_of_mem_natDigits (List.mem_reverse.1 hc)
    rw [bne_iff_ne]
    rintro rfl
    cases this
  have hdigits : natDigits m = natDigits n := by
    rw [hlow, hlow'] at h
    have := congrArg (fun cs : List Char => cs.reverse.takeWhile (· != '_')) h
    simpa [List.takeWhile_append_of_pos (hplain m), List.takeWhile_append_of_pos (hplain n)]
      using this
  have hread := readDigits?_natDigits m
  rw [hdigits, readDigits?_natDigits] at hread
  exact (Option.some.inj hread).symm

theorem taken_of_firstFree {fuel : Nat} (h : lower (firstFree base taken n fuel) ∈ taken) :
    ∀ k ≤ fuel, lower (numbered base (n + k)) ∈ taken := by
  induction fuel generalizing n with
  | zero =>
    intro k hk
    rw [Nat.le_zero.1 hk]
    exact h
  | succ fuel ih =>
    rw [firstFree] at h
    split at h
    · next hn =>
      intro k hk
      cases k with
      | zero => simpa using hn
      | succ k =>
        have := ih h k (by omega)
        rwa [show n + (k + 1) = n + 1 + k by omega]
    · next hn => exact absurd h (by simpa using hn)

theorem length_le_of_taken (base : List Char) (n : Nat)
    (hinj : ∀ i < m, ∀ j < m, lower (numbered base (n + i)) = lower (numbered base (n + j)) → i = j)
    (h : ∀ j < m, lower (numbered base (n + j)) ∈ taken) : m ≤ taken.length := by
  have hnodup : ((List.range m).map fun j => lower (numbered base (n + j))).Nodup := by
    refine List.Nodup.map_on (fun i hi j hj hij => ?_) List.nodup_range
    exact hinj i (List.mem_range.1 hi) j (List.mem_range.1 hj) hij
  have hsub : ((List.range m).map fun j => lower (numbered base (n + j))) ⊆ taken := by
    intro x hx
    obtain ⟨j, hj, rfl⟩ := List.mem_map.1 hx
    exact h j (List.mem_range.1 hj)
  have hlength := (hnodup.subperm hsub).length_le
  rwa [List.length_map, List.length_range] at hlength

theorem numbered_taken_le (base : List Char)
    (h : ∀ j < m, lower (numbered base (2 + j)) ∈ taken) : m ≤ taken.length := by
  refine length_le_of_taken base 2 (fun i _ j _ hij => ?_) h
  have := numbered_inj (by omega) (by omega) hij
  omega

theorem firstFree_not_mem (base : List Char) (taken : List (List Char)) :
    lower (firstFree base taken 1 (taken.length + 1)) ∉ taken := by
  intro h
  have htaken := taken_of_firstFree h
  have hle : taken.length + 1 ≤ taken.length := by
    refine numbered_taken_le base fun j hj => ?_
    rw [show 2 + j = 1 + (j + 1) by omega]
    exact htaken (j + 1) hj
  omega

theorem safe_fresh (name : String) (existing : List String) :
    ∀ t ∈ existing, lower (safe name existing).toList ≠ lower t.toList := by
  intro t ht h
  rw [safe, String.toList_ofList] at h
  have hfree := firstFree_not_mem (cleaned name.toList) (existing.map fun s => lower s.toList)
  exact hfree (h ▸ List.mem_map_of_mem ht)

theorem safe_not_mem (name : String) (existing : List String) : safe name existing ∉ existing :=
  fun h => safe_fresh name existing _ h rfl

theorem numbered_ne_nil (hbase : base ≠ []) (n : Nat) : numbered base n ≠ [] := by
  rw [numbered]
  split
  · exact hbase
  · simp

theorem firstFree_eq (base : List Char) (taken : List (List Char)) (n fuel : Nat) :
    ∃ k, n ≤ k ∧ k ≤ n + fuel ∧ firstFree base taken n fuel = numbered base k := by
  induction fuel generalizing n with
  | zero => exact ⟨n, Nat.le_refl n, Nat.le_refl n, rfl⟩
  | succ fuel ih =>
    rw [firstFree]
    split
    · obtain ⟨k, hle, hlt, hk⟩ := ih (n + 1)
      exact ⟨k, by omega, by omega, hk⟩
    · exact ⟨n, Nat.le_refl n, by omega, rfl⟩

theorem cleaned_ne_nil (cs : List Char) : cleaned cs ≠ [] := by
  rw [cleaned, ne_eq, List.take_eq_nil_iff, not_or]
  refine ⟨by decide, ?_⟩
  split
  · decide
  · next h => exact fun hnil => h (List.isEmpty_iff.2 hnil)

theorem safe_ne_empty (name : String) (existing : List String) : safe name existing ≠ "" := by
  intro h
  obtain ⟨k, -, -, hk⟩ := firstFree_eq (cleaned name.toList) (existing.map fun s => lower s.toList) 1
    ((existing.map fun s => lower s.toList).length + 1)
  have hlist := congrArg String.toList h
  rw [safe, String.toList_ofList, hk] at hlist
  exact numbered_ne_nil (cleaned_ne_nil _) k hlist

end SheetTitle

end SheetTemplate
