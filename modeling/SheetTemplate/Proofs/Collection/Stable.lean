import Mathlib.Data.List.Chain
import Mathlib.Data.List.InsertIdx
import Mathlib.Order.Lattice
import Mathlib.Tactic.SplitIfs
import SheetTemplate.Proofs.Outcomes
import SheetTemplate.Sorting

namespace SheetTemplate.Sorting

open Outcomes

variable {α ε : Type}

structure Ranks (c : α → α → Int) (P : α → Prop) : Prop where
  flip : ∀ a b, P a → P b → c b a = -c a b
  trans : ∀ a b d, P a → P b → P d → c a b ≤ 0 → c b d ≤ 0 → c a d ≤ 0

def Follows (less : α → α → Except ε Bool) (c : α → α → Int) (P : α → Prop) : Prop :=
  ∀ a b v, P a → P b → less a b = .ok v → v = decide (c a b < 0)

structure Stable (c : α → α → Int) (P : α → Prop) (l r : List α) : Prop where
  perm : r.Perm l
  ordered : r.Pairwise fun a b => c a b ≤ 0
  ties : ∀ x, P x → (r.filter fun y => c x y = 0) = l.filter fun y => c x y = 0

variable {less : α → α → Except ε Bool} {c : α → α → Int} {P : α → Prop} {x last : α}
  {l r front back run rest : List α}

namespace Ranks

theorem comap {β : Type} {f : β → α} {Q : β → Prop} (hc : Ranks c P) (h : ∀ x, Q x → P (f x)) :
    Ranks (fun x y => c (f x) (f y)) Q :=
  ⟨fun x y hx hy => hc.flip (f x) (f y) (h x hx) (h y hy),
    fun x y z hx hy hz => hc.trans (f x) (f y) (f z) (h x hx) (h y hy) (h z hz)⟩

theorem neg (hc : Ranks c P) : Ranks (fun a b => -c a b) P := by
  refine ⟨fun a b ha hb => congrArg Neg.neg (hc.flip a b ha hb), fun a b d ha hb hd hab hbd => ?_⟩
  have hda := hc.trans d b a hd hb ha (by rw [hc.flip b d hb hd]; exact hbd)
    (by rw [hc.flip a b ha hb]; exact hab)
  rw [hc.flip a d ha hd] at hda
  exact hda

theorem lt_of_lt_of_le (hc : Ranks c P) {a b d : α} (ha : P a) (hb : P b) (hd : P d)
    (hab : c a b < 0) (hbd : c b d ≤ 0) : c a d < 0 := by
  by_contra h
  have hda : c d a ≤ 0 := by
    rw [hc.flip a d ha hd]
    omega
  have hba := hc.trans b d a hb hd ha hbd hda
  rw [hc.flip a b ha hb] at hba
  omega

theorem tied_trans (hc : Ranks c P) {a b d : α} (ha : P a) (hb : P b) (hd : P d)
    (hab : c a b = 0) (had : c a d = 0) : c b d = 0 := by
  have hba := hc.flip a b ha hb
  have hda := hc.flip a d ha hd
  have hbd := hc.flip b d hb hd
  have h := hc.trans b a d hb ha hd (by omega) (by omega)
  have h' := hc.trans d a b hd ha hb (by omega) (by omega)
  omega

theorem lex {c' : α → α → Int} (hc : Ranks c P) (hc' : Ranks c' P) :
    Ranks (fun a b => if c a b = 0 then c' a b else c a b) P := by
  refine ⟨fun a b ha hb => ?_, fun a b d ha hb hd hab hbd => ?_⟩
  · have hflip := hc.flip a b ha hb
    split_ifs with h h' h'
    · exact hc'.flip a b ha hb
    · omega
    · omega
    · exact hflip
  · have hle : ∀ {x y : α}, (if c x y = 0 then c' x y else c x y) ≤ 0 → c x y ≤ 0 := by
      intro x y h
      split_ifs at h with h' <;> omega
    have had := hc.trans a b d ha hb hd (hle hab) (hle hbd)
    split_ifs with h
    · -- level at the ends, and so at each step between: only then does the second ranking count
      have hlevel : c a b = 0 := by
        by_contra hne
        have := hle hab
        have := hc.lt_of_lt_of_le ha hb hd (by omega) (hle hbd)
        omega
      rw [if_pos hlevel] at hab
      rw [if_pos (hc.tied_trans ha hb hd hlevel h)] at hbd
      exact hc'.trans a b d ha hb hd hab hbd
    · exact had

end Ranks

theorem pairwise_of_isChain {R S : α → α → Prop} (hstep : ∀ a b, P a → P b → S a b → R a b)
    (htrans : ∀ a b d, P a → P b → P d → R a b → R b d → R a d) (h : l.IsChain S)
    (hP : ∀ a ∈ l, P a) : l.Pairwise R := by
  induction l with
  | nil => exact .nil
  | cons a l ih =>
    cases l with
    | nil => exact List.pairwise_singleton R a
    | cons b l =>
      obtain ⟨hab, htail⟩ := List.isChain_cons_cons.1 h
      have hl := ih htail fun d hd => hP d (List.mem_cons_of_mem a hd)
      have hR := hstep a b (hP a (by simp)) (hP b (by simp)) hab
      refine .cons (fun d hd => ?_) hl
      rcases List.mem_cons.1 hd with rfl | hd'
      · exact hR
      · exact htrans a b d (hP a (by simp)) (hP b (by simp)) (hP d (List.mem_cons_of_mem a hd)) hR
          (List.rel_of_pairwise_cons hl hd')

namespace Stable

theorem of_pairwise (h : l.Pairwise fun a b => c a b ≤ 0) : Stable c P l l :=
  ⟨.refl l, h, fun _ _ => rfl⟩

theorem reverse (hc : Ranks c P) (hP : ∀ a ∈ l, P a) (h : l.Pairwise fun a b => c b a < 0) :
    Stable c P l l.reverse := by
  refine ⟨l.reverse_perm, List.pairwise_reverse.2 (h.imp fun h => Int.le_of_lt h), fun x hx => ?_⟩
  rw [List.filter_reverse]
  have hfilter := h.filter fun y => c x y = 0
  have hmem : ∀ y ∈ l.filter fun y => c x y = 0, P y ∧ c x y = 0 := fun y hy => by
    obtain ⟨hy, htie⟩ := List.mem_filter.1 hy
    exact ⟨hP y hy, of_decide_eq_true htie⟩
  revert hfilter hmem
  rcases l.filter fun y => c x y = 0 with _ | ⟨a, _ | ⟨b, tied⟩⟩ <;> intro hfilter hmem
  · rfl
  · rfl
  · obtain ⟨ha, hxa⟩ := hmem a (by simp)
    obtain ⟨hb, hxb⟩ := hmem b (by simp)
    have hlt := List.rel_of_pairwise_cons hfilter (List.mem_cons_self (a := b))
    have htied := hc.tied_trans hx hb ha hxb hxa
    omega

theorem insert (hc : Ranks c P) (h : Stable c P l (front ++ back)) (hP : ∀ a ∈ l, P a) (hx : P x)
    (hfront : ∀ y ∈ front, c y x ≤ 0) (hback : ∀ y ∈ back, c x y < 0) :
    Stable c P (l ++ [x]) (front ++ x :: back) := by
  have hmem : ∀ y ∈ back, P y := fun y hy =>
    hP y (h.perm.mem_iff.1 (List.mem_append_right front hy))
  obtain ⟨hf, hb, hfb⟩ := List.pairwise_append.1 h.ordered
  refine ⟨?_, ?_, fun w hw => ?_⟩
  · exact (List.perm_middle.trans (h.perm.cons x)).trans (List.perm_append_singleton x l).symm
  · refine List.pairwise_append.2 ⟨hf, .cons (fun y hy => Int.le_of_lt (hback y hy)) hb, ?_⟩
    intro y hy z hz
    rcases List.mem_cons.1 hz with rfl | hz
    · exact hfront y hy
    · exact hfb y hy z hz
  · rw [List.filter_append, List.filter_append l, ← h.ties w hw, List.filter_append]
    by_cases htie : c w x = 0
    · -- nothing behind the new item has its rank
      have hnone : (back.filter fun y => c w y = 0) = [] := by
        refine List.filter_eq_nil_iff.2 fun y hy => ?_
        have hlt := hback y hy
        have hne : c w y ≠ 0 := fun hwy => by
          have := hc.tied_trans hw hx (hmem y hy) htie hwy
          omega
        simpa using hne
      rw [List.filter_cons_of_pos (by simpa using htie), hnone, List.append_nil]
      simp [htie]
    · rw [List.filter_cons_of_neg (by simpa using htie)]
      simp [htie]

theorem sublist (h : Stable c P l r) (hP : ∀ a ∈ l, P a) {tied : List α} (hsub : tied.Sublist l)
    (htied : ∀ x ∈ tied, ∀ y ∈ tied, c x y = 0) : tied.Sublist r := by
  cases tied with
  | nil => exact List.nil_sublist r
  | cons x tied =>
    have hx : x ∈ x :: tied := List.mem_cons_self
    have hkeep : (x :: tied).filter (fun y => c x y = 0) = x :: tied :=
      List.filter_eq_self.2 fun y hy => decide_eq_true (htied x hx y hy)
    have hfilter := hsub.filter fun y => c x y = 0
    rw [hkeep, ← h.ties x (hP x (hsub.subset hx))] at hfilter
    exact hfilter.trans List.filter_sublist

end Stable

section Run

variable {stays : α → α → Except ε Bool} {e : ε}

theorem runFrom_ok (h : runFrom stays last l = .ok (run, rest)) :
    l = run ++ rest ∧ (last :: run).IsChain fun a b => stays a b = .ok true := by
  induction l generalizing last run rest with
  | nil =>
    cases h
    exact ⟨rfl, .singleton last⟩
  | cons x l ih =>
    obtain ⟨stay, hstay, h⟩ := bind_eq_ok.1 h
    cases stay with
    | false =>
      cases h
      exact ⟨rfl, .singleton last⟩
    | true =>
      obtain ⟨⟨run', rest'⟩, hrun, h⟩ := bind_eq_ok.1 h
      cases h
      obtain ⟨rfl, hchain⟩ := ih hrun
      exact ⟨rfl, .cons_cons hstay hchain⟩

theorem runFrom_error (h : runFrom stays last l = .error e) :
    ∃ a ∈ last :: l, ∃ b ∈ last :: l, stays a b = .error e := by
  induction l generalizing last with
  | nil => cases h
  | cons x l ih =>
    rcases bind_eq_error.1 h with hstay | ⟨stay, -, h⟩
    · exact ⟨last, by simp, x, by simp, hstay⟩
    · cases stay with
      | false => cases h
      | true =>
        rcases bind_eq_error.1 h with hrun | ⟨_, -, h⟩
        · obtain ⟨a, ha, b, hb, hab⟩ := ih hrun
          exact ⟨a, List.mem_cons_of_mem last ha, b, List.mem_cons_of_mem last hb, hab⟩
        · cases h

end Run

section Sorts

theorem Follows.lt (hless : Follows less c P) {a b : α} (ha : P a) (hb : P b)
    (h : less a b = .ok true) : c a b < 0 := of_decide_eq_true (hless a b true ha hb h).symm

theorem Follows.le (hc : Ranks c P) (hless : Follows less c P) {a b : α} (ha : P a) (hb : P b)
    (h : less b a = .ok false) : c a b ≤ 0 := by
  have hba := of_decide_eq_false (hless b a false hb ha h).symm
  rw [hc.flip a b ha hb] at hba
  omega

theorem firstRun_ok (h : firstRun less l = .ok (run, rest)) :
    ∃ front, l = front ++ rest ∧ run.Perm front ∧
      (Ranks c P → Follows less c P → (∀ a ∈ l, P a) → Stable c P front run) := by
  unfold firstRun at h
  split at h
  · cases h
    exact ⟨[], rfl, .nil, fun _ _ _ => .of_pairwise .nil⟩
  · next x =>
    cases h
    exact ⟨[x], rfl, .refl _, fun _ _ _ => .of_pairwise (List.pairwise_singleton _ x)⟩
  · next x y tail =>
    obtain ⟨falls, hfalls, h⟩ := bind_eq_ok.1 h
    cases falls with
    | true =>
      obtain ⟨⟨more, rest'⟩, hmore, h⟩ := bind_eq_ok.1 h
      cases h
      obtain ⟨rfl, hchain⟩ := runFrom_ok hmore
      refine ⟨x :: y :: more, rfl, List.reverse_perm _, fun hc hless hP => ?_⟩
      have hP' : ∀ a ∈ x :: y :: more, P a := fun a ha => hP a (List.mem_append_left rest ha)
      refine .reverse hc hP' (pairwise_of_isChain (fun a b ha hb => hless.lt hb ha) ?_
        (.cons_cons hfalls hchain) hP')
      exact fun a b d ha hb hd hba hdb => hc.lt_of_lt_of_le hd hb ha hdb (Int.le_of_lt hba)
    | false =>
      obtain ⟨⟨more, rest'⟩, hmore, h⟩ := bind_eq_ok.1 h
      cases h
      obtain ⟨rfl, hchain⟩ := runFrom_ok hmore
      refine ⟨x :: y :: more, rfl, .refl _, fun hc hless hP => ?_⟩
      have hP' : ∀ a ∈ x :: y :: more, P a := fun a ha => hP a (List.mem_append_left rest ha)
      have hchain' : (x :: y :: more).IsChain fun a b =>
          (do return !(← less b a) : Except ε Bool) = .ok true :=
        .cons_cons (by rw [hfalls]; rfl) hchain
      refine .of_pairwise (pairwise_of_isChain (fun a b ha hb hab => ?_)
        (fun a b d => hc.trans a b d) hchain' hP')
      obtain ⟨falls, hfalls, h⟩ := bind_eq_ok.1 hab
      cases falls with
      | true => cases h
      | false => exact hless.le hc ha hb hfalls

theorem firstRun_error {e : ε} (h : firstRun less l = .error e) :
    ∃ a ∈ l, ∃ b ∈ l, less a b = .error e := by
  unfold firstRun at h
  split at h
  · cases h
  · cases h
  · next x y tail =>
    rcases bind_eq_error.1 h with hyx | ⟨falls, -, h⟩
    · exact ⟨y, by simp, x, by simp, hyx⟩
    · cases falls with
      | true =>
        rcases bind_eq_error.1 h with hrun | ⟨_, -, h⟩
        · obtain ⟨a, ha, b, hb, hab⟩ := runFrom_error hrun
          exact ⟨b, List.mem_cons_of_mem x hb, a, List.mem_cons_of_mem x ha, hab⟩
        · cases h
      | false =>
        rcases bind_eq_error.1 h with hrun | ⟨_, -, h⟩
        · obtain ⟨a, ha, b, hb, hab⟩ := runFrom_error hrun
          rcases bind_eq_error.1 hab with hab | ⟨_, -, hab⟩
          · exact ⟨b, List.mem_cons_of_mem x hb, a, List.mem_cons_of_mem x ha, hab⟩
          · cases hab
        · cases h

theorem place_within {sorted : Array α} {low high k : Nat}
    (h : place less x sorted low high = .ok k) (hle : low ≤ high) : low ≤ k ∧ k ≤ high := by
  induction hn : high - low using Nat.strongRecOn generalizing low high with
  | _ n ih =>
    rw [place] at h
    split at h
    · next hlt =>
      dsimp only at h
      split at h
      · cases h
        exact ⟨Nat.le_refl _, hle⟩
      · obtain ⟨before, -, h⟩ := bind_eq_ok.1 h
        cases before with
        | true =>
          have := ih _ (by omega) h (by omega) rfl
          omega
        | false =>
          have := ih _ (by omega) h (by omega) rfl
          omega
    · cases h
      exact ⟨Nat.le_refl _, hle⟩

theorem place_ok (hc : Ranks c P) (hless : Follows less c P) (hx : P x) {sorted : Array α}
    (hP : ∀ a ∈ sorted.toList, P a) (hsorted : sorted.toList.Pairwise fun a b => c a b ≤ 0)
    {low high k : Nat} (h : place less x sorted low high = .ok k) (hle : low ≤ high)
    (hhigh : high ≤ sorted.size) (hfront : ∀ y ∈ sorted.toList.take low, c y x ≤ 0)
    (hback : ∀ y ∈ sorted.toList.drop high, c x y < 0) :
    (∀ y ∈ sorted.toList.take k, c y x ≤ 0) ∧ ∀ y ∈ sorted.toList.drop k, c x y < 0 := by
  -- by the number of places that are left; what is asked of `low` and `high` is kept
  induction hn : high - low using Nat.strongRecOn generalizing low high with
  | _ n ih =>
    rw [place] at h
    split at h
    · next hlt =>
      dsimp only at h
      have hmiddle : low + (high - low) / 2 < high := by omega
      have hlow : low ≤ low + (high - low) / 2 := by omega
      generalize low + (high - low) / 2 = middle at h hmiddle hlow
      have hsize : middle < sorted.toList.length := by
        rw [Array.length_toList]
        omega
      have hy : P sorted.toList[middle] := hP _ (List.getElem_mem hsize)
      rw [show sorted[middle]? = some sorted.toList[middle] by simp] at h
      obtain ⟨before, hbefore, h⟩ := bind_eq_ok.1 h
      cases before with
      | true =>
        -- The item goes before the middle, and so before all behind it.
        refine ih _ (by omega) h hlow (by omega) hfront (fun z hz => ?_) rfl
        have hxy := hless.lt hx hy hbefore
        rw [List.drop_eq_getElem_cons hsize] at hz
        rcases List.mem_cons.1 hz with rfl | hz'
        · exact hxy
        · have hdrop := hsorted.drop (i := middle)
          rw [List.drop_eq_getElem_cons hsize] at hdrop
          exact hc.lt_of_lt_of_le hx hy (hP z (List.mem_of_mem_drop hz')) hxy
            (List.rel_of_pairwise_cons hdrop hz')
      | false =>
        -- The item goes behind the middle, and so behind all before it.
        refine ih _ (by omega) h hmiddle hhigh (fun z hz => ?_) hback rfl
        have hyx := hless.le hc hy hx hbefore
        have htake := hsorted.take (i := middle + 1)
        rw [List.take_succ_eq_append_getElem hsize] at hz htake
        rcases List.mem_append.1 hz with hz' | hz'
        · have hzy := (List.pairwise_append.1 htake).2.2 z hz' _ (List.mem_singleton_self _)
          exact hc.trans z _ x (hP z (List.mem_of_mem_take hz')) hy hx hzy hyx
        · rw [List.mem_singleton.1 hz']
          exact hyx
    · have hsame : high = low := by omega
      rw [hsame] at hback
      rw [← Except.ok.inj h]
      exact ⟨hfront, hback⟩

theorem place_error {sorted : Array α} {low high : Nat} {e : ε}
    (h : place less x sorted low high = .error e) : ∃ y ∈ sorted.toList, less x y = .error e := by
  induction hn : high - low using Nat.strongRecOn generalizing low high with
  | _ n ih =>
    rw [place] at h
    split at h
    · dsimp only at h
      split at h
      · cases h
      · next y hy =>
        rcases bind_eq_error.1 h with hxy | ⟨before, -, h⟩
        · exact ⟨y, Array.mem_toList_iff.2 (Array.mem_of_getElem? hy), hxy⟩
        · cases before with
          | true => exact ih _ (by omega) h rfl
          | false => exact ih _ (by omega) h rfl
    · cases h

theorem insertIdx_eq {k : Nat} (hk : k ≤ l.length) :
    l.insertIdx k x = l.take k ++ x :: l.drop k := by
  induction l generalizing k with
  | nil => simp_all
  | cons a l ih =>
    cases k with
    | zero => rfl
    | succ k => rw [List.insertIdx_succ_cons, ih (Nat.le_of_succ_le_succ hk)]; rfl

theorem toList_insert {sorted : Array α} {k : Nat} (hk : k ≤ sorted.size) :
    (sorted.insertIdxIfInBounds k x).toList = sorted.toList.take k ++ x :: sorted.toList.drop k := by
  rw [Array.insertIdxIfInBounds, dif_pos hk, Array.toList_insertIdx, insertIdx_eq (by simpa using hk)]

theorem insertAll_ok {sorted result : Array α} (h : insertAll less sorted rest = .ok result) :
    result.toList.Perm (sorted.toList ++ rest) ∧
      (Ranks c P → Follows less c P → (∀ a ∈ l ++ rest, P a) → Stable c P l sorted.toList →
        Stable c P (l ++ rest) result.toList) := by
  induction rest generalizing sorted l with
  | nil =>
    cases h
    rw [List.append_nil, List.append_nil]
    exact ⟨.refl _, fun _ _ _ hstable => hstable⟩
  | cons x rest ih =>
    obtain ⟨k, hk, h⟩ := bind_eq_ok.1 h
    have hsize := (place_within hk (Nat.zero_le _)).2
    obtain ⟨hperm, hstable⟩ := ih (l := l ++ [x]) h
    rw [toList_insert hsize] at hperm hstable
    constructor
    · refine hperm.trans ?_
      rw [List.append_assoc, List.cons_append]
      refine List.perm_middle.trans ?_
      rw [← List.append_assoc, List.take_append_drop]
      exact List.perm_middle.symm
    · intro hc hless hP hsorted
      have hmem : ∀ a ∈ sorted.toList, P a := fun a ha =>
        hP a (List.mem_append_left _ (hsorted.perm.mem_iff.1 ha))
      have hx : P x := hP x (by simp)
      have hend : sorted.toList.drop sorted.size = [] := List.drop_eq_nil_of_le (by simp)
      obtain ⟨hfront, hback⟩ := place_ok hc hless hx hmem hsorted.ordered hk (Nat.zero_le _)
        (Nat.le_refl _) (fun _ hy => nomatch hy) fun y hy => by rw [hend] at hy; cases hy
      have hinserted : Stable c P (l ++ [x]) (sorted.toList.take k ++ x :: sorted.toList.drop k) :=
        .insert hc (by rwa [List.take_append_drop]) (fun a ha => hP a (List.mem_append_left _ ha))
          hx hfront hback
      rw [List.append_cons] at hP ⊢
      exact hstable hc hless hP hinserted

theorem insertAll_error {sorted : Array α} {e : ε} (h : insertAll less sorted rest = .error e) :
    ∃ a ∈ sorted.toList ++ rest, ∃ b ∈ sorted.toList ++ rest, less a b = .error e := by
  induction rest generalizing sorted with
  | nil => cases h
  | cons x rest ih =>
    rcases bind_eq_error.1 h with hplace | ⟨k, hk, h⟩
    · obtain ⟨y, hy, hxy⟩ := place_error hplace
      exact ⟨x, by simp, y, List.mem_append_left _ hy, hxy⟩
    · obtain ⟨a, ha, b, hb, hab⟩ := ih h
      have hperm : ((sorted.insertIdxIfInBounds k x).toList ++ rest).Perm
          (sorted.toList ++ x :: rest) := by
        rw [toList_insert (place_within hk (Nat.zero_le _)).2, List.append_assoc, List.cons_append]
        refine List.perm_middle.trans ?_
        rw [← List.append_assoc, List.take_append_drop]
        exact List.perm_middle.symm
      exact ⟨a, hperm.mem_iff.1 ha, b, hperm.mem_iff.1 hb, hab⟩

theorem sort_perm (h : sort less l = .ok r) : r.Perm l := by
  obtain ⟨⟨run, rest⟩, hrun, h⟩ := bind_eq_ok.1 h
  obtain ⟨result, hresult, h⟩ := bind_eq_ok.1 h
  cases h
  obtain ⟨front, rfl, hperm, -⟩ := firstRun_ok (c := fun _ _ => 0) (P := fun _ => True) hrun
  refine (insertAll_ok (c := fun _ _ => 0) (P := fun _ => True) (l := []) hresult).1.trans ?_
  exact hperm.append_right rest

theorem sort_stable (hc : Ranks c P) (hless : Follows less c P) (hP : ∀ a ∈ l, P a)
    (h : sort less l = .ok r) : Stable c P l r := by
  obtain ⟨⟨run, rest⟩, hrun, h⟩ := bind_eq_ok.1 h
  obtain ⟨result, hresult, h⟩ := bind_eq_ok.1 h
  cases h
  obtain ⟨front, rfl, -, hstable⟩ := firstRun_ok hrun
  exact (insertAll_ok hresult).2 hc hless hP (hstable hc hless hP)

theorem runFrom_of_isChain {stays : α → α → Except ε Bool}
    (h : (x :: l).IsChain fun a b => stays a b = .ok true) : runFrom stays x l = .ok (l, []) := by
  induction l generalizing x with
  | nil => rfl
  | cons y l ih =>
    obtain ⟨hxy, hl⟩ := List.isChain_cons_cons.1 h
    rw [runFrom, hxy, ih hl]
    rfl

theorem sort_of_isChain (h : l.IsChain fun a b => less b a = .ok false) : sort less l = .ok l := by
  have hrun : firstRun less l = .ok (l, []) := by
    rcases l with _ | ⟨x, _ | ⟨y, l⟩⟩
    · rfl
    · rfl
    · obtain ⟨hyx, hl⟩ := List.isChain_cons_cons.1 h
      have hl' : (y :: l).IsChain fun a b =>
          (do return !(← less b a) : Except ε Bool) = .ok true :=
        hl.imp fun a b hab => by rw [hab]; rfl
      rw [firstRun, hyx, runFrom_of_isChain hl']
      rfl
  rw [sort, hrun]
  rfl

theorem sort_error {e : ε} (h : sort less l = .error e) : ∃ a ∈ l, ∃ b ∈ l, less a b = .error e := by
  rcases bind_eq_error.1 h with hrun | ⟨⟨run, rest⟩, hrun, hall⟩
  · exact firstRun_error hrun
  · obtain ⟨front, rfl, hperm, -⟩ := firstRun_ok (c := fun _ _ => 0) (P := fun _ => True) hrun
    rcases bind_eq_error.1 hall with hinsert | ⟨_, -, hall⟩
    · obtain ⟨a, ha, b, hb, hab⟩ := insertAll_error hinsert
      have hmem := fun y => ((hperm.append_right rest).mem_iff (a := y)).1
      exact ⟨a, hmem a ha, b, hmem b hb, hab⟩
    · cases hall

end Sorts

section Keyed

variable {K : Type} [LinearOrder K] {key : α → K} {descending : Bool}

structure OrderedBy (key : α → K) (descending : Bool) (l r : List α) : Prop where
  perm : r.Perm l
  ordered : r.Pairwise fun a b => if descending then key b ≤ key a else key a ≤ key b
  ties : ∀ k, (r.filter fun a => key a = k) = l.filter fun a => key a = k

theorem sort_orderedBy (hflip : ∀ a b, P a → P b → c b a = -c a b)
    (hkey : ∀ a b, P a → P b → (c a b ≤ 0 ↔ if descending then key b ≤ key a else key a ≤ key b))
    (hless : Follows less c P) (hP : ∀ a ∈ l, P a) (h : sort less l = .ok r) :
    OrderedBy key descending l r := by
  have hc : Ranks c P := by
    refine ⟨hflip, fun a b d ha hb hd hab hbd => ?_⟩
    rw [hkey _ _ ha hb] at hab
    rw [hkey _ _ hb hd] at hbd
    rw [hkey _ _ ha hd]
    cases descending with
    | true => exact le_trans hbd hab
    | false => exact le_trans hab hbd
  have htie : ∀ a b, P a → P b → (c a b = 0 ↔ key b = key a) := by
    intro a b ha hb
    have hab := hkey a b ha hb
    have hba := hkey b a hb ha
    rw [hflip a b ha hb] at hba
    have hzero : c a b = 0 ↔ c a b ≤ 0 ∧ -c a b ≤ 0 := by omega
    rw [hzero, hab, hba, le_antisymm_iff (a := key b)]
    cases descending with
    | true => exact Iff.rfl
    | false => exact and_comm
  obtain ⟨hperm, hordered, hties⟩ := sort_stable hc hless hP h
  refine ⟨hperm, ?_, fun k => ?_⟩
  · refine hordered.imp_of_mem fun ha hb hab => ?_
    exact (hkey _ _ (hP _ (hperm.mem_iff.1 ha)) (hP _ (hperm.mem_iff.1 hb))).1 hab
  · by_cases hk : ∃ x ∈ l, key x = k
    · obtain ⟨x, hx, rfl⟩ := hk
      have hfilter : ∀ l' : List α, (∀ a ∈ l', a ∈ l) →
          (l'.filter fun a => key a = key x) = l'.filter fun a => c x a = 0 := by
        intro l' hl'
        refine List.filter_congr fun a ha => ?_
        rw [decide_eq_decide, htie x a (hP x hx) (hP a (hl' a ha))]
      rw [hfilter r fun a ha => hperm.mem_iff.1 ha, hfilter l fun a ha => ha, hties x (hP x hx)]
    · have hnone : ∀ l' : List α, (∀ a ∈ l', a ∈ l) → (l'.filter fun a => key a = k) = [] := by
        intro l' hl'
        refine List.filter_eq_nil_iff.2 fun a ha hak => hk ⟨a, hl' a ha, of_decide_eq_true hak⟩
      rw [hnone r fun a ha => hperm.mem_iff.1 ha, hnone l fun a ha => ha]

end Keyed

end SheetTemplate.Sorting
