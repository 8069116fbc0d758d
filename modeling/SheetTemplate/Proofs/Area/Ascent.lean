import Mathlib.Data.Fintype.Pigeonhole
import Mathlib.Data.List.Dedup
import SheetTemplate.Proofs.Area.Tightest

namespace SheetTemplate

namespace Plan

def parentOf (p : Plan) (i : Nat) : Option Parent :=
  p.entries[i]?.bind fun e => (p.parent? i e).map (·.1)

def above? (p : Plan) : Parent → Option Parent
  | .root _ => none
  | .inner i _ => p.parentOf i

def ascend (p : Plan) : Nat → Parent → Option Parent
  | 0, n => some n
  | d + 1, n => (p.above? n).bind (p.ascend d)

variable {p : Plan} {n m : Parent} {i j k : Nat}

theorem parentOf_eq_some (h : p.parentOf i = some n) :
    ∃ e area, p.entries[i]? = some e ∧ p.parent? i e = some (n, area) := by
  obtain ⟨e, he, h⟩ := Option.bind_eq_some_iff.1 h
  obtain ⟨⟨n', area⟩, hparent, rfl⟩ := Option.map_eq_some_iff.1 h
  exact ⟨e, area, he, hparent⟩

theorem parentOf_cases (h : p.parentOf i = some n) :
    (∃ j k e e' area, n = .inner j k ∧ p.entries[i]? = some e ∧ p.entries[j]? = some e' ∧
        e'.areas[k]? = some area ∧ e.size.cellCount < area.2.cellCount) ∨
      ∃ j, n = .root j ∧ j < p.roots.length := by
  obtain ⟨e, area, he, hparent⟩ := parentOf_eq_some h
  rcases (parent?_cases hparent).2 with ⟨j, k, e', rfl, -, he', hk, hlt⟩ | ⟨j, rfl, hj⟩
  · exact .inl ⟨j, k, e, e', area, rfl, he, he', hk, hlt⟩
  · exact .inr ⟨j, rfl, (List.getElem?_eq_some_iff.1 hj).1⟩

theorem ascend_add (a b : Nat) (n : Parent) :
    p.ascend (a + b) n = (p.ascend a n).bind (p.ascend b) := by
  induction a generalizing n with
  | zero => rw [Nat.zero_add]; rfl
  | succ a ih =>
    rw [Nat.add_right_comm]
    simp only [ascend]
    cases p.above? n with
    | none => rfl
    | some m => exact ih m

theorem ascend_one (n : Parent) : p.ascend 1 n = p.above? n := by
  simp only [ascend]
  cases p.above? n <;> rfl

theorem ascend_succ {d : Nat} (h : p.ascend d n = some m) : p.ascend (d + 1) n = p.above? m := by
  rw [ascend_add, h, Option.bind_some, ascend_one]

theorem ascend_succ_eq_some {d : Nat} :
    p.ascend (d + 1) n = some m ↔ ∃ x, p.ascend d n = some x ∧ p.above? x = some m := by
  rw [ascend_add, Option.bind_eq_some_iff]
  simp only [ascend_one]

theorem ascend_of_le {a b : Nat} (hab : a ≤ b) (h : p.ascend b n = some m) :
    ∃ x, p.ascend a n = some x ∧ p.ascend (b - a) x = some m := by
  rw [← Nat.add_sub_cancel' hab, ascend_add] at h
  exact Option.bind_eq_some_iff.1 h

def Rings (p : Plan) (n : Parent) : Prop := ∃ d, p.ascend (d + 1) n = some n

theorem ascend_ne_none_of_rings (h : p.Rings n) (d : Nat) : p.ascend d n ≠ none := by
  obtain ⟨a, ha⟩ := h
  induction d using Nat.strongRecOn with
  | ind d ih =>
    by_cases hd : a + 1 ≤ d
    · rw [← Nat.add_sub_cancel' hd, ascend_add, ha, Option.bind_some]
      exact ih _ (by omega)
    · obtain ⟨x, hx, -⟩ := ascend_of_le (Nat.le_of_lt (Nat.not_le.1 hd)) ha
      rw [hx]
      exact Option.some_ne_none x

theorem lt_of_parentOf (h : p.parentOf i = some n) : i < p.entries.length := by
  obtain ⟨e, -, he, -⟩ := parentOf_eq_some h
  exact (List.getElem?_eq_some_iff.1 he).1

theorem above?_eq_some (h : p.above? n = some m) :
    ∃ i k, n = .inner i k ∧ i < p.entries.length ∧ p.parentOf i = some m := by
  cases n with
  | root j => cases h
  | inner i k => exact ⟨i, k, rfl, lt_of_parentOf h, h⟩

theorem rings_of_repeat {a b k k' : Nat} (hab : a < b) (ha : p.ascend a n = some (.inner i k))
    (hb : p.ascend b n = some (.inner i k')) (hup : p.parentOf i = some m) :
    p.ascend (a + 1) n = some m ∧ p.Rings m := by
  have hnext : p.ascend (a + 1) n = some m := (ascend_succ ha).trans hup
  refine ⟨hnext, b - a - 1, ?_⟩
  have hlast : p.ascend (b + 1) n = some m := (ascend_succ hb).trans hup
  obtain ⟨x, hx, hrest⟩ := ascend_of_le (show a + 1 ≤ b + 1 by omega) hlast
  rw [hnext] at hx
  cases hx
  rwa [show b - a - 1 + 1 = b + 1 - (a + 1) by omega]

theorem rings_of_ascend (h : p.ascend (p.entries.length + 1) n ≠ none) :
    ∃ d m, p.ascend d n = some m ∧ p.Rings m := by
  obtain ⟨top, htop⟩ := Option.ne_none_iff_exists'.1 h
  have hnode : ∀ d : Fin (p.entries.length + 1), ∃ (i : Fin p.entries.length) (k : Nat) (m : Parent),
      p.ascend d n = some (.inner i k) ∧ p.parentOf i = some m := by
    rintro ⟨d, hd⟩
    obtain ⟨m, hm, -⟩ := ascend_of_le (Nat.succ_le_of_lt hd) htop
    obtain ⟨x, hx, -⟩ := ascend_of_le (Nat.le_of_lt hd) htop
    rw [ascend_succ hx] at hm
    obtain ⟨i, k, rfl, hi, hparent⟩ := above?_eq_some hm
    exact ⟨⟨i, hi⟩, k, m, hx, hparent⟩
  choose entry place up hentry hup using hnode
  obtain ⟨a, b, hne, hsame⟩ := Fintype.exists_ne_map_eq_of_card_lt entry (by simp)
  have ha := hentry a
  rw [hsame] at ha
  rcases Nat.lt_or_gt_of_ne (Fin.val_ne_of_ne hne) with hab | hab
  · exact ⟨_, _, rings_of_repeat hab ha (hentry b) (hup b)⟩
  · exact ⟨_, _, rings_of_repeat hab (hentry b) ha (hup b)⟩

theorem ends_iff (n : Parent) :
    (∃ d m, p.ascend d n = some m ∧ p.above? m = none) ↔
      ¬ ∃ d m, p.ascend d n = some m ∧ p.Rings m := by
  constructor
  · rintro ⟨d, m, hm, htop⟩ ⟨a, x, hx, hrings⟩
    rcases Nat.le_total d a with hle | hle
    · obtain ⟨y, hy, hrest⟩ := ascend_of_le hle hx
      rw [hm] at hy
      cases hy
      cases hd : a - d with
      | zero =>
        rw [hd] at hrest
        cases hrest
        exact ascend_ne_none_of_rings hrings 1 ((ascend_one _).trans htop)
      | succ e =>
        rw [hd, ascend, htop] at hrest
        cases hrest
    · obtain ⟨y, hy, hrest⟩ := ascend_of_le hle hm
      rw [hx] at hy
      cases hy
      exact ascend_ne_none_of_rings hrings (d - a + 1) ((ascend_succ hrest).trans htop)
  · intro hring
    have hnone : p.ascend (p.entries.length + 1) n = none := by
      by_contra h
      exact hring (rings_of_ascend h)
    generalize p.entries.length + 1 = d at hnone
    clear hring
    induction d with
    | zero => cases hnone
    | succ d ih =>
      cases hd : p.ascend d n with
      | none => exact ih hd
      | some m =>
        rw [ascend_succ hd] at hnone
        exact ⟨d, m, hd, hnone⟩

theorem top_unique {a b : Nat} {x y : Parent} (hx : p.ascend a n = some x)
    (htop : p.above? x = none) (hy : p.ascend b n = some y) (htop' : p.above? y = none) :
    a = b ∧ x = y := by
  wlog hab : a ≤ b with hle
  · obtain ⟨rfl, rfl⟩ := hle hy htop' hx htop (Nat.le_of_not_le hab)
    exact ⟨rfl, rfl⟩
  obtain ⟨z, hz, hrest⟩ := ascend_of_le hab hy
  rw [hx] at hz
  cases hz
  cases hd : b - a with
  | zero =>
    obtain rfl : a = b := by omega
    rw [hx] at hy
    exact ⟨rfl, Option.some.inj hy⟩
  | succ d =>
    rw [hd, ascend, htop] at hrest
    cases hrest

end Plan

end SheetTemplate
