import SheetTemplate.Proofs.Area.Planning

namespace SheetTemplate

namespace Plan

variable {p : Plan} {n : Parent} {i j k : Nat} {e f : CommandEntry} {area found : CellRef × Size}

section Best

variable {α β : Type} {pick : Option β → α → Option β}

theorem mem_of_best (Good : α → β → Prop)
    (hpick : ∀ best a x, pick best a = some x → best = some x ∨ Good a x) {l : List α}
    {best : Option β} {x : β} (h : l.foldl pick best = some x) :
    best = some x ∨ ∃ a ∈ l, Good a x := by
  induction l generalizing best with
  | nil => exact .inl h
  | cons a l ih =>
    rcases ih h with hbest | ⟨b, hb, hgood⟩
    · rcases hpick best a x hbest with hbest | hgood
      · exact .inl hbest
      · exact .inr ⟨a, List.mem_cons_self, hgood⟩
    · exact .inr ⟨b, List.mem_cons_of_mem a hb, hgood⟩

theorem best_keeps {Q : β → Prop} (hkeep : ∀ y a, Q y → ∃ x, pick (some y) a = some x ∧ Q x)
    {l : List α} {a : α} (ha : a ∈ l) (hpick : ∀ best, ∃ x, pick best a = some x ∧ Q x)
    (best : Option β) : ∃ x, l.foldl pick best = some x ∧ Q x := by
  obtain ⟨front, back, rfl⟩ := List.append_of_mem ha
  rw [List.foldl_append, List.foldl_cons]
  obtain ⟨y, hy, hQ⟩ := hpick (front.foldl pick best)
  rw [hy]
  clear hy ha
  induction back generalizing y with
  | nil => exact ⟨y, rfl, hQ⟩
  | cons b back ih =>
    obtain ⟨x, hx, hQ⟩ := hkeep y b hQ
    rw [List.foldl_cons, hx]
    exact ih x hQ

end Best

theorem tighter_cases {best : Option (Parent × CellRef × Size)} {parent : Parent}
    {x : Parent × CellRef × Size} (h : tighter best parent area = some x) :
    best = some x ∨ x = (parent, area) := by
  unfold tighter at h
  split at h
  · split at h
    · exact .inr (Option.some.inj h).symm
    · exact .inl h
  · exact .inr (Option.some.inj h).symm

theorem tighter_le (best : Option (Parent × CellRef × Size)) (parent : Parent)
    (area : CellRef × Size) :
    ∃ x, tighter best parent area = some x ∧ x.2.2.cellCount ≤ area.2.cellCount ∧
      ∀ y ∈ best, x.2.2.cellCount ≤ y.2.2.cellCount := by
  cases best with
  | none => exact ⟨_, rfl, Int.le_refl _, fun _ h => nomatch h⟩
  | some y =>
    obtain ⟨parent', area'⟩ := y
    simp only [tighter, Option.mem_some, forall_eq']
    split
    · next hlt => exact ⟨_, rfl, Int.le_refl _, Int.le_of_lt hlt⟩
    · next hle => exact ⟨_, rfl, Int.not_lt.1 hle, Int.le_refl _⟩

theorem contains_iff {r : CellRef} : contains area r = true ↔ area.2.Holds area.1 r := by
  rw [contains, Bool.and_eq_true, beq_iff_eq, Size.holds_iff]

theorem mem_innerAreas {entries : List CommandEntry} :
    (i, k, area) ∈ innerAreas entries ↔ ∃ e, entries[i]? = some e ∧ e.areas[k]? = some area := by
  constructor
  · intro h
    obtain ⟨⟨e, i'⟩, he, h⟩ := List.mem_flatMap.1 h
    obtain ⟨⟨a, k'⟩, ha, h⟩ := List.mem_map.1 h
    cases h
    exact ⟨e, List.mem_zipIdx_iff_getElem?.1 he, List.mem_zipIdx_iff_getElem?.1 ha⟩
  · rintro ⟨e, he, hk⟩
    exact List.mem_flatMap.2 ⟨(e, i), List.mem_zipIdx_iff_getElem?.2 he,
      List.mem_map.2 ⟨(area, k), List.mem_zipIdx_iff_getElem?.2 hk, rfl⟩⟩

def better (i : Nat) (e : CommandEntry) (best : Option (Parent × CellRef × Size))
    (a : Nat × Nat × CellRef × Size) : Option (Parent × CellRef × Size) :=
  if a.1 != i && e.size.cellCount < a.2.2.2.cellCount && contains a.2.2 e.start then
    tighter best (.inner a.1 a.2.1) a.2.2
  else best

theorem parent?_eq (p : Plan) (i : Nat) (e : CommandEntry) :
    p.parent? i e = ((innerAreas p.entries).foldl (better i e) none).or
      ((p.roots.zipIdx.find? fun x => contains x.1 e.start).map fun x => (.root x.2, x.1)) := by
  unfold parent?
  dsimp only
  split
  · next found hbest =>
    rw [show (innerAreas p.entries).foldl (better i e) none = some found from hbest, Option.some_or]
  · next hbest =>
    rw [show (innerAreas p.entries).foldl (better i e) none = none from hbest, Option.none_or]

theorem best_cases {x : Parent × CellRef × Size}
    (h : (innerAreas p.entries).foldl (better i e) none = some x) :
    ∃ j k f, x.1 = .inner j k ∧ j ≠ i ∧ p.entries[j]? = some f ∧ f.areas[k]? = some x.2 ∧
      e.size.cellCount < x.2.2.cellCount ∧ contains x.2 e.start = true := by
  have hpick := mem_of_best (fun (a : Nat × Nat × CellRef × Size) x =>
    (a.1 != i && e.size.cellCount < a.2.2.2.cellCount && contains a.2.2 e.start) = true ∧
      x = (Parent.inner a.1 a.2.1, a.2.2)) ?_ h
  · obtain ⟨⟨j, k, area⟩, hmem, hcond, rfl⟩ := hpick.resolve_left (fun h => nomatch h)
    simp only [Bool.and_eq_true, bne_iff_ne, decide_eq_true_eq] at hcond
    obtain ⟨f, hf, hk⟩ := mem_innerAreas.1 hmem
    exact ⟨j, k, f, rfl, hcond.1.1, hf, hk, hcond.1.2, hcond.2⟩
  · intro best a x hx
    unfold better at hx
    split at hx
    · next hcond => exact (tighter_cases hx).imp_right fun h => ⟨hcond, h⟩
    · exact .inl hx

theorem parent?_cases (h : p.parent? i e = some (n, area)) :
    contains area e.start = true ∧
      ((∃ j k e', n = .inner j k ∧ j ≠ i ∧ p.entries[j]? = some e' ∧ e'.areas[k]? = some area ∧
          e.size.cellCount < area.2.cellCount) ∨
        ∃ j, n = .root j ∧ p.roots[j]? = some area) := by
  rw [parent?_eq] at h
  cases hbest : (innerAreas p.entries).foldl (better i e) none with
  | some x =>
    rw [hbest, Option.some_or] at h
    cases h
    obtain ⟨j, k, f, hn, hj, hf, hk, hlarger, hcontains⟩ := best_cases hbest
    exact ⟨hcontains, .inl ⟨j, k, f, hn, hj, hf, hk, hlarger⟩⟩
  | none =>
    rw [hbest, Option.none_or] at h
    obtain ⟨⟨area', j⟩, hfind, h⟩ := Option.map_eq_some_iff.1 h
    cases h
    have hcontains := List.find?_some hfind
    have hmem := List.mem_of_find?_eq_some hfind
    exact ⟨hcontains, .inr ⟨j, rfl, List.mem_zipIdx_iff_getElem?.1 hmem⟩⟩

theorem parent?_least (h : p.parent? i e = some (n, found)) (hj : j ≠ i)
    (hf : p.entries[j]? = some f) (hk : f.areas[k]? = some area)
    (hlarger : e.size.cellCount < area.2.cellCount) (hin : contains area e.start = true) :
    found.2.cellCount ≤ area.2.cellCount ∧ ∃ j k, n = .inner j k := by
  have hkeep : ∀ y a, y.2.2.cellCount ≤ area.2.cellCount →
      ∃ x, better i e (some y) a = some x ∧ x.2.2.cellCount ≤ area.2.cellCount := by
    intro y a hy
    unfold better
    split
    · obtain ⟨x, hx, -, hle⟩ := tighter_le (some y) (.inner a.1 a.2.1) a.2.2
      exact ⟨x, hx, Int.le_trans (hle y rfl) hy⟩
    · exact ⟨y, rfl, hy⟩
  have hpick : ∀ best,
      ∃ x, better i e best (j, k, area) = some x ∧ x.2.2.cellCount ≤ area.2.cellCount := by
    intro best
    have hcond : (j != i && e.size.cellCount < area.2.cellCount && contains area e.start) = true := by
      simp only [Bool.and_eq_true, bne_iff_ne, decide_eq_true_eq]
      exact ⟨⟨hj, hlarger⟩, hin⟩
    rw [better, if_pos hcond]
    obtain ⟨x, hx, hle, -⟩ := tighter_le best (.inner j k) area
    exact ⟨x, hx, hle⟩
  obtain ⟨x, hx, hle⟩ := best_keeps hkeep (mem_innerAreas.2 ⟨f, hf, hk⟩) hpick none
  rw [parent?_eq, hx, Option.some_or] at h
  cases h
  obtain ⟨j', k', -, hn, -⟩ := best_cases hx
  exact ⟨hle, j', k', hn⟩

end Plan

end SheetTemplate
