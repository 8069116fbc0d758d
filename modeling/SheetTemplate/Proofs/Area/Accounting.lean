import SheetTemplate.Proofs.Area.Forest

/-!
What becomes of every command of a template. It is found below one root, or it lies outside of all
areas or below a command that does, and this is said; or else its way up turns in a ring, and
nothing is said. There is no ring where no second area is larger than the rectangle of its command.
-/

namespace SheetTemplate

open FillM FillState

namespace Plan

variable {p : Plan} {n m : Parent} {i j k : Nat}

def Reaches (p : Plan) (j i : Nat) : Prop :=
  .inner i 0 ∈ p.tour (p.entries.length + 1) (.root j)

def Under (p : Plan) (i j : Nat) : Prop := ∃ d k, p.ascend d (.inner i 0) = some (.inner j k)

/-- Whether the way up from a command turns in a ring. -/
def Circles (p : Plan) (i : Nat) : Prop := ∃ d m, p.ascend d (.inner i 0) = some m ∧ p.Rings m

/-- A command that is below one root, or of which it is said that it lies outside of all areas, or
that a command does which it is bound under. -/
def Accounted (p : Plan) (i : Nat) : Prop :=
  (∃! j, p.Reaches j i) ∨
    ∃ j e, p.Under i j ∧ p.entries[j]? = some e ∧ p.notice (e, j) = outside e

theorem rectangle?_of_above? (h : p.above? n = some m) : (p.rectangle? m).isSome = true := by
  obtain ⟨i, k, rfl, -, hparent⟩ := above?_eq_some h
  rcases parentOf_cases hparent with ⟨j, k', _, e, area, rfl, -, he, hk, -⟩ | ⟨j, rfl, hj⟩
  · rw [rectangle?, he, Option.bind_some, hk]
    rfl
  · rw [rectangle?, List.getElem?_eq_getElem hj]
    rfl

theorem mem_below (hp : p.Complete) (h : p.above? m = some n)
    (hm : (p.rectangle? m).isSome = true) : m ∈ p.below n := by
  obtain ⟨i, k, rfl, -, hparent⟩ := above?_eq_some h
  obtain ⟨e, area, he, hfound⟩ := parentOf_eq_some hparent
  have hchild : (e, i, sizeIn e area) ∈ p.sorted n :=
    (List.mergeSort_perm _ _).mem_iff.2 ((mem_children hp).2 ⟨he, area, hfound, rfl⟩)
  rw [rectangle?, he, Option.bind_some] at hm
  obtain ⟨area', hk⟩ := Option.isSome_iff_exists.1 hm
  have hlt : k < e.areas.length := (List.getElem?_eq_some_iff.1 hk).1
  exact List.mem_flatMap.2 ⟨_, hchild, List.mem_map.2 ⟨k, List.mem_range.2 hlt, rfl⟩⟩

theorem mem_tour_of_ascend (hp : p.Complete) {x : Parent} (hx : (p.rectangle? x).isSome = true)
    {d : Nat} (h : p.ascend d x = some n) {fuel : Nat} (hd : d ≤ fuel) : x ∈ p.tour fuel n := by
  induction d generalizing n fuel with
  | zero =>
    cases h
    cases fuel <;> exact List.mem_cons_self
  | succ d ih =>
    obtain ⟨y, hy, hup⟩ := ascend_succ_eq_some.1 h
    have hy' : (p.rectangle? y).isSome = true := by
      cases d with
      | zero =>
        cases hy
        exact hx
      | succ d =>
        obtain ⟨z, -, hz⟩ := ascend_succ_eq_some.1 hy
        exact rectangle?_of_above? hz
    cases fuel with
    | zero => omega
    | succ fuel =>
      refine List.mem_cons_of_mem n (List.mem_flatMap.2 ⟨y, mem_below hp hup hy', ?_⟩)
      exact ih hy (Nat.le_of_succ_le_succ hd)

theorem le_of_ascend_root {d : Nat} (h : p.ascend d n = some (.root j)) :
    d ≤ p.entries.length := by
  by_contra hd
  obtain ⟨m, hm, -⟩ := ascend_of_le (Nat.not_le.1 hd) h
  have hne : p.ascend (p.entries.length + 1) n ≠ none := by
    rw [hm]
    exact Option.some_ne_none m
  exact (ends_iff n).1 ⟨d, _, h, rfl⟩ (rings_of_ascend hne)

theorem reaches_iff (hp : p.Complete) (hi : i < p.entries.length) :
    p.Reaches j i ↔ ∃ d, p.ascend d (.inner i 0) = some (.root j) := by
  constructor
  · exact ascend_of_mem_tour hp
  · rintro ⟨d, hd⟩
    refine mem_tour_of_ascend hp ?_ hd (Nat.le_succ_of_le (le_of_ascend_root hd))
    rw [rectangle?, List.getElem?_eq_getElem hi]
    rfl

theorem notice_eq_outside {e : CommandEntry} (he : p.entries[i]? = some e) :
    p.notice (e, i) = outside e ↔ p.parentOf i = none := by
  rw [parentOf, he, Option.bind_some, Option.map_eq_none_iff, notice]
  dsimp only
  split
  · next hnone => simp [hnone]
  · next area hsome =>
    rw [hsome]
    simp [outside]

theorem accounted_iff (hp : p.Complete) (hi : i < p.entries.length) :
    p.Accounted i ↔ ¬ p.Circles i := by
  rw [Circles, ← ends_iff]
  constructor
  · rintro (⟨j, hj, -⟩ | ⟨j, e, ⟨d, k, hd⟩, he, hnotice⟩)
    · obtain ⟨d, hd⟩ := (reaches_iff hp hi).1 hj
      exact ⟨d, _, hd, rfl⟩
    · exact ⟨d, _, hd, (notice_eq_outside he).1 hnotice⟩
  · rintro ⟨d, m, hm, htop⟩
    cases m with
    | root j =>
      refine .inl ⟨j, (reaches_iff hp hi).2 ⟨d, hm⟩, fun j' hj' => ?_⟩
      obtain ⟨d', hd'⟩ := (reaches_iff hp hi).1 hj'
      exact Parent.root.inj (top_unique hd' rfl hm rfl).2
    | inner j k =>
      have hj : ∃ e, p.entries[j]? = some e := by
        cases d with
        | zero =>
          cases hm
          exact ⟨_, List.getElem?_eq_getElem hi⟩
        | succ d =>
          obtain ⟨x, -, hx⟩ := ascend_succ_eq_some.1 hm
          have hsome := rectangle?_of_above? hx
          rw [rectangle?] at hsome
          cases he : p.entries[j]? with
          | none => rw [he] at hsome; cases hsome
          | some e => exact ⟨e, rfl⟩
      obtain ⟨e, he⟩ := hj
      exact .inr ⟨j, e, ⟨d, k, hm⟩, he, (notice_eq_outside he).2 htop⟩

def weight (p : Plan) (i : Nat) : Int := (p.entries[i]?.map (·.size.cellCount)).getD 0

def Modest (p : Plan) : Prop :=
  ∀ e ∈ p.entries, ∀ a ∈ e.second?, a.size.cellCount ≤ e.size.cellCount

theorem Modest.areas (h : p.Modest) {e : CommandEntry} (he : e ∈ p.entries) {area : CellRef × Size}
    (harea : area ∈ e.areas) : area.2.cellCount ≤ e.size.cellCount := by
  rcases List.mem_cons.1 harea with rfl | hsecond
  · exact Int.le_refl _
  · obtain ⟨a, ha, rfl⟩ := Option.map_eq_some_iff.1 (Option.mem_toList.1 hsecond)
    exact h e he a ha

theorem Modest.weight_lt (h : p.Modest) (hparent : p.parentOf i = some (.inner j k)) :
    p.weight i < p.weight j := by
  rcases parentOf_cases hparent with ⟨j', k', e, e', area, heq, he, he', hk, hlt⟩ | ⟨j', heq, -⟩
  · obtain ⟨rfl, rfl⟩ := Parent.inner.inj heq
    have hle := h.areas (List.mem_of_getElem? he') (List.mem_of_getElem? hk)
    simp only [weight, he, he', Option.map_some, Option.getD_some]
    omega
  · cases heq

theorem Modest.weight_lt_of_ascend (h : p.Modest) {k' d : Nat}
    (hd : p.ascend (d + 1) (.inner i k) = some (.inner j k')) : p.weight i < p.weight j := by
  induction d generalizing j k' with
  | zero =>
    rw [Nat.zero_add, ascend_one] at hd
    exact h.weight_lt hd
  | succ d ih =>
    obtain ⟨x, hx, hup⟩ := ascend_succ_eq_some.1 hd
    obtain ⟨a, b, rfl, -, hparent⟩ := above?_eq_some hup
    exact Int.lt_trans (ih hx) (h.weight_lt hparent)

theorem Modest.not_circles (h : p.Modest) (i : Nat) : ¬ p.Circles i := by
  rintro ⟨_, m, -, d, hd⟩
  cases m with
  | root j => cases hd
  | inner j k => exact Int.lt_irrefl _ (h.weight_lt_of_ascend hd)

end Plan

namespace FillM

/-- Every command that the registry knows is found below exactly one root, or it is warned of it or
of a command that it is bound under, exactly if its way up does not turn in a ring; and no way up
does where no second area is larger than the rectangle of its command. -/
theorem buildAreas_accounts {r : Registry} {listeners : List Nat} {s t : FillState}
    {roots : List Area} (h : exec (buildAreas r listeners) s = (.ok roots, t)) :
    ∃ p : Plan, exec (planAreas r) s = (.ok p, t) ∧
      (p.entries.map some).Perm ((s.template.directives.filter r.knows).map r.entry?) ∧
      List.Forall₂ (fun n a => p.Depicts n a.1) p.nodes (roots.flatMap (Area.walk 0)) ∧
      (∃ unknown, (∀ l ∈ unknown, l.source = "registry") ∧
        t.log = s.log ++ unknown ++ p.entries.zipIdx.map p.notice ++ [p.summary]) ∧
      (∀ i < p.entries.length, p.Accounted i ↔ ¬ p.Circles i) ∧
      (p.Modest → ∀ i < p.entries.length, p.Accounted i) := by
  rw [exec_buildAreas] at h
  rcases hplan : exec (planAreas r) s with ⟨e | p, u⟩
  · rw [hplan] at h
    cases h
  · rw [hplan] at h
    cases h
    obtain ⟨hp, hentries, hlog⟩ := planAreas_ok hplan
    exact ⟨p, rfl, hentries, Plan.depicts_forest hp listeners, hlog,
      fun i hi => Plan.accounted_iff hp hi,
      fun hmodest i hi => (Plan.accounted_iff hp hi).2 (hmodest.not_circles i)⟩

def ring : Workbook where
  sheets :=
    [((({ title := "S" } : Sheet).setCell ⟨0, 0⟩
            { value := .int 1, comment? := some "jx:area(lastCell=\"F6\")" }).setCell ⟨1, 1⟩
          { value := .int 2
            comment? := some "jx:each(items=\"items\" var=\"e\" lastCell=\"D4\")" }).setCell ⟨2, 2⟩
        { value := .int 3
          comment? := some "jx:if(condition=\"true\" lastCell=\"C3\" areas=[\"C3:C3\",\"A1:E5\"])" }]

/-- Both commands are bound to each other; neither is found below the root, and nothing is said. -/
theorem ring_unaccounted :
    ∃ roots t p, exec (buildAreas .builtin []) (.ofWorkbook ring) = (.ok roots, t) ∧
      exec (planAreas .builtin) (.ofWorkbook ring) = (.ok p, t) ∧ p.entries.length = 2 ∧
      p.parentOf 0 = some (.inner 1 1) ∧ p.parentOf 1 = some (.inner 0 0) ∧
      ¬ p.Accounted 0 ∧ ¬ p.Accounted 1 := by
  have hread : (exec (readAreas .builtin) (.ofWorkbook ring)).1.toOption.map (fun q =>
      (decide (q.entries.Pairwise fun a b => a.before b = true), q.entries.length, q.parentOf 0,
        q.parentOf 1)) = some (true, 2, some (.inner 1 1), some (.inner 0 0)) := by
    decide +kernel
  obtain ⟨q, hq, hfacts⟩ := Option.map_eq_some_iff.1 hread
  simp only [Prod.mk.injEq, decide_eq_true_eq] at hfacts
  obtain ⟨hsorted, hlength, hfirst, hsecond⟩ := hfacts
  obtain ⟨u, hplan⟩ := exec_planAreas_of_pairwise (eq_ok_of_toOption hq) hsorted
  have hbuild : exec (buildAreas .builtin []) (.ofWorkbook ring) =
      (.ok (q.completed.forest []), u) := by
    rw [exec_buildAreas, hplan]
    rfl
  obtain ⟨p, hp, -, -, -, haccounted, -⟩ := buildAreas_accounts hbuild
  rw [hplan] at hp
  cases hp
  have hring : q.completed.Rings (.inner 0 0) := by
    refine ⟨1, Plan.ascend_succ_eq_some.2 ⟨.inner 1 1, ?_, hsecond⟩⟩
    exact (Plan.ascend_one _).trans hfirst
  have hlt : 1 < q.completed.entries.length := by
    rw [show q.completed.entries = q.entries from rfl, hlength]
    decide
  refine ⟨_, u, _, hbuild, hplan, hlength, hfirst, hsecond, fun h => ?_, fun h => ?_⟩
  · exact (haccounted 0 (by omega)).1 h ⟨0, _, rfl, hring⟩
  · exact (haccounted 1 hlt).1 h ⟨1, _, (Plan.ascend_one _).trans hsecond, hring⟩

end FillM

end SheetTemplate
