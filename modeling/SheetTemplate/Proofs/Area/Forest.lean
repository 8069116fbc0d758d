import Mathlib.Data.List.Forall2
import SheetTemplate.Proofs.Area.Ascent

namespace SheetTemplate

open FillM FillState

namespace Area

theorem walkAll_eq (depth : Nat) (areas : List Area) :
    walkAll depth areas = areas.flatMap (walk depth) := by
  induction areas with
  | nil => rfl
  | cons a areas ih => rw [walkAll, ih, List.flatMap_cons]

theorem walkBindings_eq (depth : Nat) (bindings : List Binding) :
    walkBindings depth bindings = (bindings.flatMap (·.areas)).flatMap (walk depth) := by
  induction bindings with
  | nil => rfl
  | cons b bindings ih =>
    obtain ⟨command, start, size, areas⟩ := b
    rw [walkBindings, ih, walkAll_eq, List.flatMap_cons, List.flatMap_append]

theorem walk_eq (depth : Nat) (a : Area) :
    a.walk depth = (a, depth) :: (a.bindings.flatMap (·.areas)).flatMap (walk (depth + 1)) := by
  obtain ⟨start, size, bindings, listeners, bound⟩ := a
  rw [walk, walkBindings_eq]

end Area

namespace Plan

variable {p : Plan} {n m : Parent} {i k : Nat}

theorem sublist_map_filterMap {α β γ : Type} {f : α → Option β} {g : β → γ} {h : α → γ}
    (hf : ∀ a b, f a = some b → g b = h a) (l : List α) :
    ((l.filterMap f).map g).Sublist (l.map h) := by
  induction l with
  | nil => exact .slnil
  | cons a l ih =>
    rw [List.filterMap_cons]
    split
    · exact ih.cons _
    · next b hb =>
      rw [List.map_cons, List.map_cons, hf a b hb]
      exact ih.cons_cons _

theorem nodup_bound (hp : p.Complete) : (p.bound.map fun b => b.2.2.1).Nodup := by
  rw [hp]
  refine List.Sublist.nodup (sublist_map_filterMap (h := Prod.snd) ?_ _) ?_
  · rintro ⟨e, i⟩ b hb
    obtain ⟨⟨parent, area⟩, -, rfl⟩ := Option.map_eq_some_iff.1 hb
    rfl
  · rw [List.zipIdx_map_snd]
    exact List.nodup_range'

theorem nodup_children (hp : p.Complete) (n : Parent) : ((p.children n).map (·.2.1)).Nodup := by
  rw [children, List.map_map]
  exact (List.filter_sublist.map _).nodup (nodup_bound hp)

theorem mem_children (hp : p.Complete) {c : CommandEntry × Nat × Size} :
    c ∈ p.children n ↔ p.entries[c.2.1]? = some c.1 ∧
      ∃ area, p.parent? c.2.1 c.1 = some (n, area) ∧ c.2.2 = sizeIn c.1 area := by
  obtain ⟨e, i, size⟩ := c
  rw [children, hp]
  constructor
  · intro h
    obtain ⟨⟨n', c⟩, hmem, rfl⟩ := List.mem_map.1 h
    obtain ⟨hmem, hn⟩ := List.mem_filter.1 hmem
    obtain ⟨⟨e', i'⟩, hentry, hlink⟩ := List.mem_filterMap.1 hmem
    obtain ⟨⟨parent, area⟩, hparent, hlink⟩ := Option.map_eq_some_iff.1 hlink
    cases hlink
    obtain rfl : n' = n := by simpa using hn
    exact ⟨List.mem_zipIdx_iff_getElem?.1 hentry, area, hparent, rfl⟩
  · rintro ⟨he, area, hparent, hsize⟩
    dsimp only at he hparent hsize
    rw [hsize]
    refine List.mem_map.2 ⟨(n, e, i, sizeIn e area), List.mem_filter.2 ⟨?_, by simp⟩, rfl⟩
    refine List.mem_filterMap.2 ⟨(e, i), List.mem_zipIdx_iff_getElem?.2 he, ?_⟩
    exact congrArg (Option.map _) hparent

def sorted (p : Plan) (n : Parent) : List (CommandEntry × Nat × Size) :=
  (p.children n).mergeSort childBefore

def below (p : Plan) (n : Parent) : List Parent :=
  (p.sorted n).flatMap fun c => (List.range c.1.areas.length).map (.inner c.2.1)

def tour (p : Plan) : Nat → Parent → List Parent
  | 0, n => [n]
  | fuel + 1, n => n :: (p.below n).flatMap (p.tour fuel)

def nodes (p : Plan) : List Parent :=
  (List.range p.roots.length).flatMap fun j => p.tour (p.entries.length + 1) (.root j)

def rectangle? (p : Plan) : Parent → Option (CellRef × Size)
  | .root j => p.roots[j]?
  | .inner i k => p.entries[i]?.bind (·.areas[k]?)

theorem rectangle?_of_parent? {e : CommandEntry} {area : CellRef × Size}
    (h : p.parent? i e = some (n, area)) : p.rectangle? n = some area := by
  rcases (parent?_cases h).2 with ⟨j, k, e', rfl, -, he, hk, -⟩ | ⟨j, rfl, hj⟩
  · rw [rectangle?, he, Option.bind_some, hk]
  · rw [rectangle?, hj]

theorem mem_sorted (hp : p.Complete) {c : CommandEntry × Nat × Size} (h : c ∈ p.sorted n) :
    p.entries[c.2.1]? = some c.1 ∧ p.parentOf c.2.1 = some n := by
  obtain ⟨he, area, hparent, -⟩ := (mem_children hp).1 ((List.mergeSort_perm _ _).mem_iff.1 h)
  refine ⟨he, ?_⟩
  rw [parentOf, he, Option.bind_some, hparent]
  rfl

theorem above?_of_mem_below (hp : p.Complete) (h : m ∈ p.below n) : p.above? m = some n := by
  obtain ⟨c, hc, hm⟩ := List.mem_flatMap.1 h
  obtain ⟨k, -, rfl⟩ := List.mem_map.1 hm
  exact (mem_sorted hp hc).2

theorem nodup_below (hp : p.Complete) (n : Parent) : (p.below n).Nodup := by
  have hsorted : ((p.sorted n).map (·.2.1)).Nodup :=
    ((List.mergeSort_perm _ _).map _).nodup_iff.2 (nodup_children hp n)
  refine List.nodup_flatMap.2 ⟨fun c _ => ?_, ?_⟩
  · exact List.nodup_range.map fun a b h => (Parent.inner.inj h).2
  · refine (List.pairwise_map.1 hsorted).imp fun hne => ?_
    rintro x hx hy
    obtain ⟨_, -, rfl⟩ := List.mem_map.1 hx
    obtain ⟨_, -, heq⟩ := List.mem_map.1 hy
    exact hne (Parent.inner.inj heq).1.symm

theorem ascend_of_mem_tour (hp : p.Complete) {fuel : Nat} (h : m ∈ p.tour fuel n) :
    ∃ d, p.ascend d m = some n := by
  induction fuel generalizing n with
  | zero =>
    rw [List.mem_singleton.1 h]
    exact ⟨0, rfl⟩
  | succ fuel ih =>
    rcases List.mem_cons.1 h with rfl | h
    · exact ⟨0, rfl⟩
    · obtain ⟨x, hx, hm⟩ := List.mem_flatMap.1 h
      obtain ⟨d, hd⟩ := ih hm
      exact ⟨d + 1, (ascend_succ hd).trans (above?_of_mem_below hp hx)⟩

theorem eq_of_common (hring : ¬ p.Rings n) {x y : Parent} (hx : p.above? x = some n)
    (hy : p.above? y = some n) {a b : Nat} (ha : p.ascend a m = some x)
    (hb : p.ascend b m = some y) : x = y := by
  wlog hab : a ≤ b with hle
  · exact (hle hring hy hx hb ha (Nat.le_of_not_le hab)).symm
  have hna := (ascend_succ ha).trans hx
  have hnb := (ascend_succ hb).trans hy
  obtain ⟨z, hz, hrest⟩ := ascend_of_le (Nat.succ_le_succ hab) hnb
  rw [hna] at hz
  cases hz
  cases hd : b - a with
  | zero =>
    obtain rfl : a = b := by omega
    rw [ha] at hb
    exact Option.some.inj hb
  | succ d =>
    rw [Nat.succ_sub_succ, hd] at hrest
    exact absurd ⟨d, hrest⟩ hring

theorem not_rings_below (hring : ¬ p.Rings n) (hm : p.above? m = some n) : ¬ p.Rings m := by
  rintro ⟨d, hd⟩
  rw [ascend, hm, Option.bind_some] at hd
  exact hring ⟨d, (ascend_succ hd).trans hm⟩

theorem nodup_tour (hp : p.Complete) (hring : ¬ p.Rings n) (fuel : Nat) :
    (p.tour fuel n).Nodup := by
  induction fuel generalizing n with
  | zero => exact List.nodup_singleton n
  | succ fuel ih =>
    refine List.nodup_cons.2 ⟨fun hmem => ?_, List.nodup_flatMap.2 ⟨fun m hm => ?_, ?_⟩⟩
    · obtain ⟨m, hm, hn⟩ := List.mem_flatMap.1 hmem
      obtain ⟨d, hd⟩ := ascend_of_mem_tour hp hn
      exact hring ⟨d, (ascend_succ hd).trans (above?_of_mem_below hp hm)⟩
    · exact ih (not_rings_below hring (above?_of_mem_below hp hm))
    · refine (nodup_below hp n).imp_of_mem fun hx hy hne z hzx hzy => hne ?_
      obtain ⟨a, ha⟩ := ascend_of_mem_tour hp hzx
      obtain ⟨b, hb⟩ := ascend_of_mem_tour hp hzy
      exact eq_of_common hring (above?_of_mem_below hp hx) (above?_of_mem_below hp hy) ha hb

theorem not_rings_root (p : Plan) (j : Nat) : ¬ p.Rings (.root j) := by
  rintro ⟨d, hd⟩
  cases hd

theorem nodup_nodes (hp : p.Complete) : p.nodes.Nodup := by
  refine List.nodup_flatMap.2 ⟨fun j _ => nodup_tour hp (not_rings_root p j) _, ?_⟩
  refine List.nodup_range.imp fun hne x hx hy => hne ?_
  obtain ⟨a, ha⟩ := ascend_of_mem_tour hp hx
  obtain ⟨b, hb⟩ := ascend_of_mem_tour hp hy
  exact Parent.root.inj (top_unique ha rfl hb rfl).2

theorem ascend_ne_root (p : Plan) (m : Parent) (j : Nat) :
    p.ascend (p.entries.length + 1) m ≠ some (.root j) := by
  intro h
  have hne : p.ascend (p.entries.length + 1) m ≠ none := by
    rw [h]
    exact Option.some_ne_none _
  exact (ends_iff m).1 ⟨_, _, h, rfl⟩ (rings_of_ascend hne)

theorem acc_of_ascend {fuel : Nat} (h : ∀ m, p.ascend fuel m ≠ some n) :
    Acc (fun x y => p.above? x = some y) n := by
  induction fuel generalizing n with
  | zero => exact absurd rfl (h n)
  | succ fuel ih =>
    refine ⟨n, fun m hm => ih fun x hx => h x ?_⟩
    exact (ascend_succ hx).trans hm

/-- An area shows its rectangle in the plan, and all that is bound to it in the plan. -/
structure Depicts (p : Plan) (n : Parent) (a : Area) : Prop where
  rectangle : p.rectangle? n = some (a.start, a.size)
  bindings : List.Forall₂ (fun (c : CommandEntry × Nat × Size) (b : Binding) =>
    b.command = c.1.command ∧ b.start = c.1.start ∧ b.size = c.2.2 ∧
      b.areas.map (fun a => (a.start, a.size)) = c.1.areas) (p.sorted n) a.bindings

theorem Depicts.area_eq {a : Area} {e : CommandEntry} {area : CellRef × Size} (h : p.Depicts n a)
    (hparent : p.parent? i e = some (n, area)) : area = (a.start, a.size) :=
  Option.some.inj ((rectangle?_of_parent? hparent).symm.trans h.rectangle)

theorem grow_succ (listeners : List Nat) (fuel : Nat) (n : Parent) (area : CellRef × Size) :
    (p.grow listeners (fuel + 1) n area).bindings =
      (p.sorted n).map fun c =>
        { command := c.1.command
          start := c.1.start
          size := c.2.2
          areas := c.1.areas.zipIdx.map fun (a, k) =>
            p.grow listeners fuel (.inner c.2.1 k) a } := rfl

theorem grow_start (listeners : List Nat) (fuel : Nat) (n : Parent) (area : CellRef × Size) :
    (p.grow listeners fuel n area).start = area.1 ∧ (p.grow listeners fuel n area).size = area.2 := by
  cases fuel <;> exact ⟨rfl, rfl⟩

theorem depicts_grow (listeners : List Nat) (fuel : Nat) {area : CellRef × Size}
    (h : p.rectangle? n = some area) : p.Depicts n (p.grow listeners (fuel + 1) n area) := by
  refine ⟨h, ?_⟩
  rw [grow_succ, List.forall₂_map_right_iff]
  refine List.forall₂_same.2 fun c _ => ⟨rfl, rfl, rfl, ?_⟩
  rw [List.map_map]
  refine Eq.trans ?_ (List.zipIdx_map_fst 0 c.1.areas)
  refine List.map_congr_left fun ⟨a, k⟩ _ => ?_
  have := grow_start (p := p) listeners fuel (.inner c.2.1 k) a
  exact Prod.ext this.1 this.2

theorem range_eq_zipIdx {α : Type} (l : List α) : List.range l.length = l.zipIdx.map (·.2) := by
  rw [List.zipIdx_map_snd, List.range_eq_range']

theorem below_grow (hp : p.Complete) (listeners : List Nat) (fuel : Nat) (area : CellRef × Size) :
    List.Forall₂
      (fun m a => p.above? m = some n ∧
        ∃ area, p.rectangle? m = some area ∧ a = p.grow listeners fuel m area)
      (p.below n) ((p.grow listeners (fuel + 1) n area).bindings.flatMap (·.areas)) := by
  rw [grow_succ, List.flatMap_map, below]
  refine List.rel_flatMap (R := fun c c' => c = c' ∧ c ∈ p.sorted n)
    (List.forall₂_same.2 fun c hc => ⟨rfl, hc⟩) ?_
  rintro c _ ⟨rfl, hc⟩
  obtain ⟨he, hparent⟩ := mem_sorted hp hc
  dsimp only
  rw [range_eq_zipIdx, List.map_map, List.forall₂_map_left_iff, List.forall₂_map_right_iff]
  refine List.forall₂_same.2 fun ⟨a, k⟩ ha => ⟨hparent, a, ?_, rfl⟩
  have hk := List.mem_zipIdx_iff_getElem?.1 ha
  simp only [Function.comp_apply, rectangle?, he, Option.bind_some]
  exact hk

theorem depicts_walk (hp : p.Complete) (listeners : List Nat) {fuel : Nat}
    (h : ∀ m, p.ascend fuel m ≠ some n) {area : CellRef × Size} (harea : p.rectangle? n = some area)
    (depth : Nat) :
    List.Forall₂ (fun m a => p.Depicts m a.1) (p.tour fuel n)
      ((p.grow listeners fuel n area).walk depth) := by
  induction fuel generalizing n area depth with
  | zero => exact absurd rfl (h n)
  | succ fuel ih =>
    rw [Area.walk_eq]
    refine .cons (depicts_grow listeners fuel harea) ?_
    refine List.rel_flatMap (below_grow hp listeners fuel area) ?_
    rintro m _ ⟨hm, area', harea', rfl⟩
    exact ih (fun x hx => h x ((ascend_succ hx).trans hm)) harea' (depth + 1)

theorem depicts_forest (hp : p.Complete) (listeners : List Nat) :
    List.Forall₂ (fun m a => p.Depicts m a.1) p.nodes
      ((p.forest listeners).flatMap (Area.walk 0)) := by
  rw [nodes, range_eq_zipIdx, List.flatMap_map, forest, List.flatMap_map]
  refine List.rel_flatMap (R := fun c c' => c = c' ∧ c ∈ p.roots.zipIdx)
    (List.forall₂_same.2 fun c hc => ⟨rfl, hc⟩) ?_
  rintro ⟨area, j⟩ _ ⟨rfl, hc⟩
  exact depicts_walk hp listeners (fun m => ascend_ne_root p m j)
    (List.mem_zipIdx_iff_getElem?.1 hc) 0

end Plan

namespace FillM

/-- The areas that are built are a finite forest: every command is bound at most once, a walk from
the roots passes no area twice and finds all that is bound to each, and every way down from a root
ends. -/
theorem buildAreas_forest {r : Registry} {listeners : List Nat} {s t : FillState}
    {roots : List Area} (h : exec (buildAreas r listeners) s = (.ok roots, t)) :
    ∃ p : Plan, exec (planAreas r) s = (.ok p, t) ∧ roots = p.forest listeners ∧
      (p.bound.map fun b => b.2.2.1).Nodup ∧ p.nodes.Nodup ∧
      List.Forall₂ (fun n a => p.Depicts n a.1) p.nodes (roots.flatMap (Area.walk 0)) ∧
      ∀ j, Acc (fun m n => p.above? m = some n) (.root j) := by
  rw [exec_buildAreas] at h
  rcases hplan : exec (planAreas r) s with ⟨e | p, u⟩
  · rw [hplan] at h
    cases h
  · rw [hplan] at h
    cases h
    have hp := (planAreas_ok hplan).1
    exact ⟨p, rfl, rfl, Plan.nodup_bound hp, Plan.nodup_nodes hp, Plan.depicts_forest hp listeners,
      fun j => Plan.acc_of_ascend fun m => Plan.ascend_ne_root p m j⟩

def enclosing : Workbook where
  sheets :=
    [(({ title := "S" } : Sheet).setCell ⟨0, 0⟩
        { value := .int 1
          comment? := some "jx:area(lastCell=\"F6\")\njx:if(condition=\"true\" lastCell=\"A1\" areas=[\"A1:A1\",\"B2:D4\"])" }
      ).setCell ⟨2, 2⟩
        { value := .int 2, comment? := some "jx:each(items=\"items\" var=\"e\" lastCell=\"C3\")" }]

theorem enclosing_forest :
    ∃ roots t p, exec (buildAreas .builtin []) (.ofWorkbook enclosing) = (.ok roots, t) ∧
      exec (planAreas .builtin) (.ofWorkbook enclosing) = (.ok p, t) ∧
      p.parentOf 1 = some (.inner 0 1) ∧ p.nodes.Nodup ∧
      (roots.flatMap (Area.walk 0)).length = 4 ∧
      ∀ j, Acc (fun m n => p.above? m = some n) (.root j) := by
  have hread : (exec (readAreas .builtin) (.ofWorkbook enclosing)).1.toOption.map (fun q =>
      (decide (q.entries.Pairwise fun a b => a.before b = true), q.completed.parentOf 1,
        q.completed.nodes.length)) = some (true, some (.inner 0 1), 4) := by
    decide +kernel
  obtain ⟨q, hq, hfacts⟩ := Option.map_eq_some_iff.1 hread
  simp only [Prod.mk.injEq, decide_eq_true_eq] at hfacts
  obtain ⟨u, hplan⟩ := exec_planAreas_of_pairwise (eq_ok_of_toOption hq) hfacts.1
  have hbuild : exec (buildAreas .builtin []) (.ofWorkbook enclosing) =
      (.ok (q.completed.forest []), u) := by
    rw [exec_buildAreas, hplan]
    rfl
  obtain ⟨p, hp, -, -, hnodes, hwalk, hacc⟩ := buildAreas_forest hbuild
  rw [hplan] at hp
  cases hp
  exact ⟨_, u, _, hbuild, hplan, hfacts.2.1, hnodes, hwalk.length_eq ▸ hfacts.2.2, hacc⟩

end FillM

end SheetTemplate
