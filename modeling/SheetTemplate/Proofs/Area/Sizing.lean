import SheetTemplate.Proofs.Area.Forest
import SheetTemplate.Proofs.Area.Layout

namespace SheetTemplate

open FillM

namespace Size

structure Positive (s : Size) : Prop where
  width : 0 < s.width
  height : 0 < s.height

instance (s : Size) : Decidable s.Positive :=
  decidable_of_iff (0 < s.width ∧ 0 < s.height) ⟨fun h => ⟨h.1, h.2⟩, fun h => ⟨h.width, h.height⟩⟩

theorem Positive.within {s : Size} (h : s.Positive) : zero.Within s :=
  ⟨Int.le_of_lt h.width, Int.le_of_lt h.height⟩

end Size

structure AreaRef.Ordered (a : AreaRef) : Prop where
  rows : a.first.row ≤ a.last.row
  cols : a.first.col ≤ a.last.col

theorem AreaRef.size_positive (a : AreaRef) : a.size.Positive ↔ a.Ordered := by
  constructor
  · rintro ⟨hw, hh⟩
    simp only [AreaRef.size] at hw hh
    exact ⟨by omega, by omega⟩
  · rintro ⟨hrows, hcols⟩
    constructor <;> simp only [AreaRef.size] <;> omega

namespace Plan

structure Sized (p : Plan) : Prop where
  roots : ∀ area ∈ p.roots, area.2.Positive
  entries : ∀ e ∈ p.entries, e.size.Positive

def second? (p : Plan) : Parent → Option AreaRef
  | .inner i 1 => p.entries[i]?.bind (·.second?)
  | _ => none

variable {p : Plan} {n : Parent}

theorem Sized.positive_iff (hp : p.Sized) {area : CellRef × Size} (h : p.rectangle? n = some area) :
    area.2.Positive ↔ ∀ other ∈ p.second? n, other.Ordered := by
  cases n with
  | root j => exact iff_of_true (hp.roots area (List.mem_of_getElem? h)) (fun _ h => nomatch h)
  | inner i k =>
    obtain ⟨e, he, hk⟩ := Option.bind_eq_some_iff.1 h
    have hsize := hp.entries e (List.mem_of_getElem? he)
    cases k with
    | zero =>
      cases hk
      exact iff_of_true hsize (fun _ h => nomatch h)
    | succ k =>
      rw [CommandEntry.areas, List.getElem?_cons_succ] at hk
      cases hother : e.second? with
      | none =>
        rw [hother] at hk
        cases hk
      | some other =>
        rw [hother] at hk
        cases k with
        | zero =>
          cases hk
          simp only [second?, he, Option.bind_some, hother, Option.mem_some, forall_eq']
          exact other.size_positive
        | succ k => cases hk

end Plan

namespace FillM

variable {r : Registry} {p q : Plan} {s t : FillState} {d : Directive}

theorem rectangleSize_positive {last : CellRef} {size : Size}
    (h : rectangleSize d last = .ok size) : size.Positive := by
  unfold rectangleSize at h
  dsimp only at h
  split at h
  · cases h
  · split at h
    · cases h
    · next hsize =>
      cases h
      simp only [Bool.or_eq_true, decide_eq_true_eq, not_or, Int.not_le] at hsize
      exact ⟨hsize.1, hsize.2⟩

theorem readDirective_cases (h : exec (readDirective r p d) s = (.ok q, t)) :
    ∃ size : Size, size.Positive ∧
      (q = { p with roots := p.roots ++ [(d.cell, size)] } ∨ q = p ∨
        ∃ command second?,
          q = { p with entries := p.entries ++ [⟨command, d.cell, size, second?⟩] }) := by
  unfold readDirective at h
  cases hlast : d.lastCell? with
  | none =>
    rw [hlast] at h
    cases h
  | some last =>
    rw [hlast] at h
    obtain ⟨_, _, hpure, h⟩ := bind_eq_ok.1 h
    cases hpure
    obtain ⟨size, u, hsize, h⟩ := bind_eq_ok.1 h
    refine ⟨size, rectangleSize_positive (ofExcept_eq_ok.1 hsize).1, ?_⟩
    split at h
    · cases h
      exact .inl rfl
    · obtain ⟨command?, v, -, h⟩ := bind_eq_ok.1 h
      cases command? with
      | none =>
        cases h
        exact .inr (.inl rfl)
      | some command =>
        cases h
        exact .inr (.inr ⟨_, _, rfl⟩)

theorem foldlM_keeps {α : Type} {P : Plan → Prop} {f : Plan → α → FillM Plan}
    (hf : ∀ a p s q t, exec (f p a) s = (.ok q, t) → P p → P q) {l : List α}
    (h : exec (l.foldlM f p) s = (.ok q, t)) (hp : P p) : P q := by
  induction l generalizing p s with
  | nil =>
    cases h
    exact hp
  | cons a l ih =>
    rw [List.foldlM_cons] at h
    obtain ⟨p', s', ha, hl⟩ := bind_eq_ok.1 h
    exact ih hl (hf a p s p' s' ha hp)

theorem sized_readDirective (h : exec (readDirective r p d) s = (.ok q, t)) (hp : p.Sized) :
    q.Sized := by
  obtain ⟨size, hsize, rfl | rfl | ⟨command, second?, rfl⟩⟩ := readDirective_cases h
  · exact ⟨List.forall_mem_append.2 ⟨hp.roots, List.forall_mem_singleton.2 hsize⟩, hp.entries⟩
  · exact hp
  · exact ⟨hp.roots, List.forall_mem_append.2 ⟨hp.entries, List.forall_mem_singleton.2 hsize⟩⟩

theorem sized_readComment {i : CellInfo} (h : exec (readComment r p i) s = (.ok q, t))
    (hp : p.Sized) : q.Sized := by
  unfold readComment at h
  obtain ⟨⟨directives, params?⟩, u, -, h⟩ := bind_eq_ok.1 h
  cases params? with
  | none => exact foldlM_keeps (fun _ _ _ _ _ h => sized_readDirective h) h hp
  | some params =>
    obtain ⟨_, v, -, h⟩ := bind_eq_ok.1 h
    exact foldlM_keeps (fun _ _ _ _ _ h => sized_readDirective h) h hp

theorem planAreas_sized (h : exec (planAreas r) s = (.ok p, t)) : p.Sized := by
  obtain ⟨q, u, hread, -⟩ := bind_eq_ok.1 h
  rw [exec_planAreas hread rfl] at h
  cases h
  have hq : q.Sized := by
    unfold readAreas at hread
    obtain ⟨_, _, hget, hread⟩ := bind_eq_ok.1 hread
    cases hget
    dsimp only at hread
    split at hread
    · cases hread
    · obtain ⟨q', v, hfold, hread⟩ := bind_eq_ok.1 hread
      split at hread
      · cases hread
      · cases hread
        exact foldlM_keeps (fun _ _ _ _ _ h => sized_readComment h) hfold
          ⟨List.forall_mem_nil _, List.forall_mem_nil _⟩
  exact ⟨hq.roots, fun e he => hq.entries e (List.mem_mergeSort.1 he)⟩

end FillM

namespace FillM

def Nonneg (m : FillM Size) : Prop := ∀ s size t, exec m s = (.ok size, t) → Size.zero.Within size

variable {α : Type} {m : FillM Size}

theorem nonneg_pure {size : Size} (h : Size.zero.Within size) : Nonneg (pure size) := by
  intro s n t hr
  cases hr
  exact h

theorem nonneg_throw (f : Failure) : Nonneg (throw f) := by
  intro s n t hr
  cases hr

theorem nonneg_after {m : FillM α} {f : α → FillM Size} (hf : ∀ a, Nonneg (f a)) :
    Nonneg (m >>= f) := by
  intro s n t hr
  obtain ⟨a, u, -, hr⟩ := bind_eq_ok.1 hr
  exact hf a u n t hr

theorem Nonneg.bind {f : Size → FillM Size} (hm : Nonneg m)
    (hf : ∀ n, Size.zero.Within n → Nonneg (f n)) : Nonneg (m >>= f) := by
  intro s n t hr
  obtain ⟨n', u, hu, hr⟩ := bind_eq_ok.1 hr
  exact hf n' (hm s n' u hu) u n t hr

theorem Nonneg.binding (hm : Nonneg m) (name : String) (index? : Option String) (item : Value)
    (index : Option Value) : Nonneg (binding name index? item index m) := by
  intro s n t hr
  obtain ⟨u, hu, -⟩ := binding_eq_ok hr
  exact hm _ n u hu

end FillM

def Inner.Nonneg (i : Inner) : Prop := ∀ target, (i.replay target).Nonneg

section Commands

variable {h : FillHost} {target : CellRef}

theorem Size.zero_within_one : Size.zero.Within ⟨1, 1⟩ := ⟨by decide, by decide⟩

namespace EachSpec

variable {e : EachSpec} {inner : Inner}

theorem zero_within_extend {done size : Size} (hd : Size.zero.Within done)
    (hs : Size.zero.Within size) : Size.zero.Within (e.extend done size) := by
  obtain ⟨hdw, hdh⟩ := hd
  obtain ⟨hsw, hsh⟩ := hs
  simp only [Size.zero] at *
  constructor <;> simp only [extend] <;> split <;> simp only <;> omega

theorem runItems_nonneg (hi : inner.Nonneg) (items : List Value) (index : Nat) {done : Size}
    (hd : Size.zero.Within done) : Nonneg (e.runItems inner target index done items) := by
  induction items generalizing index done with
  | nil => exact nonneg_pure hd
  | cons item rest ih =>
    exact ((hi _).binding _ _ _ _).bind fun size hs => ih (index + 1) (zero_within_extend hd hs)

theorem runSheets_nonneg (hi : inner.Nonneg) (names : List String) (items : List Value)
    (existing : List String) (index : Nat) (previous : String) {last : Size}
    (hl : Size.zero.Within last) :
    Nonneg (e.runSheets inner target names existing index previous last items) := by
  induction items generalizing existing index previous last with
  | nil => exact nonneg_pure hl
  | cons item rest ih =>
    exact nonneg_after fun _ => ((hi _).binding _ _ _ _).bind fun size hs => ih _ _ _ hs

theorem run_nonneg (inner? : Option Inner) (hi : ∀ i ∈ inner?, i.Nonneg) :
    Nonneg (e.run h inner? target) := by
  refine nonneg_after fun items => ?_
  split
  · exact nonneg_pure (.refl _)
  · cases inner? with
    | none => exact nonneg_throw _
    | some inner =>
      cases hm : e.multisheet? with
      | none =>
        exact runItems_nonneg (hi inner rfl) items 0 (.refl _)
      | some names =>
        refine nonneg_after fun v => nonneg_after fun titles => nonneg_after fun s => ?_
        refine (runSheets_nonneg (hi inner rfl) _ items _ 0 _ (.refl _)).bind fun size hs => ?_
        exact nonneg_after fun _ => nonneg_after fun _ => nonneg_pure hs

end EachSpec

def Command.IsModest : Command → Prop
  | .mergeCells m => m.cols? = none ∧ m.rows? = none
  | .hosted _ => False
  | .each _ | .if _ | .grid _ | .image _ | .updateCell _ | .autoRowHeight => True

instance : DecidablePred Command.IsModest
  | .mergeCells m => inferInstanceAs (Decidable (m.cols? = none ∧ m.rows? = none))
  | .hosted _ => .isFalse id
  | .each _ | .if _ | .grid _ | .image _ | .updateCell _ | .autoRowHeight => .isTrue trivial

theorem MergeSpec.run_nonneg {m : MergeSpec} (hm : m.cols? = none ∧ m.rows? = none)
    (inner? : Option Inner) : Nonneg (m.run h inner? target) := by
  obtain ⟨cols?, rows?, minCols, minRows⟩ := m
  obtain ⟨rfl, rfl⟩ := hm
  have hside : ∀ (key : String) (n : Int) {f : Int → FillM Size},
      (0 ≤ max n 1 → Nonneg (f (max n 1))) → Nonneg (dimension h key none n >>= f) :=
    fun key n f hf => hf (Int.le_trans (by decide) (Int.le_max_right n 1))
  cases inner?
  all_goals
    refine nonneg_after fun replayed => ?_
    refine hside _ _ fun hcols => hside _ _ fun hrows => ?_
    split
    · exact nonneg_after fun _ => nonneg_pure ⟨hcols, hrows⟩
    · split
      · exact nonneg_pure Size.zero_within_one
      · exact nonneg_after fun _ => nonneg_pure ⟨hcols, hrows⟩

theorem Command.run_nonneg {c : Command} (hc : c.IsModest) {inners : List Inner}
    (hi : ∀ i ∈ inners, i.Nonneg) : Nonneg (c.run h inners target) := by
  have hhead : ∀ i ∈ inners.head?, i.Nonneg := fun i hmem => hi i (List.mem_of_mem_head? hmem)
  cases c with
  | each e => exact e.run_nonneg _ hhead
  | «if» condition =>
    refine nonneg_after fun holds => ?_
    split
    · exact nonneg_pure (.refl _)
    · next inner hinner =>
      have hmem : inner ∈ inners := by
        cases holds with
        | true => exact List.mem_of_getElem? hinner
        | false => exact List.mem_of_getElem? hinner
      exact hi inner hmem target
  | grid g =>
    refine nonneg_after fun headers => nonneg_after fun rows => ?_
    split
    · exact nonneg_pure (.refl _)
    · refine nonneg_after fun _ => nonneg_after fun _ => nonneg_pure ⟨?_, ?_⟩
      · exact Int.natCast_nonneg _
      · exact Int.add_nonneg (by decide) (Int.natCast_nonneg _)
  | image i =>
    refine nonneg_after fun v => ?_
    split
    · exact nonneg_after fun _ => nonneg_pure Size.zero_within_one
    · split
      · exact nonneg_after fun _ => nonneg_pure Size.zero_within_one
      · exact nonneg_after fun _ => nonneg_pure Size.zero_within_one
      · exact nonneg_throw _
  | mergeCells m => exact MergeSpec.run_nonneg hc _
  | updateCell name =>
    refine nonneg_after fun id => ?_
    cases hinner : inners.head? with
    | none =>
      exact (nonneg_pure Size.zero_within_one).bind fun n hn => nonneg_after fun _ => nonneg_pure hn
    | some inner =>
      exact (hhead inner hinner target).bind fun n hn => nonneg_after fun _ => nonneg_pure hn
  | autoRowHeight =>
    change Nonneg (runAutoRowHeight inners.head? target)
    cases hinner : inners.head? with
    | none => exact nonneg_pure (.refl _)
    | some inner =>
      exact (hhead inner hinner target).bind fun n hn => nonneg_after fun _ => nonneg_pure hn
  | hosted c => exact hc.elim

end Commands

namespace Progress

variable {f : Frame} {p : Progress} {l : List (Binding × Size)}

theorem within_through (hl : ∀ x ∈ l, Size.zero.Within x.2) :
    p.size.Within (p.through f l).size := by
  induction l generalizing p with
  | nil => exact .refl _
  | cons x l ih =>
    obtain ⟨hx, hl⟩ := List.forall_mem_cons.1 hl
    have hafter := size_within_afterCommand f (p.atBinding x.1) x.1 hx.height
    exact ((p.size_within_atBinding x.1).trans hafter).trans (ih hl)

end Progress

namespace Area

variable {h : FillHost} {a : Area} {target : CellRef} {l : List (Binding × Size)}

/-- An area that has cells, and whose commands fill no size of their own choice. -/
structure Sound (a : Area) : Prop where
  positive : a.size.Positive
  modest : ∀ b ∈ a.bindings, b.command.IsModest

instance (a : Area) : Decidable a.Sound :=
  decidable_of_iff (a.size.Positive ∧ ∀ b ∈ a.bindings, b.command.IsModest)
    ⟨fun h => ⟨h.1, h.2⟩, fun h => ⟨h.positive, h.modest⟩⟩

def cursor (a : Area) (target : CellRef) (l : List (Binding × Size)) : Int :=
  target.row + ((Progress.begin (a.frame target)).through (a.frame target) l).height

theorem filled_of_performs {listeners : List Nat} {p : Progress} {s t : FillState}
    (hb : ∀ x ∈ l, ∀ r, Nonneg (x.1.command.run h (inners h x.1.areas) r))
    (hperform : Performs h listeners (a.scriptFrom target p l) s t) :
    ∀ x ∈ l, Size.zero.Within x.2 := by
  induction l generalizing p s with
  | nil => exact List.forall_mem_nil _
  | cons x l ih =>
    obtain ⟨hx, hb⟩ := List.forall_mem_cons.1 hb
    obtain ⟨s₂, -, hperform⟩ := performs_append.1 hperform
    obtain ⟨s₃, -, hperform⟩ := performs_append.1 hperform
    cases hperform with
    | cons first tail =>
      obtain ⟨u, hrun, -⟩ := first
      exact List.forall_mem_cons.2 ⟨hx _ _ _ _ hrun, ih hb tail⟩

theorem cursor_le_cursor (hl : ∀ x ∈ l, Size.zero.Within x.2) {i j : Nat} (hij : i ≤ j) :
    a.cursor target (l.take i) ≤ a.cursor target (l.take j) := by
  obtain ⟨k, rfl⟩ := Nat.exists_eq_add_of_le hij
  have hrest : ∀ x ∈ (l.drop i).take k, Size.zero.Within x.2 := fun x hx =>
    hl x (List.mem_of_mem_drop (List.mem_of_mem_take hx))
  rw [cursor, cursor, List.take_add, Progress.through, Progress.through, List.foldl_append]
  exact Int.add_le_add_left (Progress.within_through hrest).height _

theorem exists_filled {s t : FillState} {final : Size}
    (hcommands : ∀ b ∈ a.bindings, ∀ r, Nonneg (b.command.run h (inners h b.areas) r))
    (hne : a.bindings ≠ []) (hr : exec (a.replay h target) s = (.ok final, t)) :
    ∃ l, l.map Prod.fst = a.bindings ∧ Performs h a.listeners (a.script target l) s t ∧
      (∀ x ∈ l, Size.zero.Within x.2) ∧
      final = ((Progress.begin (a.frame target)).through (a.frame target) l).finish
        (a.frame target) := by
  obtain ⟨-, l, hl, hperform, hfinal⟩ := (replay_eq_ok_of_ne_nil hne).1 hr
  have hbound : ∀ x ∈ l, ∀ r, Nonneg (x.1.command.run h (inners h x.1.areas) r) := fun x hx =>
    hcommands x.1 (hl ▸ List.mem_map_of_mem hx)
  exact ⟨l, hl, hperform, filled_of_performs hbound hperform, hfinal⟩

-- By induction on the tree, which the walk follows.
mutual

theorem replay_nonneg : ∀ (a : Area) (depth : Nat), (∀ x ∈ a.walk depth, x.1.Sound) →
    ∀ target, Nonneg (a.replay h target)
  | ⟨start, size, bindings, listeners, bound⟩, depth, hwalk, target => by
    rw [walk, List.forall_mem_cons] at hwalk
    obtain ⟨hsound, hwalk⟩ := hwalk
    have hcommands := commands_nonneg bindings (depth + 1) hsound.modest hwalk
    intro s final t hr
    by_cases hne : bindings = []
    · obtain ⟨-, -, rfl⟩ := (replay_eq_ok_of_nil hne).1 hr
      exact hsound.positive.within
    · obtain ⟨l, -, -, hfilled, rfl⟩ := exists_filled hcommands hne hr
      have hbegin : Size.zero.Within (Progress.begin
          (frame ⟨start, size, bindings, listeners, bound⟩ target)).size :=
        ⟨Int.le_of_lt hsound.positive.width, Int.le_refl _⟩
      exact (hbegin.trans (Progress.within_through hfilled)).trans (Progress.size_within_finish _ _)

theorem commands_nonneg : ∀ (bindings : List Binding) (depth : Nat),
    (∀ b ∈ bindings, b.command.IsModest) → (∀ x ∈ walkBindings depth bindings, x.1.Sound) →
      ∀ b ∈ bindings, ∀ target, Nonneg (b.command.run h (inners h b.areas) target)
  | [], _, _, _, _, hb, _ => absurd hb List.not_mem_nil
  | ⟨command, start, size, areas⟩ :: rest, depth, hmodest, hwalk, b, hb, target => by
    rw [walkBindings, List.forall_mem_append] at hwalk
    obtain ⟨hcommand, hmodest⟩ := List.forall_mem_cons.1 hmodest
    rcases List.mem_cons.1 hb with rfl | hb
    · exact Command.run_nonneg hcommand (inners_nonneg areas depth hwalk.1)
    · exact commands_nonneg rest depth hmodest hwalk.2 b hb target

theorem inners_nonneg : ∀ (areas : List Area) (depth : Nat),
    (∀ x ∈ walkAll depth areas, x.1.Sound) → ∀ i ∈ inners h areas, i.Nonneg
  | [], _, _, _, hi => absurd hi List.not_mem_nil
  | a :: rest, depth, hwalk, i, hi => by
    rw [walkAll, List.forall_mem_append] at hwalk
    rcases List.mem_cons.1 hi with rfl | hi
    · exact replay_nonneg a depth hwalk.1
    · exact inners_nonneg rest depth hwalk.2 i hi

end

theorem bindings_nonneg (a : Area) (depth : Nat) (ha : ∀ x ∈ a.walk depth, x.1.Sound) :
    ∀ b ∈ a.bindings, ∀ target, Nonneg (b.command.run h (inners h b.areas) target) := by
  obtain ⟨start, size, bindings, listeners, bound⟩ := a
  rw [walk, List.forall_mem_cons] at ha
  exact commands_nonneg bindings (depth + 1) ha.1.modest ha.2

end Area

namespace FillM

/-- Every area that is built has cells, but for a second area that is written with its last cell
above or left of its first. Where an area and all below it have cells, a replay reports no negative
size, and each command begins no higher than those before it, unless a command fills a size of its
own choice. -/
theorem buildAreas_sized {r : Registry} {listeners : List Nat} {s t : FillState} {roots : List Area}
    (h : exec (buildAreas r listeners) s = (.ok roots, t)) :
    (∃ p : Plan, exec (planAreas r) s = (.ok p, t) ∧
      List.Forall₂ (fun n x => p.Depicts n x.1 ∧
          (x.1.size.Positive ↔ ∀ other ∈ p.second? n, other.Ordered))
        p.nodes (roots.flatMap (Area.walk 0))) ∧
    ∀ x ∈ roots.flatMap (Area.walk 0), (∀ y ∈ x.1.walk 0, y.1.Sound) →
      ∀ host target s final t, exec (x.1.replay host target) s = (.ok final, t) →
        Size.zero.Within final ∧ (x.1.bindings ≠ [] → ∃ l, l.map Prod.fst = x.1.bindings ∧
          Area.Performs host x.1.listeners (x.1.script target l) s t ∧
          ∀ i j, i ≤ j → x.1.cursor target (l.take i) ≤ x.1.cursor target (l.take j)) := by
  obtain ⟨p, hplan, rfl⟩ := buildAreas_eq_ok.1 h
  have hsized := planAreas_sized hplan
  refine ⟨⟨p, hplan, (Plan.depicts_forest (planAreas_ok hplan).1 listeners).imp ?_⟩, ?_⟩
  · intro n x hx
    exact ⟨hx, hsized.positive_iff hx.rectangle⟩
  · intro x _ hx host target s final t hr
    refine ⟨x.1.replay_nonneg 0 hx target s final t hr, fun hne => ?_⟩
    obtain ⟨l, hl, hperform, hfilled, -⟩ := Area.exists_filled (x.1.bindings_nonneg 0 hx) hne hr
    exact ⟨l, hl, hperform, fun i j hij => Area.cursor_le_cursor hfilled hij⟩

def reversed : Workbook where
  sheets :=
    [((({ title := "S" } : Sheet).setCell ⟨0, 0⟩
        { value := .int 1, comment? := some "jx:area(lastCell=\"A5\")" }
      ).setCell ⟨1, 0⟩
        { value := .int 2
          comment? := some "jx:if(condition=\"false\" lastCell=\"A2\" areas=[\"A2:A2\",\"A9:A7\"])" }
      ).setCell ⟨0, 2⟩
        { value := .int 3
          comment? := some "jx:area(lastCell=\"C2\")\njx:if(condition=\"true\" lastCell=\"C1\")" }]

def readsReversed (q : Plan) : Bool :=
  decide (q.entries.Pairwise fun a b => a.before b = true) &&
    decide (q.completed.nodes = [.root 0, .inner 1 0, .inner 1 1, .root 1, .inner 0 0]) &&
    decide (q.completed.nodes.map q.completed.second? =
      [none, none, some ⟨⟨"S", 8, 0⟩, ⟨"S", 6, 0⟩⟩, none, none]) &&
    ((((q.completed.forest []).flatMap (Area.walk 0))[3]?).any fun x =>
      decide (∀ y ∈ x.1.walk 0, y.1.Sound) && !x.1.bindings.isEmpty &&
        (exec (x.1.replay {} ⟨"S", 3, 0⟩) (.ofWorkbook reversed)).1.isOk)

theorem reversed_sized :
    ∃ roots t root first second beside inner final u,
      exec (buildAreas .builtin []) (.ofWorkbook reversed) = (.ok roots, t) ∧
      roots.flatMap (Area.walk 0) = [root, first, second, beside, inner] ∧
      root.1.size.Positive ∧ first.1.size.Positive ∧ ¬ second.1.size.Positive ∧
      (∀ y ∈ beside.1.walk 0, y.1.Sound) ∧ beside.1.bindings ≠ [] ∧
      exec (beside.1.replay {} ⟨"S", 3, 0⟩) (.ofWorkbook reversed) = (.ok final, u) ∧
      Size.zero.Within final ∧ ∃ l, l.map Prod.fst = beside.1.bindings ∧
        Area.Performs {} beside.1.listeners (beside.1.script ⟨"S", 3, 0⟩ l) (.ofWorkbook reversed) u ∧
        ∀ i j, i ≤ j →
          beside.1.cursor ⟨"S", 3, 0⟩ (l.take i) ≤ beside.1.cursor ⟨"S", 3, 0⟩ (l.take j) := by
  have hread : (exec (readAreas .builtin) (.ofWorkbook reversed)).1.toOption.map readsReversed =
      some true := by decide +kernel
  obtain ⟨q, hq, hfacts⟩ := Option.map_eq_some_iff.1 hread
  simp only [readsReversed, Bool.and_eq_true, decide_eq_true_eq] at hfacts
  obtain ⟨⟨⟨hsorted, hnodes⟩, hseconds⟩, hbeside⟩ := hfacts
  obtain ⟨u, hplan, hbuild⟩ := exec_buildAreas_of_pairwise [] (eq_ok_of_toOption hq) hsorted
  obtain ⟨⟨p, hp, hwalk⟩, hreplays⟩ := buildAreas_sized hbuild
  rw [hplan] at hp
  cases hp
  simp only [hnodes, List.map_cons, List.map_nil, List.cons.injEq, and_true] at hseconds
  obtain ⟨hroot, hfirst, hsecond, -, -⟩ := hseconds
  rw [hnodes] at hwalk
  generalize hareas : (q.completed.forest []).flatMap (Area.walk 0) = areas at hwalk hreplays hbeside
  obtain _ | ⟨⟨-, hr⟩, _ | ⟨⟨-, hf⟩, _ | ⟨⟨-, hs⟩, _ | ⟨-, _ | ⟨-, _ | _⟩⟩⟩⟩⟩ := hwalk
  rename_i root first second beside inner
  rw [hroot] at hr
  rw [hfirst] at hf
  rw [hsecond] at hs
  simp only [List.getElem?_cons_succ, List.getElem?_cons_zero, Option.any_some, Bool.and_eq_true,
    decide_eq_true_eq, Bool.not_eq_true', List.isEmpty_eq_false_iff] at hbeside
  obtain ⟨⟨hsound, hbound⟩, hok⟩ := hbeside
  rcases hrun : exec (beside.1.replay {} ⟨"S", 3, 0⟩) (.ofWorkbook reversed) with ⟨f | final, v⟩
  · rw [hrun] at hok
    cases hok
  obtain ⟨hwithin, hperforms⟩ := hreplays beside (by simp) hsound {} _ _ final v hrun
  refine ⟨_, u, root, first, second, beside, inner, final, v, hbuild, hareas,
    hr.2 (fun _ h => nomatch h), hf.2 (fun _ h => nomatch h), fun hpositive => ?_, hsound, hbound, hrun, hwithin,
    hperforms hbound⟩
  have hrows := (hs.1 hpositive _ rfl).rows
  exact absurd hrows (by decide)

end FillM

end SheetTemplate
