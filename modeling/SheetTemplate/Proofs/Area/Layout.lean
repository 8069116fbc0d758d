import SheetTemplate.Proofs.Area.Appearing

/-!
The layout of a replay. Where no two commands of an area share rows, each command runs once, and
each cell that no command covers is copied once, as far below its place in the template as the
commands above it have grown.
-/

namespace SheetTemplate

open FillM

namespace Progress

def through (f : Frame) (p : Progress) (l : List (Binding × Size)) : Progress :=
  l.foldl (fun p x => (p.atBinding x.1).afterCommand f x.1 x.2) p

end Progress

namespace Area

inductive Event where
  | copies (c : CellCopy)
  | runs (b : Binding) (target : CellRef) (filled : Size)

namespace Event

def copy? : Event → Option CellCopy
  | copies c => some c
  | runs _ _ _ => none

def run? : Event → Option (Binding × CellRef × Size)
  | copies _ => none
  | runs b target filled => some (b, target, filled)

def Occurs (h : FillHost) (listeners : List Nat) (s t : FillState) : Event → Prop
  | copies c => exec (copyCell h listeners c) s = (.ok (), t)
  | runs b target filled => ∃ u, exec (b.command.run h (inners h b.areas) target) s = (.ok filled, u) ∧
      exec (log .debug "area" (b.command.name ++ " at " ++ target.label ++ " -> " ++ filled.text)) u =
        (.ok (), t)

end Event

/-- Events that take place one after another, and nothing between them. -/
inductive Performs (h : FillHost) (listeners : List Nat) :
    List Event → FillState → FillState → Prop
  | nil (s : FillState) : Performs h listeners [] s s
  | cons {e : Event} {rest : List Event} {s t u : FillState} (first : e.Occurs h listeners s t)
    (tail : Performs h listeners rest t u) : Performs h listeners (e :: rest) s u

/-- What a replay still does that has come as far as `p`, when the commands of the bindings that
remain fill the given sizes. -/
def scriptFrom (a : Area) (target : CellRef) : Progress → List (Binding × Size) → List Event
  | p, [] => (p.below (a.frame target)).map .copies
  | p, (b, filled) :: rest =>
    (p.above (a.frame target) b).map .copies ++
      (((p.atBinding b).beside (a.frame target) b).map .copies ++
        .runs b ((p.atBinding b).commandTarget (a.frame target) b) filled ::
          scriptFrom a target ((p.atBinding b).afterCommand (a.frame target) b filled) rest)

def script (a : Area) (target : CellRef) (l : List (Binding × Size)) : List Event :=
  a.scriptFrom target (.begin (a.frame target)) l

structure Encloses (a : Area) (b : Binding) : Prop where
  sheet : b.start.sheet = a.start.sheet
  top : a.start.row ≤ b.start.row
  height : 0 < b.size.height
  bottom : b.start.row + b.size.height ≤ a.start.row + a.size.height
  left : a.start.col ≤ b.start.col
  right : b.start.col + b.size.width ≤ a.start.col + a.size.width

/-- The bindings lie in the area, in order, and no two share a row. -/
structure Stacked (a : Area) : Prop where
  inside : ∀ b ∈ a.bindings, a.Encloses b
  sorted : a.bindings.Pairwise fun b c => before b c = true
  apart : a.bindings.Pairwise Binding.RowsApart

def rowsTaken (a : Area) (b : Binding) (filled : Size) : Int :=
  if b.start.col = a.start.col ∧ b.size.width = a.size.width then filled.height
  else max filled.height b.size.height

def growth (a : Area) (l : List (Binding × Size)) : Int :=
  l.foldr (fun x rows => a.rowsTaken x.1 x.2 - x.1.size.height + rows) 0

def breadth (a : Area) (l : List (Binding × Size)) : Int :=
  l.foldl (fun w x => max w (x.1.start.col - a.start.col + x.2.width)) a.size.width

/-- Where a cell of the area goes below bindings that have grown. -/
def placed (a : Area) (target : CellRef) (l : List (Binding × Size)) (r : CellRef) : CellRef :=
  target.offset (r.row - a.start.row + a.growth l) (r.col - a.start.col)

variable {h : FillHost} {listeners : List Nat} {s t u : FillState}

theorem performs_append {xs ys : List Event} :
    Performs h listeners (xs ++ ys) s u ↔
      ∃ t, Performs h listeners xs s t ∧ Performs h listeners ys t u := by
  induction xs generalizing s with
  | nil =>
    constructor
    · exact fun hys => ⟨s, .nil s, hys⟩
    · rintro ⟨t, hxs, hys⟩
      cases hxs
      exact hys
  | cons x xs ih =>
    constructor
    · intro hall
      cases hall with
      | cons first tail =>
        obtain ⟨t, hxs, hys⟩ := ih.1 tail
        exact ⟨t, .cons first hxs, hys⟩
    · rintro ⟨t, hxs, hys⟩
      cases hxs with
      | cons first tail => exact .cons first (ih.2 ⟨t, tail, hys⟩)

theorem performs_copies {f : Frame} {copies : List CellCopy} :
    Performs h f.listeners (copies.map .copies) s t ↔ exec (copyAll h f copies) s = (.ok (), t) := by
  induction copies generalizing s with
  | nil =>
    constructor
    · intro hnil
      cases hnil
      rfl
    · intro hnil
      cases hnil
      exact .nil _
  | cons c rest ih =>
    constructor
    · intro hall
      cases hall with
      | cons first tail => exact bind_eq_ok.2 ⟨(), _, first, ih.1 tail⟩
    · intro hall
      obtain ⟨_, v, hfirst, hrest⟩ := bind_eq_ok.1 hall
      exact .cons hfirst (ih.2 hrest)

variable {a : Area} {target : CellRef}

theorem replayBindings_eq_ok {bindings : List Binding} {p : Progress} {final : Size} :
    exec (replayBindings h (a.frame target) p bindings) s = (.ok final, t) ↔
      ∃ l, l.map Prod.fst = bindings ∧ Performs h a.listeners (a.scriptFrom target p l) s t ∧
        final = (p.through (a.frame target) l).finish (a.frame target) := by
  induction bindings generalizing p s with
  | nil =>
    rw [replayBindings]
    constructor
    · intro hr
      obtain ⟨_, u, hu, hr⟩ := bind_eq_ok.1 hr
      cases hr
      exact ⟨[], rfl, performs_copies.2 hu, rfl⟩
    · rintro ⟨l, hl, hperform, rfl⟩
      rw [List.map_eq_nil_iff] at hl
      subst hl
      exact bind_eq_ok.2 ⟨(), t, performs_copies.1 hperform, rfl⟩
  | cons b rest ih =>
    obtain ⟨command, start, size, areas⟩ := b
    rw [replayBindings]
    constructor
    · intro hr
      obtain ⟨_, s₂, habove, hr⟩ := bind_eq_ok.1 hr
      obtain ⟨_, s₃, hbeside, hr⟩ := bind_eq_ok.1 hr
      obtain ⟨filled, s₄, hrun, hr⟩ := bind_eq_ok.1 hr
      obtain ⟨_, s₅, hlog, hr⟩ := bind_eq_ok.1 hr
      obtain ⟨l, rfl, hperform, rfl⟩ := ih.1 hr
      refine ⟨(⟨command, start, size, areas⟩, filled) :: l, rfl, ?_, rfl⟩
      refine performs_append.2 ⟨s₂, performs_copies.2 habove, ?_⟩
      refine performs_append.2 ⟨s₃, performs_copies.2 hbeside, ?_⟩
      exact .cons ⟨s₄, mapFailure_eq_ok.1 hrun, hlog⟩ hperform
    · rintro ⟨l, hl, hperform, rfl⟩
      obtain ⟨⟨b, filled⟩, l, rfl, rfl, rfl⟩ := List.map_eq_cons_iff.1 hl
      obtain ⟨s₂, habove, hperform⟩ := performs_append.1 hperform
      obtain ⟨s₃, hbeside, hperform⟩ := performs_append.1 hperform
      cases hperform with
      | cons first tail =>
        obtain ⟨s₄, hrun, hlog⟩ := first
        refine bind_eq_ok.2 ⟨(), s₂, performs_copies.1 habove, ?_⟩
        refine bind_eq_ok.2 ⟨(), s₃, performs_copies.1 hbeside, ?_⟩
        refine bind_eq_ok.2 ⟨filled, s₄, mapFailure_eq_ok.2 hrun, ?_⟩
        exact bind_eq_ok.2 ⟨(), _, hlog, ih.2 ⟨l, rfl, tail, rfl⟩⟩

theorem Stacked.below (ha : a.Stacked) :
    a.bindings.Pairwise fun b c => b.start.row + b.size.height ≤ c.start.row := by
  refine (ha.sorted.and ha.apart).imp_of_mem fun {b c} _ hc hbc => ?_
  obtain ⟨hsorted, hrows⟩ := hbc
  have hheight := (ha.inside c hc).height
  simp only [before, Bool.or_eq_true, Bool.and_eq_true, decide_eq_true_eq, beq_iff_eq] at hsorted
  simp only [Binding.RowsApart] at hrows
  omega

theorem replay_eq_ok_of_ne_nil (hne : a.bindings ≠ []) {final : Size} :
    exec (a.replay h target) s = (.ok final, t) ↔
      a.bound = true ∧ ∃ l, l.map Prod.fst = a.bindings ∧
        Performs h a.listeners (a.script target l) s t ∧
        final = ((Progress.begin (a.frame target)).through (a.frame target) l).finish
          (a.frame target) := by
  obtain ⟨start, size, bindings, listeners, bound⟩ := a
  rw [replay]
  cases bound with
  | false =>
    constructor
    · intro hr
      cases hr
    · rintro ⟨hbound, -⟩
      cases hbound
  | true =>
    cases bindings with
    | nil => exact absurd rfl hne
    | cons b rest =>
      refine (replayBindings_eq_ok (a := ⟨start, size, b :: rest, listeners, true⟩)).trans ?_
      exact ⟨fun hl => ⟨rfl, hl⟩, fun hl => hl.2⟩

theorem replay_eq_ok_of_nil (hnil : a.bindings = []) {final : Size} :
    exec (a.replay h target) s = (.ok final, t) ↔
      a.bound = true ∧ Performs h a.listeners (a.script target []) s t ∧ final = a.size := by
  obtain ⟨start, size, bindings, listeners, bound⟩ := a
  obtain rfl : bindings = [] := hnil
  rw [replay]
  cases bound with
  | false =>
    constructor
    · intro hr
      cases hr
    · rintro ⟨hbound, -⟩
      cases hbound
  | true =>
    let f : Frame := ⟨start, size, listeners, target⟩
    have hbelow := below_begin f
    constructor
    · intro hr
      obtain ⟨_, u, hu, hr⟩ := bind_eq_ok.1 hr
      cases hr
      exact ⟨rfl, performs_copies.2 (hbelow ▸ hu), rfl⟩
    · rintro ⟨-, hperform, rfl⟩
      exact bind_eq_ok.2 ⟨(), t, hbelow ▸ performs_copies.1 hperform, rfl⟩

theorem growth_cons (x : Binding × Size) (l : List (Binding × Size)) :
    a.growth (x :: l) = a.rowsTaken x.1 x.2 - x.1.size.height + a.growth l := rfl

theorem Encloses.afterCommand_height {b : Binding} (hb : a.Encloses b) (target : CellRef)
    (p : Progress) (filled : Size) :
    (p.afterCommand (a.frame target) b filled).height = p.height + a.rowsTaken b filled := by
  obtain ⟨-, -, -, -, hleft, hright⟩ := hb
  simp only [Progress.afterCommand, Bool.and_eq_true, Bool.or_eq_true, decide_eq_true_eq]
  simp only [Progress.left, Progress.right, frame, rowsTaken]
  split_ifs <;> omega

theorem finish_through {p : Progress} {l : List (Binding × Size)}
    (hnext : ∀ x ∈ l, p.next ≤ x.1.start.row) (hend : p.next ≤ a.start.row + a.size.height)
    (hin : ∀ x ∈ l, a.Encloses x.1)
    (hapart : l.Pairwise fun x y => x.1.start.row + x.1.size.height ≤ y.1.start.row) :
    (p.through (a.frame target) l).finish (a.frame target) =
      ⟨l.foldl (fun w x => max w (x.1.start.col - a.start.col + x.2.width)) p.width,
        p.height + (a.start.row + a.size.height - p.next) + a.growth l⟩ := by
  induction l generalizing p with
  | nil =>
    simp only [Progress.through, List.foldl_nil, Progress.finish, frame, growth, List.foldr_nil,
      Size.mk.injEq, true_and]
    omega
  | cons x l ih =>
    obtain ⟨hb, hin⟩ := List.forall_mem_cons.1 hin
    obtain ⟨hfirst, hapart⟩ := List.pairwise_cons.1 hapart
    have hstart := hnext x List.mem_cons_self
    have hheight := hb.afterCommand_height target (p.atBinding x.1) x.2
    have ih := ih (p := (p.atBinding x.1).afterCommand (a.frame target) x.1 x.2) hfirst hb.bottom
      hin hapart
    rw [growth_cons, Progress.through, List.foldl_cons, List.foldl_cons]
    refine ih.trans ?_
    rw [hheight]
    simp only [Progress.afterCommand, Progress.atBinding, Progress.left, frame, Size.mk.injEq,
      true_and]
    omega

theorem filter_rows (f : Frame) (first count down : Int) (skip : Int → Bool) {r : CellRef}
    (hs : r.sheet = f.start.sheet) (hl : f.start.col ≤ r.col)
    (hr : r.col < f.start.col + f.size.width) :
    ((f.rows first count down skip).filter fun c => c.origin == r) =
      if first ≤ r.row ∧ r.row < first + count ∧ skip (r.col - f.start.col) = false then
        [⟨r, f.target.offset (down + (r.row - first)) (r.col - f.start.col)⟩]
      else [] := by
  have hcount := f.count_rows first count down skip hs hl hr
  rw [List.count, List.countP_map, List.countP_eq_length_filter] at hcount
  split
  · next hin =>
    rw [if_pos hin] at hcount
    obtain ⟨c, hc⟩ := List.length_eq_one_iff.1 hcount
    have hmem : c ∈ (f.rows first count down skip).filter fun c => c.origin == r := by
      rw [show (fun c : CellCopy => c.origin == r) = (fun x => x == r) ∘ CellCopy.origin from rfl, hc]
      exact List.mem_singleton_self c
    obtain ⟨hrows, horigin⟩ := List.mem_filter.1 hmem
    obtain ⟨i, j, hi, hj, -, rfl⟩ := Frame.mem_rows.1 hrows
    have horigin := eq_of_beq horigin
    subst horigin
    refine hc.trans ?_
    simp only [CellRef.offset, List.cons.injEq, CellCopy.mk.injEq, CellRef.mk.injEq, true_and, and_true]
    omega
  · next hout =>
    rw [if_neg hout] at hcount
    exact List.length_eq_zero_iff.1 hcount

section Cell

variable {f : Frame} {p : Progress} {r : CellRef} (hs : r.sheet = f.start.sheet)
  (hl : f.start.col ≤ r.col) (hr : r.col < f.start.col + f.size.width)

include hs hl hr

theorem filter_above (b : Binding) :
    ((p.above f b).filter fun c => c.origin == r) =
      if p.next ≤ r.row ∧ r.row < b.start.row then [⟨r, p.place f r⟩] else [] := by
  rw [Progress.above, filter_rows _ _ _ _ _ hs hl hr]
  refine if_congr (by simp only [and_true]; omega) ?_ rfl
  simp only [Progress.place, CellRef.offset, Int.add_assoc]

theorem filter_beside {b : Binding} (hstart : p.next ≤ b.start.row) :
    (((p.atBinding b).beside f b).filter fun c => c.origin == r) =
      if (b.start.row ≤ r.row ∧ r.row < b.start.row + b.size.height) ∧
        (r.col < b.start.col ∨ b.start.col + b.size.width ≤ r.col) then [⟨r, p.place f r⟩]
      else [] := by
  rw [Progress.beside, filter_rows _ _ _ _ _ hs hl hr]
  refine if_congr ?_ ?_ rfl
  · rw [Bool.and_eq_false_iff, decide_eq_false_iff_not, decide_eq_false_iff_not]
    simp only [Progress.left, Progress.right]
    omega
  · simp only [Progress.place, Progress.atBinding, CellRef.offset, List.cons.injEq, CellCopy.mk.injEq,
      CellRef.mk.injEq, true_and, and_true]
    omega

theorem filter_below :
    ((p.below f).filter fun c => c.origin == r) =
      if p.next ≤ r.row ∧ r.row < f.start.row + f.size.height then [⟨r, p.place f r⟩] else [] := by
  rw [Progress.below, filter_rows _ _ _ _ _ hs hl hr]
  refine if_congr (by simp only [and_true]; omega) ?_ rfl
  simp only [Progress.place, CellRef.offset, Int.add_assoc]

end Cell

theorem filterMap_copy? (copies : List CellCopy) :
    (copies.map Event.copies).filterMap Event.copy? = copies := by
  rw [List.filterMap_map]
  exact List.filterMap_some

theorem filterMap_run? (copies : List CellCopy) :
    (copies.map Event.copies).filterMap Event.run? = [] := by
  rw [List.filterMap_map]
  exact List.filterMap_eq_nil_iff.2 fun _ _ => rfl

theorem Encloses.place_afterCommand {b : Binding} (hb : a.Encloses b) {p : Progress}
    (hnext : p.next ≤ b.start.row) (filled : Size) (r : CellRef) :
    ((p.atBinding b).afterCommand (a.frame target) b filled).place (a.frame target) r =
      (p.place (a.frame target) r).offset (a.rowsTaken b filled - b.size.height) 0 := by
  rw [Progress.place, hb.afterCommand_height]
  simp only [Progress.place, Progress.afterCommand, Progress.atBinding, CellRef.offset,
    CellRef.mk.injEq, true_and]
  omega

theorem runs_scriptFrom {p : Progress} {l : List (Binding × Size)}
    (hnext : ∀ x ∈ l, p.next ≤ x.1.start.row) (hin : ∀ x ∈ l, a.Encloses x.1)
    (hapart : l.Pairwise fun x y => x.1.start.row + x.1.size.height ≤ y.1.start.row) :
    (a.scriptFrom target p l).filterMap Event.run? = l.mapIdx fun i x =>
      (x.1, (p.place (a.frame target) x.1.start).offset (a.growth (l.take i)) 0, x.2) := by
  induction l generalizing p with
  | nil => exact filterMap_run? _
  | cons x l ih =>
    obtain ⟨b, filled⟩ := x
    obtain ⟨hb, hin⟩ := List.forall_mem_cons.1 hin
    obtain ⟨hfirst, hapart⟩ := List.pairwise_cons.1 hapart
    have hb : a.Encloses b := hb
    have hfirst : ∀ y ∈ l, b.start.row + b.size.height ≤ y.1.start.row := hfirst
    have hstart : p.next ≤ b.start.row := hnext (b, filled) List.mem_cons_self
    have ih := ih (p := (p.atBinding b).afterCommand (a.frame target) b filled) hfirst hin hapart
    rw [scriptFrom, List.filterMap_append, filterMap_run?, List.nil_append, List.filterMap_append,
      filterMap_run?, List.nil_append, List.filterMap_cons]
    simp only [Event.run?, ih, List.mapIdx_cons]
    congr 1
    · simp only [Progress.commandTarget, Progress.place, Progress.atBinding, Progress.left, frame,
        CellRef.offset, List.take_zero, growth, List.foldr_nil, Prod.mk.injEq,
        CellRef.mk.injEq, true_and, and_true]
      omega
    · congr 1
      funext i y
      simp only [hb.place_afterCommand hstart, List.take_succ_cons, growth_cons, CellRef.offset,
        Prod.mk.injEq, CellRef.mk.injEq, true_and, and_true]
      omega

theorem columns_scriptFrom {p : Progress} {l : List (Binding × Size)} {c : CellCopy}
    (hc : c ∈ (a.scriptFrom target p l).filterMap Event.copy?) :
    c.origin.sheet = a.start.sheet ∧ a.start.col ≤ c.origin.col ∧
      c.origin.col < a.start.col + a.size.width := by
  have hrows : ∀ {first count down : Int} {skip : Int → Bool},
      c ∈ (a.frame target).rows first count down skip →
        c.origin.sheet = a.start.sheet ∧ a.start.col ≤ c.origin.col ∧
          c.origin.col < a.start.col + a.size.width := by
    intro first count down skip hc
    obtain ⟨i, j, -, hj, -, rfl⟩ := Frame.mem_rows.1 hc
    simp only [frame] at hj ⊢
    exact ⟨trivial, by omega, by omega⟩
  induction l generalizing p with
  | nil =>
    rw [scriptFrom, filterMap_copy?] at hc
    exact hrows hc
  | cons x l ih =>
    rw [scriptFrom, List.filterMap_append, filterMap_copy?, List.filterMap_append, filterMap_copy?,
      List.mem_append, List.mem_append, List.filterMap_cons] at hc
    rcases hc with habove | hbeside | hrest
    · exact hrows habove
    · exact hrows hbeside
    · exact ih hrest

theorem growth_filter_eq_zero {l : List (Binding × Size)} {row : Int}
    (hl : ∀ x ∈ l, row < x.1.start.row + x.1.size.height) :
    a.growth (l.filter fun x => x.1.start.row + x.1.size.height ≤ row) = 0 := by
  rw [List.filter_eq_nil_iff.2 fun x hx => ?_]
  · rfl
  · have := hl x hx
    simp only [decide_eq_true_eq]
    omega

theorem Encloses.covers_iff {b : Binding} (hb : a.Encloses b) {r : CellRef}
    (hs : r.sheet = a.start.sheet) :
    b.Covers r ↔ (b.start.row ≤ r.row ∧ r.row < b.start.row + b.size.height) ∧
      ¬ (r.col < b.start.col ∨ b.start.col + b.size.width ≤ r.col) := by
  constructor
  · rintro ⟨-, htop, hbottom, hleft, hright⟩
    exact ⟨⟨htop, hbottom⟩, by omega⟩
  · rintro ⟨⟨htop, hbottom⟩, hcol⟩
    exact ⟨hs.trans hb.sheet.symm, htop, hbottom, by omega, by omega⟩

theorem Encloses.filter_first {b : Binding} (hb : a.Encloses b) {p : Progress}
    (hstart : p.next ≤ b.start.row) {r : CellRef} (hs : r.sheet = a.start.sheet)
    (hl : a.start.col ≤ r.col) (hr : r.col < a.start.col + a.size.width) :
    ((p.above (a.frame target) b).filter fun c => c.origin == r) ++
        (((p.atBinding b).beside (a.frame target) b).filter fun c => c.origin == r) =
      if p.next ≤ r.row ∧ r.row < b.start.row + b.size.height ∧ ¬ b.Covers r then
        [⟨r, p.place (a.frame target) r⟩]
      else [] := by
  have hheight := hb.height
  rw [filter_above hs hl hr, filter_beside hs hl hr hstart]
  simp only [hb.covers_iff hs]
  split_ifs <;> first | rfl | omega

theorem not_covers_of_below {b : Binding} {l : List (Binding × Size)} (hin : ∀ x ∈ l, a.Encloses x.1)
    (hfirst : ∀ x ∈ l, b.start.row + b.size.height ≤ x.1.start.row) {r : CellRef}
    (hrow : r.row < b.start.row + b.size.height) :
    ∀ x ∈ l, r.row < x.1.start.row + x.1.size.height ∧ ¬ x.1.Covers r := by
  intro x hx
  have hbelow := hfirst x hx
  have hheight := (hin x hx).height
  refine ⟨by omega, fun hcover => ?_⟩
  have htop := hcover.top
  omega

-- By induction on the bindings: a cell from the next row on lies above the first or on its rows, or
-- below, where it is moved by the growth of the first.
theorem copies_scriptFrom {p : Progress} {l : List (Binding × Size)}
    (hnext : ∀ x ∈ l, p.next ≤ x.1.start.row) (hin : ∀ x ∈ l, a.Encloses x.1)
    (hapart : l.Pairwise fun x y => x.1.start.row + x.1.size.height ≤ y.1.start.row) {r : CellRef}
    (hs : r.sheet = a.start.sheet) (hl : a.start.col ≤ r.col)
    (hr : r.col < a.start.col + a.size.width) :
    (((a.scriptFrom target p l).filterMap Event.copy?).filter fun c => c.origin == r) =
      if p.next ≤ r.row ∧ r.row < a.start.row + a.size.height ∧ ∀ x ∈ l, ¬ x.1.Covers r then
        [⟨r, (p.place (a.frame target) r).offset
          (a.growth (l.filter fun x => x.1.start.row + x.1.size.height ≤ r.row)) 0⟩]
      else [] := by
  have hzero : ∀ x : CellRef, x.offset 0 0 = x := fun x => by simp only [CellRef.offset, Int.add_zero]
  induction l generalizing p with
  | nil =>
    rw [scriptFrom, filterMap_copy?, filter_below hs hl hr]
    simp only [frame, List.filter_nil, growth, List.foldr_nil, hzero, List.not_mem_nil,
      false_implies, implies_true, and_true]
    exact if_congr Iff.rfl rfl rfl
  | cons x l ih =>
    obtain ⟨b, filled⟩ := x
    obtain ⟨hb, hin⟩ := List.forall_mem_cons.1 hin
    obtain ⟨hfirst, hapart⟩ := List.pairwise_cons.1 hapart
    have hb : a.Encloses b := hb
    have hfirst : ∀ y ∈ l, b.start.row + b.size.height ≤ y.1.start.row := hfirst
    have hstart : p.next ≤ b.start.row := hnext (b, filled) List.mem_cons_self
    have hheight := hb.height
    have hbottom := hb.bottom
    have ih := ih (p := (p.atBinding b).afterCommand (a.frame target) b filled) hfirst hin hapart
    have hafter : ((p.atBinding b).afterCommand (a.frame target) b filled).next =
      b.start.row + b.size.height := rfl
    rw [hafter, hb.place_afterCommand hstart] at ih
    rw [scriptFrom, List.filterMap_append, filterMap_copy?, List.filterMap_append, filterMap_copy?,
      List.filterMap_cons]
    simp only [Event.copy?, List.filter_append, ih, List.forall_mem_cons]
    rw [← List.append_assoc, hb.filter_first hstart hs hl hr]
    -- Cells above the end of the binding have no copy among those that follow, and the others none
    -- before.
    by_cases hrow : r.row < b.start.row + b.size.height
    · have hlater := not_covers_of_below hin hfirst hrow
      have hgrowth : a.growth (((b, filled) :: l).filter fun x =>
          x.1.start.row + x.1.size.height ≤ r.row) = 0 :=
        growth_filter_eq_zero (List.forall_mem_cons.2 ⟨hrow, fun y hy => (hlater y hy).1⟩)
      have htail : ¬ (b.start.row + b.size.height ≤ r.row ∧ r.row < a.start.row + a.size.height ∧
          ∀ x ∈ l, ¬ x.1.Covers r) := fun hbelow => absurd hbelow.1 (Int.not_le.2 hrow)
      rw [hgrowth, hzero, if_neg htail, List.append_nil]
      have hend : r.row < a.start.row + a.size.height := Int.lt_of_lt_of_le hrow hbottom
      exact if_congr (and_congr_right fun _ => ⟨fun h => ⟨hend, h.2, fun y hy => (hlater y hy).2⟩,
        fun h => ⟨hrow, h.2.1⟩⟩) rfl rfl
    · have hpast : b.start.row + b.size.height ≤ r.row := Int.not_lt.1 hrow
      have hfree : ¬ b.Covers r := fun hcover => hrow hcover.bottom
      have hhead : ¬ (p.next ≤ r.row ∧ r.row < b.start.row + b.size.height ∧ ¬ b.Covers r) :=
        fun h => hrow h.2.1
      rw [List.filter_cons, if_pos (decide_eq_true hpast), growth_cons, if_neg hhead,
        List.nil_append]
      refine if_congr ?_ ?_ rfl
      · exact ⟨fun h => ⟨by omega, h.2.1, hfree, h.2.2⟩, fun h => ⟨hpast, h.2.1, h.2.2.2⟩⟩
      · simp only [CellRef.offset, List.cons.injEq, CellCopy.mk.injEq, CellRef.mk.injEq, true_and,
          and_true, Int.add_zero]
        omega

variable {l : List (Binding × Size)}

theorem place_begin (target r : CellRef) (rows : Int) :
    ((Progress.begin (a.frame target)).place (a.frame target) r).offset rows 0 =
      target.offset (r.row - a.start.row + rows) (r.col - a.start.col) := by
  rw [Progress.place_begin]
  simp only [frame, CellRef.offset, CellRef.mk.injEq, true_and]
  omega

theorem Stacked.inside_of_map (ha : a.Stacked) (hl : l.map Prod.fst = a.bindings) :
    ∀ x ∈ l, a.Encloses x.1 := fun x hx => ha.inside x.1 (hl ▸ List.mem_map_of_mem hx)

theorem Stacked.below_of_map (ha : a.Stacked) (hl : l.map Prod.fst = a.bindings) :
    l.Pairwise fun x y => x.1.start.row + x.1.size.height ≤ y.1.start.row :=
  List.pairwise_map.1 (hl ▸ ha.below)

theorem Stacked.finish_begin (ha : a.Stacked) (hl : l.map Prod.fst = a.bindings)
    (hheight : 0 ≤ a.size.height) :
    ((Progress.begin (a.frame target)).through (a.frame target) l).finish (a.frame target) =
      ⟨a.breadth l, a.size.height + a.growth l⟩ := by
  have hin := ha.inside_of_map hl
  rw [finish_through (fun x hx => (hin x hx).top) (Int.le_add_of_nonneg_right hheight) hin
    (ha.below_of_map hl)]
  simp only [Progress.begin, frame, breadth, Size.mk.injEq, true_and]
  omega

theorem replay_eq_ok (ha : a.Stacked) {final : Size} :
    exec (a.replay h target) s = (.ok final, t) ↔
      a.bound = true ∧ ∃ l, l.map Prod.fst = a.bindings ∧
        Performs h a.listeners (a.script target l) s t ∧
        final = ⟨a.breadth l, a.size.height + a.growth l⟩ := by
  by_cases hne : a.bindings = []
  · rw [replay_eq_ok_of_nil hne]
    have hsize : (⟨a.breadth [], a.size.height + a.growth []⟩ : Size) = a.size := by
      simp only [breadth, growth, List.foldl_nil, List.foldr_nil, Int.add_zero]
    constructor
    · rintro ⟨hbound, hperform, rfl⟩
      exact ⟨hbound, [], hne.symm, hperform, hsize.symm⟩
    · rintro ⟨hbound, l, hl, hperform, rfl⟩
      rw [hne, List.map_eq_nil_iff] at hl
      subst hl
      exact ⟨hbound, hperform, hsize⟩
  · rw [replay_eq_ok_of_ne_nil hne]
    obtain ⟨b, hb⟩ := List.exists_mem_of_ne_nil _ hne
    obtain ⟨-, htop, hpos, hbottom, -, -⟩ := ha.inside b hb
    have hheight : 0 ≤ a.size.height := by omega
    refine and_congr_right fun _ => exists_congr fun l => and_congr_right fun hl => ?_
    rw [ha.finish_begin hl hheight]

theorem Stacked.runs_script (ha : a.Stacked) (hl : l.map Prod.fst = a.bindings) :
    (a.script target l).filterMap Event.run? =
      l.mapIdx fun i x => (x.1, a.placed target (l.take i) x.1.start, x.2) := by
  have hin := ha.inside_of_map hl
  rw [script, runs_scriptFrom (fun x hx => (hin x hx).top) hin (ha.below_of_map hl)]
  simp only [place_begin, placed]

theorem Stacked.copies_script (ha : a.Stacked) (hl : l.map Prod.fst = a.bindings) (r : CellRef) :
    (((a.script target l).filterMap Event.copy?).filter fun c => c.origin == r) =
      if a.contains r = true ∧ ∀ b ∈ a.bindings, ¬ b.Covers r then
        [⟨r, a.placed target (l.filter fun x => x.1.start.row + x.1.size.height ≤ r.row) r⟩]
      else [] := by
  have hin := ha.inside_of_map hl
  have hcovers : (∀ b ∈ a.bindings, ¬ b.Covers r) ↔ ∀ x ∈ l, ¬ x.1.Covers r := by
    rw [← hl]
    exact List.forall_mem_map
  by_cases hcols : r.sheet = a.start.sheet ∧ a.start.col ≤ r.col ∧ r.col < a.start.col + a.size.width
  · obtain ⟨hs, hleft, hright⟩ := hcols
    rw [script, copies_scriptFrom (fun x hx => (hin x hx).top) hin (ha.below_of_map hl) hs hleft hright,
      place_begin]
    refine if_congr ?_ rfl rfl
    rw [hcovers, a.contains_iff]
    constructor
    · rintro ⟨htop, hbottom, hfree⟩
      exact ⟨⟨hs, htop, hbottom, hleft, hright⟩, hfree⟩
    · rintro ⟨hr, hfree⟩
      exact ⟨hr.top, hr.bottom, hfree⟩
  · rw [if_neg, List.filter_eq_nil_iff]
    · intro c hc horigin
      rw [beq_iff_eq] at horigin
      exact hcols (horigin ▸ columns_scriptFrom hc)
    · rintro ⟨hr, -⟩
      obtain ⟨hs, -, -, hleft, hright⟩ := (a.contains_iff r).1 hr
      exact hcols ⟨hs, hleft, hright⟩

/-- Where no two bindings share rows, a replay is what its script says, with the sizes that the
commands report: each command runs once, in order, and each cell that no binding covers is copied
once, both in their columns and as far down as the bindings above have grown; and by as much as all
of them the area grows. -/
theorem replay_lays_out (h : FillHost) (ha : a.Stacked) (target : CellRef) :
    (∀ s t final, exec (a.replay h target) s = (.ok final, t) ↔
      a.bound = true ∧ ∃ l, l.map Prod.fst = a.bindings ∧
        Performs h a.listeners (a.script target l) s t ∧
        final = ⟨a.breadth l, a.size.height + a.growth l⟩) ∧
    ∀ l, l.map Prod.fst = a.bindings →
      ((a.script target l).filterMap Event.run? =
        l.mapIdx fun i x => (x.1, a.placed target (l.take i) x.1.start, x.2)) ∧
      ∀ r, (((a.script target l).filterMap Event.copy?).filter fun c => c.origin == r) =
        if a.contains r = true ∧ ∀ b ∈ a.bindings, ¬ b.Covers r then
          [⟨r, a.placed target (l.filter fun x => x.1.start.row + x.1.size.height ≤ r.row) r⟩]
        else [] :=
  ⟨fun _ _ _ => replay_eq_ok ha, fun _ hl => ⟨ha.runs_script hl, ha.copies_script hl⟩⟩

def growing : Area :=
  { start := ⟨"S", 0, 0⟩
    size := ⟨3, 6⟩
    bindings :=
      [⟨.autoRowHeight, ⟨"S", 1, 0⟩, ⟨3, 1⟩, [{ start := ⟨"S", 1, 0⟩, size := ⟨3, 2⟩ }]⟩,
        ⟨.autoRowHeight, ⟨"S", 3, 1⟩, ⟨1, 2⟩, []⟩] }

theorem growing_stacked : growing.Stacked where
  inside := by
    intro b hb
    simp only [growing, List.mem_cons, List.not_mem_nil, or_false] at hb
    rcases hb with rfl | rfl
    all_goals constructor <;> decide
  sorted := by decide
  apart := List.pairwise_pair.2 (Or.inl (by decide))

theorem growing_laid_out :
    growing.Stacked ∧ ∃ t l, exec (growing.replay {} ⟨"S", 9, 0⟩) blank = (.ok ⟨3, 7⟩, t) ∧
      l.map Prod.fst = growing.bindings ∧
      Performs {} growing.listeners (growing.script ⟨"S", 9, 0⟩ l) blank t ∧
      3 = growing.breadth l ∧ 1 = growing.growth l := by
  have hrun := eq_ok_of_toOption (p := exec (growing.replay {} ⟨"S", 9, 0⟩) blank)
    (a := ⟨3, 7⟩) (by decide +kernel)
  obtain ⟨-, l, hl, hperform, hfinal⟩ :=
    ((replay_lays_out {} growing_stacked ⟨"S", 9, 0⟩).1 _ _ _).1 hrun
  obtain ⟨hbreadth, hheight⟩ := Size.mk.inj hfinal
  refine ⟨growing_stacked, _, l, hrun, hl, hperform, hbreadth, ?_⟩
  simp only [growing] at hheight ⊢
  omega

end Area

end SheetTemplate
