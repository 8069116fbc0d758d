import SheetTemplate.Proofs.Area.Seating
import SheetTemplate.Proofs.Area.Sizing

namespace SheetTemplate

open FillM

namespace AreaRef

/-- A rectangle and an area together are one rectangle that begins where the first one does: the area
lies in it, or around it from the same first cell, or continues it downward or to the right. -/
inductive Completes (other : AreaRef) (start : CellRef) (size : Size) : Prop where
  | inside (bottom : other.last.row < start.row + size.height)
    (right : other.last.col < start.col + size.width)
  | around (top : other.first.row = start.row) (left : other.first.col = start.col)
    (bottom : start.row + size.height ≤ other.last.row + 1)
    (right : start.col + size.width ≤ other.last.col + 1)
  | downward (left : other.first.col = start.col) (right : other.last.col + 1 = start.col + size.width)
    (top : other.first.row ≤ start.row + size.height)
  | rightward (top : other.first.row = start.row)
    (bottom : other.last.row + 1 = start.row + size.height)
    (left : other.first.col ≤ start.col + size.width)

def Follows (other : AreaRef) (start : CellRef) : Prop :=
  start.row ≤ other.first.row ∧ start.col ≤ other.first.col

end AreaRef

namespace Plan

variable {start : CellRef} {size : Size} {other : AreaRef} {r : CellRef}

theorem joined_of_follows (hsheet : other.first.sheet = start.sheet) (hfollows : other.Follows start) :
    joined start size other =
      ⟨max size.width (other.last.col - start.col + 1),
        max size.height (other.last.row - start.row + 1)⟩ := by
  obtain ⟨hrow, hcol⟩ := hfollows
  rw [joined, if_neg]
  simp only [AreaRef.sheet, Bool.or_eq_true, bne_iff_ne, decide_eq_true_eq]
  rintro ((hne | habove) | hleft)
  · exact hne hsheet
  · omega
  · omega

theorem joined_of_not_follows (hfollows : ¬ other.Follows start) : joined start size other = size := by
  rw [AreaRef.Follows, not_and_or, Int.not_le, Int.not_le] at hfollows
  rw [joined, if_pos]
  simp only [Bool.or_eq_true, decide_eq_true_eq]
  exact hfollows.elim (fun h => .inl (.inr h)) .inr

theorem within_joined (start : CellRef) (size : Size) (other : AreaRef) :
    size.Within (joined start size other) := by
  rw [joined]
  split
  · exact .refl _
  · exact ⟨Int.le_max_left _ _, Int.le_max_left _ _⟩

theorem joined_within (start : CellRef) (size : Size) (other : AreaRef) :
    (joined start size other).Within
      ⟨max size.width (other.last.col - start.col + 1),
        max size.height (other.last.row - start.row + 1)⟩ := by
  rw [joined]
  split
  · exact ⟨Int.le_max_left _ _, Int.le_max_left _ _⟩
  · exact .refl _

theorem joined_holds_iff (hsheet : other.first.sheet = start.sheet) (hordered : other.Ordered) :
    (∀ r, other.size.Holds other.first r → (joined start size other).Holds start r) ↔
      other.Follows start := by
  obtain ⟨hrows, hcols⟩ := hordered
  constructor
  · intro hholds
    have hfirst := hholds other.first ⟨rfl, Int.le_refl _, by simp only [AreaRef.size]; omega,
      Int.le_refl _, by simp only [AreaRef.size]; omega⟩
    exact ⟨hfirst.top, hfirst.left⟩
  · rintro hfollows r ⟨hs, htop, hbottom, hleft, hright⟩
    rw [joined_of_follows hsheet hfollows]
    obtain ⟨hrow, hcol⟩ := hfollows
    simp only [AreaRef.size] at hbottom hright
    refine ⟨hs.trans hsheet, by omega, ?_, by omega, ?_⟩ <;> simp only <;> omega

theorem covered_of_completes (hsheet : other.first.sheet = start.sheet)
    (hcompletes : other.Completes start size)
    (hr : Size.Holds ⟨max size.width (other.last.col - start.col + 1),
      max size.height (other.last.row - start.row + 1)⟩ start r) :
    size.Holds start r ∨ other.size.Holds other.first r := by
  obtain ⟨hs, htop, hbottom, hleft, hright⟩ := hr
  simp only at hbottom hright
  have hin : (r.row < start.row + size.height ∧ r.col < start.col + size.width) ∨
      (other.first.row ≤ r.row ∧ r.row ≤ other.last.row ∧ other.first.col ≤ r.col ∧
        r.col ≤ other.last.col) := by
    cases hcompletes <;> omega
  rcases hin with ⟨hb, hr⟩ | ⟨ht, hb, hl, hr⟩
  · exact .inl ⟨hs, htop, hb, hleft, hr⟩
  · refine .inr ⟨hs.trans hsheet.symm, ht, ?_, hl, ?_⟩ <;> simp only [AreaRef.size] <;> omega

theorem completes_of_covered (hordered : other.Ordered) (hsize : size.Positive)
    (hfollows : other.Follows start)
    (hall : ∀ r, Size.Holds ⟨max size.width (other.last.col - start.col + 1),
        max size.height (other.last.row - start.row + 1)⟩ start r →
      size.Holds start r ∨ other.size.Holds other.first r) :
    other.Completes start size := by
  obtain ⟨hrow, hcol⟩ := hfollows
  obtain ⟨hw, hh⟩ := hsize
  obtain ⟨hrows, hcols⟩ := hordered
  have hcell : ∀ row col, start.row ≤ row →
      (row < start.row + size.height ∨ row ≤ other.last.row) → start.col ≤ col →
        (col < start.col + size.width ∨ col ≤ other.last.col) →
          (row < start.row + size.height ∧ col < start.col + size.width) ∨
            (other.first.row ≤ row ∧ row ≤ other.last.row ∧ other.first.col ≤ col ∧
              col ≤ other.last.col) := by
    intro row col htop hbottom hleft hright
    have hin := hall ⟨start.sheet, row, col⟩
      ⟨rfl, htop, by simp only; omega, hleft, by simp only; omega⟩
    rcases hin with ⟨-, -, hb, -, hr⟩ | ⟨-, ht, hb, hl, hr⟩
    · exact .inl ⟨hb, hr⟩
    · simp only [AreaRef.size] at ht hb hl hr
      exact .inr ⟨ht, by omega, hl, by omega⟩
  -- The corners of the rectangle that lie outside the first area lie in the second.
  by_cases hb : other.last.row < start.row + size.height
  · by_cases hr : other.last.col < start.col + size.width
    · exact .inside hb hr
    · have htop := hcell start.row other.last.col (by omega) (by omega) (by omega) (by omega)
      have hbottom := hcell (start.row + size.height - 1) other.last.col (by omega) (by omega)
        (by omega) (by omega)
      have hnext := hcell start.row (start.col + size.width) (by omega) (by omega) (by omega)
        (by omega)
      exact .rightward (by omega) (by omega) (by omega)
  · have hleft := hcell other.last.row start.col (by omega) (by omega) (by omega) (by omega)
    by_cases hr : other.last.col < start.col + size.width
    · have hright := hcell other.last.row (start.col + size.width - 1) (by omega) (by omega)
        (by omega) (by omega)
      have hnext := hcell (start.row + size.height) start.col (by omega) (by omega) (by omega)
        (by omega)
      exact .downward (by omega) (by omega) (by omega)
    · have htop := hcell start.row other.last.col (by omega) (by omega) (by omega) (by omega)
      exact .around (by omega) (by omega) (by omega) (by omega)

theorem joined_covers_iff (hsheet : other.first.sheet = start.sheet) (hordered : other.Ordered)
    (hsize : size.Positive) :
    (∀ r, (joined start size other).Holds start r →
        size.Holds start r ∨ other.size.Holds other.first r) ↔
      (other.Follows start → other.Completes start size) := by
  by_cases hfollows : other.Follows start
  · rw [joined_of_follows hsheet hfollows, forall_prop_of_true hfollows]
    exact ⟨completes_of_covered hordered hsize hfollows,
      fun hcompletes r => covered_of_completes hsheet hcompletes⟩
  · rw [joined_of_not_follows hfollows]
    exact iff_of_true (fun r => .inl) fun h => absurd h hfollows

/-- All that is bound to an area is one command with two areas, both of which lie in the area. -/
structure Branches (p : Plan) (n : Parent) (a : Area) (e : CommandEntry) (other : AreaRef) : Prop where
  alone : ∃ i size, p.sorted n = [(e, i, size)]
  second : e.second? = some other
  ordered : other.Ordered
  inside : ∀ r, e.size.Holds e.start r → a.contains r = true
  first : a.contains other.first = true
  last : a.contains other.last = true

variable {p : Plan} {n : Parent} {a : Area} {e : CommandEntry}

theorem Branches.mem_entries (hp : p.Complete) (hb : p.Branches n a e other) : e ∈ p.entries := by
  obtain ⟨i, size, halone⟩ := hb.alone
  exact List.mem_of_getElem? (mem_sorted hp (halone ▸ List.mem_singleton_self (e, i, size))).1

theorem Branches.sheet (hb : p.Branches n a e other) (he : e.size.Positive) :
    other.first.sheet = e.start.sheet ∧ a.contains e.start = true := by
  have hstart := hb.inside e.start ⟨rfl, Int.le_refl _, Int.lt_add_of_pos_right _ he.height,
    Int.le_refl _, Int.lt_add_of_pos_right _ he.width⟩
  have hsheet := ((a.contains_iff _).1 hstart).sheet
  exact ⟨((a.contains_iff _).1 hb.first).sheet.trans hsheet.symm, hstart⟩

theorem Branches.second_inside (hb : p.Branches n a e other)
    (hr : other.size.Holds other.first r) : a.contains r = true := by
  obtain ⟨hs, htop, -, hleft, -⟩ := (a.contains_iff _).1 hb.first
  obtain ⟨-, -, hbottom, -, hright⟩ := (a.contains_iff _).1 hb.last
  obtain ⟨hs', htop', hbottom', hleft', hright'⟩ := hr
  simp only [AreaRef.size] at hbottom' hright'
  exact (a.contains_iff r).2 ⟨hs'.trans hs, by omega, by omega, by omega, by omega⟩

theorem Branches.binding (hp : p.Complete) (hdepicts : p.Depicts n a)
    (hb : p.Branches n a e other) :
    ∃ b, a.bindings = [b] ∧ b.start = e.start ∧ b.size = joined e.start e.size other := by
  obtain ⟨i, size, halone⟩ := hb.alone
  have hbindings := hdepicts.bindings
  rw [halone] at hbindings
  obtain ⟨b, rest, ⟨-, hstart, hsize, -⟩, hrest, heq⟩ := List.forall₂_cons_left_iff.1 hbindings
  cases hrest
  refine ⟨b, heq, hstart, hsize.trans ?_⟩
  have hmem : (e, i, size) ∈ p.children n := by
    rw [← (List.mergeSort_perm (p.children n) childBefore).mem_iff]
    exact (congrArg (_ ∈ ·) halone).mpr (List.mem_singleton_self _)
  obtain ⟨-, area, hparent, hsizeIn⟩ := (mem_children hp).1 hmem
  have hcontains : ∀ r, contains (a.start, a.size) r = a.contains r := fun r => rfl
  refine hsizeIn.trans ?_
  simp only [sizeIn, hb.second, hdepicts.area_eq hparent, hcontains, hb.first, hb.last,
    Bool.and_self, if_true]

theorem Branches.stacked (hp : p.Complete) (hdepicts : p.Depicts n a) (hb : p.Branches n a e other)
    (he : e.size.Positive) : a.Stacked := by
  obtain ⟨b, hbindings, hstart, hsize⟩ := hb.binding hp hdepicts
  obtain ⟨hw, hh⟩ := he
  have hin := (a.contains_iff _).1 (hb.inside ⟨e.start.sheet, e.start.row + e.size.height - 1,
    e.start.col + e.size.width - 1⟩ ⟨rfl, by simp only; omega, by simp only; omega,
      by simp only; omega, by simp only; omega⟩)
  obtain ⟨hsheet, hfirst⟩ := hb.sheet ⟨hw, hh⟩
  have hfirst := (a.contains_iff _).1 hfirst
  have hlast := (a.contains_iff _).1 hb.last
  obtain ⟨-, -, hbottom, -, hright⟩ := hin
  have hlower := within_joined e.start e.size other
  have hupper := joined_within e.start e.size other
  have hencloses : a.Encloses b := by
    constructor
    · exact hstart ▸ hfirst.sheet
    · exact hstart ▸ hfirst.top
    · exact hsize ▸ Int.lt_of_lt_of_le hh hlower.height
    · have hheight := hupper.height
      have hlastrow := hlast.bottom
      rw [hstart, hsize]
      simp only at hheight hbottom
      omega
    · exact hstart ▸ hfirst.left
    · have hwidth := hupper.width
      have hlastcol := hlast.right
      rw [hstart, hsize]
      simp only at hwidth hright
      omega
  refine ⟨?_, ?_, ?_⟩ <;> rw [hbindings]
  · exact List.forall_mem_singleton.2 hencloses
  · exact List.pairwise_singleton _ b
  · exact List.pairwise_singleton _ b

end Plan

namespace Area

variable {a : Area} {target r : CellRef} {l : List (Binding × Size)}

theorem Encloses.contains {b : Binding} (hb : a.Encloses b) (hr : b.Covers r) :
    a.contains r = true := by
  obtain ⟨hsheet, htop, -, hbottom, hleft, hright⟩ := hb
  obtain ⟨hs, ht, hb, hl, hr⟩ := hr
  exact (a.contains_iff r).2 ⟨hs.trans hsheet, by omega, by omega, by omega, by omega⟩

def timesCopied (a : Area) (target : CellRef) (l : List (Binding × Size)) (r : CellRef) : Nat :=
  ((a.script target l).filterMap Event.copy?).countP fun c => c.origin == r

theorem Stacked.timesCopied_eq (ha : a.Stacked) (hl : l.map Prod.fst = a.bindings) (r : CellRef) :
    a.timesCopied target l r =
      if a.contains r = true ∧ ∀ b ∈ a.bindings, ¬ b.Covers r then 1 else 0 := by
  rw [timesCopied, List.countP_eq_length_filter, ha.copies_script hl r]
  split <;> rfl

end Area

theorem Plan.Branches.joined_inside {p : Plan} {n : Parent} {a : Area} {e : CommandEntry}
    {other : AreaRef} (hp : p.Complete) (hdepicts : p.Depicts n a) (hb : p.Branches n a e other)
    (he : e.size.Positive) {r : CellRef} (hr : (joined e.start e.size other).Holds e.start r) :
    a.contains r = true := by
  obtain ⟨b, hbindings, hstart, hsize⟩ := hb.binding hp hdepicts
  have hencloses := (hb.stacked hp hdepicts he).inside b (hbindings ▸ List.mem_singleton_self b)
  refine hencloses.contains ?_
  rwa [Binding.Covers, hstart, hsize]

theorem Plan.Branches.replay {p : Plan} {n : Parent} {a : Area} {e : CommandEntry} {other : AreaRef}
    (hp : p.Complete) (hdepicts : p.Depicts n a) (hb : p.Branches n a e other)
    (he : e.size.Positive) {host : FillHost} {target : CellRef} {s t : FillState} {final : Size}
    (hr : exec (a.replay host target) s = (.ok final, t)) :
    ∃ l, l.map Prod.fst = a.bindings ∧ Area.Performs host a.listeners (a.script target l) s t ∧
      ∀ r, a.timesCopied target l r =
        if a.contains r = true ∧ ¬ (joined e.start e.size other).Holds e.start r then 1 else 0 := by
  have ha := hb.stacked hp hdepicts he
  obtain ⟨b, hbindings, hstart, hsize⟩ := hb.binding hp hdepicts
  obtain ⟨-, l, hl, hperform, -⟩ := (Area.replay_eq_ok ha).1 hr
  refine ⟨l, hl, hperform, fun r => ?_⟩
  rw [ha.timesCopied_eq hl r]
  simp only [hbindings, List.mem_singleton, forall_eq, Binding.Covers, hstart, hsize]

namespace FillM

/-- Where all that is bound to an area is a command with two areas that lie in it, a replay leaves to
the command all cells from its first one to the last row and the last column that either area
reaches, or those of the first area when the second begins above or left of it, and copies each other
cell once. No cell of the two areas is copied just when the second follows the first cell, and all
others are just when it does not, or completes the first area to a rectangle. -/
theorem buildAreas_footprint {r : Registry} {listeners : List Nat} {s t : FillState} {roots : List Area}
    (h : exec (buildAreas r listeners) s = (.ok roots, t)) :
    ∃ p : Plan, exec (planAreas r) s = (.ok p, t) ∧
      List.Forall₂ (fun n x => p.Depicts n x.1 ∧ ∀ e other, p.Branches n x.1 e other →
          ∀ host target s final t, exec (x.1.replay host target) s = (.ok final, t) →
            ∃ l, l.map Prod.fst = x.1.bindings ∧
              Area.Performs host x.1.listeners (x.1.script target l) s t ∧
              (∀ r, x.1.contains r = true → x.1.timesCopied target l r =
                if (Plan.joined e.start e.size other).Holds e.start r then 0 else 1) ∧
              ((∀ r, e.size.Holds e.start r ∨ other.size.Holds other.first r →
                  x.1.timesCopied target l r = 0) ↔ other.Follows e.start) ∧
              ((∀ r, x.1.contains r = true → ¬ e.size.Holds e.start r →
                  ¬ other.size.Holds other.first r → x.1.timesCopied target l r = 1) ↔
                (other.Follows e.start → other.Completes e.start e.size)))
        p.nodes (roots.flatMap (Area.walk 0)) := by
  obtain ⟨p, hplan, rfl⟩ := buildAreas_eq_ok.1 h
  have hp := (planAreas_ok hplan).1
  have hsized := planAreas_sized hplan
  refine ⟨p, hplan, (Plan.depicts_forest hp listeners).imp fun n x hx => ⟨hx, ?_⟩⟩
  intro e other hb host target s final t hr
  have he : e.size.Positive := hsized.entries e (hb.mem_entries hp)
  obtain ⟨l, hl, hperform, htimes⟩ := hb.replay hp hx he hr
  -- What is copied is told by the size that covers both areas.
  have hnone : ∀ r, x.1.contains r = true → (x.1.timesCopied target l r = 0 ↔
      (Plan.joined e.start e.size other).Holds e.start r) := by
    intro r hin
    simp only [htimes, hin, true_and, ite_eq_right_iff, one_ne_zero, imp_false, not_not]
  have hone : ∀ r, x.1.timesCopied target l r = 1 ↔
      x.1.contains r = true ∧ ¬ (Plan.joined e.start e.size other).Holds e.start r := by
    intro r
    simp only [htimes, ite_eq_left_iff, zero_ne_one, imp_false, not_not]
  have hsheet := (hb.sheet he).1
  refine ⟨l, hl, hperform, ?_, ?_, ?_⟩
  · intro r hin
    rw [htimes, if_congr (and_iff_right hin) rfl rfl, ite_not]
  · rw [← Plan.joined_holds_iff hsheet hb.ordered]
    constructor
    · exact fun hall r hr => (hnone r (hb.second_inside hr)).1 (hall r (.inr hr))
    · rintro hall r (hr | hr)
      · exact (hnone r (hb.inside r hr)).2 (hr.mono (Plan.within_joined _ _ _))
      · exact (hnone r (hb.second_inside hr)).2 (hall r hr)
  · rw [← Plan.joined_covers_iff hsheet hb.ordered he]
    constructor
    · intro hall r hr
      have hin := hb.joined_inside hp hx he hr
      by_contra hout
      rw [not_or] at hout
      exact ((hone r).1 (hall r hin hout.1 hout.2)).2 hr
    · intro hall r hin hfirst hsecond
      exact (hone r).2 ⟨hin, fun hr => (hall r hr).elim hfirst hsecond⟩

def conditional (second : String) : Workbook where
  sheets :=
    [(({ title := "S" } : Sheet).setCell ⟨0, 0⟩
        { value := .int 1, comment? := some "jx:area(lastCell=\"C3\")" }
      ).setCell ⟨1, 1⟩
        { value := .int 2
          comment? := some ("jx:if(condition=\"true\" lastCell=\"B2\" areas=[\"B2:B2\",\"" ++ second ++
            "\"])") }]

def readsBranches (s : FillState) (other : AreaRef) (p : Plan) : Bool :=
  decide (p.entries.Pairwise fun a b => a.before b = true) &&
    decide (p.completed.nodes = [.root 0, .inner 0 0, .inner 0 1]) &&
    decide ((p.completed.sorted (.root 0)).map (fun c => (c.1.start, c.1.size, c.1.second?)) =
      [(⟨"S", 1, 1⟩, ⟨1, 1⟩, some other)]) &&
    decide ((p.completed.sorted (.root 0)).map (fun c => c.1.command.name) = ["if"]) &&
    decide ((p.completed.forest []).map (fun a =>
      (a.start, a.size, (exec (a.replay {} ⟨"S", 9, 0⟩) s).1.toOption)) =
        [(⟨"S", 0, 0⟩, ⟨3, 3⟩, some ⟨3, 3⟩)])

theorem exists_branches (second : String) (other : AreaRef) (hordered : other.Ordered)
    (hin : Plan.contains (⟨"S", 0, 0⟩, ⟨3, 3⟩) other.first = true ∧
      Plan.contains (⟨"S", 0, 0⟩, ⟨3, 3⟩) other.last = true)
    (hread : (exec (readAreas .builtin) (.ofWorkbook (conditional second))).1.toOption.map
      (readsBranches (.ofWorkbook (conditional second)) other) = some true) :
    ∃ p u a e v, exec (planAreas .builtin) (.ofWorkbook (conditional second)) = (.ok p, u) ∧
      exec (buildAreas .builtin []) (.ofWorkbook (conditional second)) = (.ok [a], u) ∧
      p.nodes = [.root 0, .inner 0 0, .inner 0 1] ∧ p.Branches (.root 0) a e other ∧
      exec (a.replay {} ⟨"S", 9, 0⟩) (.ofWorkbook (conditional second)) = (.ok ⟨3, 3⟩, v) ∧
      e.command.name = "if" ∧ e.start = ⟨"S", 1, 1⟩ ∧ e.size = ⟨1, 1⟩ ∧
      ∃ l, l.map Prod.fst = a.bindings ∧
        Area.Performs {} a.listeners (a.script ⟨"S", 9, 0⟩ l) (.ofWorkbook (conditional second)) v ∧
        ∀ r, a.timesCopied ⟨"S", 9, 0⟩ l r =
          if Plan.contains (⟨"S", 0, 0⟩, ⟨3, 3⟩) r = true ∧
            ¬ (Plan.joined ⟨"S", 1, 1⟩ ⟨1, 1⟩ other).Holds ⟨"S", 1, 1⟩ r then 1 else 0 := by
  obtain ⟨q, hq, hfacts⟩ := Option.map_eq_some_iff.1 hread
  simp only [readsBranches, Bool.and_eq_true, decide_eq_true_eq] at hfacts
  obtain ⟨⟨⟨⟨hsorted, hnodes⟩, halone⟩, hname⟩, hforest⟩ := hfacts
  obtain ⟨u, hplan, hbuild⟩ := exec_buildAreas_of_pairwise [] (eq_ok_of_toOption hq) hsorted
  obtain ⟨⟨e, i, size⟩, halone, he⟩ := List.map_eq_singleton_iff.1 halone
  obtain ⟨a, hforest, ha⟩ := List.map_eq_singleton_iff.1 hforest
  simp only [Prod.mk.injEq] at he ha
  simp only [halone, List.map_cons, List.map_nil, List.cons.injEq, and_true] at hname
  obtain ⟨hstart, hsize, hsecond⟩ := he
  obtain ⟨hfirst, hareasize, hrun⟩ := ha
  have hdepicts := Plan.depicts_forest (planAreas_ok hplan).1 []
  rw [hnodes, hforest, List.flatMap_singleton, Area.walk_eq] at hdepicts
  obtain _ | ⟨hdepicts, -⟩ := hdepicts
  have hcontains : ∀ r, a.contains r = Plan.contains (⟨"S", 0, 0⟩, ⟨3, 3⟩) r := fun r => by
    rw [Area.contains, Plan.contains, hfirst, hareasize]
  have hinside : ∀ r, e.size.Holds e.start r → a.contains r = true := by
    intro r hr
    rw [hstart, hsize] at hr
    rw [a.contains_iff, hfirst, hareasize]
    obtain ⟨hs, htop, hbottom, hleft, hright⟩ := hr
    simp only at htop hbottom hleft hright
    exact ⟨hs, by simp only; omega, by simp only; omega, by simp only; omega, by simp only; omega⟩
  have hb : q.completed.Branches (.root 0) a e other :=
    ⟨⟨i, size, halone⟩, hsecond, hordered, hinside, (hcontains _).trans hin.1,
      (hcontains _).trans hin.2⟩
  have he : e.size.Positive := hsize ▸ ⟨by decide, by decide⟩
  have hrun := eq_ok_of_toOption hrun
  obtain ⟨l, hl, hperform, htimes⟩ := hb.replay (planAreas_ok hplan).1 hdepicts he hrun
  simp only [hcontains, hstart, hsize] at htimes
  exact ⟨_, u, a, e, _, hplan, hforest ▸ hbuild, hnodes, hb, hrun, hname, hstart, hsize, l, hl,
    hperform, htimes⟩

theorem branches_downward :
    ∃ p u a e v l, exec (planAreas .builtin) (.ofWorkbook (conditional "B3:B3")) = (.ok p, u) ∧
      exec (buildAreas .builtin []) (.ofWorkbook (conditional "B3:B3")) = (.ok [a], u) ∧
      p.Branches (.root 0) a e ⟨⟨"S", 2, 1⟩, ⟨"S", 2, 1⟩⟩ ∧
      exec (a.replay {} ⟨"S", 9, 0⟩) (.ofWorkbook (conditional "B3:B3")) = (.ok ⟨3, 3⟩, v) ∧
      Area.Performs {} a.listeners (a.script ⟨"S", 9, 0⟩ l) (.ofWorkbook (conditional "B3:B3")) v ∧
      (∀ r, e.size.Holds e.start r ∨ Size.Holds ⟨1, 1⟩ ⟨"S", 2, 1⟩ r →
        a.timesCopied ⟨"S", 9, 0⟩ l r = 0) ∧
      ∀ r, a.contains r = true → ¬ e.size.Holds e.start r → ¬ Size.Holds ⟨1, 1⟩ ⟨"S", 2, 1⟩ r →
        a.timesCopied ⟨"S", 9, 0⟩ l r = 1 := by
  obtain ⟨p, u, a, e, v, hplan, hbuild, hnodes, hb, hrun, -, hstart, hsize, -⟩ :=
    exists_branches "B3:B3" ⟨⟨"S", 2, 1⟩, ⟨"S", 2, 1⟩⟩
      ⟨by decide, by decide⟩ (by decide) (by decide +kernel)
  obtain ⟨p', hp', hwalk⟩ := buildAreas_footprint hbuild
  rw [hplan] at hp'
  cases hp'
  rw [hnodes, List.flatMap_singleton, Area.walk_eq] at hwalk
  obtain _ | ⟨⟨-, hreplay⟩, -⟩ := hwalk
  obtain ⟨l, -, hperform, -, hnone, hone⟩ := hreplay e _ hb {} ⟨"S", 9, 0⟩ _ _ _ hrun
  refine ⟨p, u, a, e, v, l, hplan, hbuild, hb, hrun, hperform, hnone.2 ?_, hone.2 fun _ => ?_⟩
  · rw [hstart]
    exact ⟨by decide, by decide⟩
  · rw [hstart, hsize]
    exact .downward rfl rfl (by decide)

theorem branches_inexact :
    (∃ p u a e v l, exec (planAreas .builtin) (.ofWorkbook (conditional "A2:A2")) = (.ok p, u) ∧
      exec (buildAreas .builtin []) (.ofWorkbook (conditional "A2:A2")) = (.ok [a], u) ∧
      p.Branches (.root 0) a e ⟨⟨"S", 1, 0⟩, ⟨"S", 1, 0⟩⟩ ∧ e.command.name = "if" ∧
      exec (a.replay {} ⟨"S", 9, 0⟩) (.ofWorkbook (conditional "A2:A2")) = (.ok ⟨3, 3⟩, v) ∧
      l.map Prod.fst = a.bindings ∧
      Area.Performs {} a.listeners (a.script ⟨"S", 9, 0⟩ l) (.ofWorkbook (conditional "A2:A2")) v ∧
      a.timesCopied ⟨"S", 9, 0⟩ l ⟨"S", 1, 0⟩ = 1) ∧
    ∃ p u a e v l, exec (planAreas .builtin) (.ofWorkbook (conditional "C3:C3")) = (.ok p, u) ∧
      exec (buildAreas .builtin []) (.ofWorkbook (conditional "C3:C3")) = (.ok [a], u) ∧
      p.Branches (.root 0) a e ⟨⟨"S", 2, 2⟩, ⟨"S", 2, 2⟩⟩ ∧ e.command.name = "if" ∧
      exec (a.replay {} ⟨"S", 9, 0⟩) (.ofWorkbook (conditional "C3:C3")) = (.ok ⟨3, 3⟩, v) ∧
      l.map Prod.fst = a.bindings ∧
      Area.Performs {} a.listeners (a.script ⟨"S", 9, 0⟩ l) (.ofWorkbook (conditional "C3:C3")) v ∧
      e.start = ⟨"S", 1, 1⟩ ∧ e.size = ⟨1, 1⟩ ∧ a.timesCopied ⟨"S", 9, 0⟩ l ⟨"S", 1, 2⟩ = 0 := by
  constructor
  · obtain ⟨p, u, a, e, v, hplan, hbuild, -, hb, hrun, hname, -, -, l, hl, hperform, htimes⟩ :=
      exists_branches "A2:A2" ⟨⟨"S", 1, 0⟩, ⟨"S", 1, 0⟩⟩
        ⟨by decide, by decide⟩ (by decide) (by decide +kernel)
    exact ⟨p, u, a, e, v, l, hplan, hbuild, hb, hname, hrun, hl, hperform,
      (htimes _).trans (by decide)⟩
  · obtain ⟨p, u, a, e, v, hplan, hbuild, -, hb, hrun, hname, hstart, hsize, l, hl, hperform,
      htimes⟩ :=
      exists_branches "C3:C3" ⟨⟨"S", 2, 2⟩, ⟨"S", 2, 2⟩⟩
        ⟨by decide, by decide⟩ (by decide) (by decide +kernel)
    exact ⟨p, u, a, e, v, l, hplan, hbuild, hb, hname, hrun, hl, hperform, hstart, hsize,
      (htimes _).trans (by decide)⟩

end FillM

end SheetTemplate
