import SheetTemplate.Proofs.Area.Rows
import SheetTemplate.Proofs.Fill.Journal

/-!
Which cells a replay copies itself. A course lists these copies for one replay, whatever sizes the
commands report. The rows beside a binding are copied without the columns of this binding only; so
two bindings side by side copy the cells of each other, and the cells beside both of them twice.
-/

namespace SheetTemplate

open FillM

def Binding.Covers (b : Binding) (r : CellRef) : Prop := b.size.Holds b.start r

instance (b : Binding) (r : CellRef) : Decidable (b.Covers r) :=
  inferInstanceAs (Decidable (b.size.Holds b.start r))

def Binding.RowsApart (b c : Binding) : Prop :=
  b.start.row + b.size.height ≤ c.start.row ∨ c.start.row + c.size.height ≤ b.start.row

def CellCopy.write (c : CellCopy) : Write := .copy c.origin c.target

namespace Area

variable {h : FillHost}

/-- A replay that has come as far as `p`, past the bindings that remain: the copies that the area
makes itself, in order, and the size that it reports. -/
inductive Course (h : FillHost) (f : Frame) :
    Progress → List Binding → FillState → List CellCopy → Size → FillState → Prop
  | nil {p : Progress} {s t : FillState}
    (below : exec (copyAll h f (p.below f)) s = (.ok (), t)) :
    Course h f p [] s (p.below f) (p.finish f) t
  | cons {p : Progress} {b : Binding} {rest : List Binding} {s₁ s₂ s₃ s₄ t : FillState}
    {filled final : Size} {copies : List CellCopy}
    (above : exec (copyAll h f (p.above f b)) s₁ = (.ok (), s₂))
    (beside : exec (copyAll h f ((p.atBinding b).beside f b)) s₂ = (.ok (), s₃))
    (run : exec (b.command.run h (inners h b.areas) ((p.atBinding b).commandTarget f b)) s₃ =
      (.ok filled, s₄))
    (tail : Course h f ((p.atBinding b).afterCommand f b filled) rest
      (exec (log .debug "area" (b.command.name ++ " at " ++
        ((p.atBinding b).commandTarget f b).label ++ " -> " ++ filled.text)) s₄).2 copies final t) :
    Course h f p (b :: rest) s₁ (p.above f b ++ (p.atBinding b).beside f b ++ copies) final t

theorem replayBindings_course {f : Frame} {bindings : List Binding} {p : Progress}
    {s t : FillState} {final : Size}
    (hr : exec (replayBindings h f p bindings) s = (.ok final, t)) :
    ∃ copies, Course h f p bindings s copies final t := by
  induction bindings generalizing p s with
  | nil =>
    obtain ⟨_, u, hu, hr⟩ := bind_eq_ok.1 hr
    cases hr
    exact ⟨_, .nil hu⟩
  | cons b rest ih =>
    obtain ⟨command, start, size, areas⟩ := b
    rw [replayBindings] at hr
    obtain ⟨_, s₂, habove, hr⟩ := bind_eq_ok.1 hr
    obtain ⟨_, s₃, hbeside, hr⟩ := bind_eq_ok.1 hr
    obtain ⟨filled, s₄, hrun, hr⟩ := bind_eq_ok.1 hr
    obtain ⟨_, s₅, hlog, hr⟩ := bind_eq_ok.1 hr
    cases hlog
    obtain ⟨copies, hc⟩ := ih hr
    exact ⟨_, .cons habove hbeside (mapFailure_eq_ok.1 hrun) hc⟩

theorem below_begin (f : Frame) :
    (Progress.begin f).below f = f.rows f.start.row f.size.height 0 fun _ => false := by
  rw [Progress.below, Progress.begin, Int.add_comm, Int.add_sub_cancel]

theorem replay_course {a : Area} {target : CellRef} {s t : FillState} {final : Size}
    (hh : 0 ≤ a.size.height) (hr : exec (a.replay h target) s = (.ok final, t)) :
    ∃ copies, Course h ⟨a.start, a.size, a.listeners, target⟩
      (.begin ⟨a.start, a.size, a.listeners, target⟩) a.bindings s copies final t := by
  obtain ⟨start, size, bindings, listeners, bound⟩ := a
  rw [replay] at hr
  split at hr
  · cases hr
  cases bindings with
  | nil =>
    obtain ⟨_, u, hu, hr⟩ := bind_eq_ok.1 hr
    cases hr
    have hrows : start.row + final.height - start.row = final.height := by omega
    have hbelow := below_begin ⟨start, final, listeners, target⟩
    have hfinish : Progress.finish ⟨start, final, listeners, target⟩
        (.begin ⟨start, final, listeners, target⟩) = final := by
      simp only [Progress.finish, Progress.begin, hrows, Int.zero_add]
      rw [Int.max_eq_right hh]
    rw [← hbelow] at hu
    have hc := Course.nil hu
    rw [hfinish] at hc
    exact ⟨_, hc⟩
  | cons b rest => exact replayBindings_course hr

end Area

namespace Frame

theorem count_rows (f : Frame) (first count down : Int) (skip : Int → Bool) {r : CellRef}
    (hs : r.sheet = f.start.sheet) (hl : f.start.col ≤ r.col)
    (hr : r.col < f.start.col + f.size.width) :
    ((f.rows first count down skip).map CellCopy.origin).count r =
      if first ≤ r.row ∧ r.row < first + count ∧ skip (r.col - f.start.col) = false then 1
      else 0 := by
  have hmem : r ∈ (f.rows first count down skip).map CellCopy.origin ↔
      first ≤ r.row ∧ r.row < first + count ∧ skip (r.col - f.start.col) = false := by
    rw [List.mem_map]
    constructor
    · rintro ⟨c, hc, rfl⟩
      obtain ⟨i, j, hi, hj, hskip, rfl⟩ := mem_rows.1 hc
      refine ⟨by simp only; omega, by simp only; omega, ?_⟩
      rwa [show f.start.col + (j : Int) - f.start.col = j by omega]
    · rintro ⟨htop, hbottom, hskip⟩
      have hrow : first + ((r.row - first).toNat : Int) = r.row := by omega
      have hcol : ((r.col - f.start.col).toNat : Int) = r.col - f.start.col := by omega
      refine ⟨_, mem_rows.2 ⟨(r.row - first).toNat, (r.col - f.start.col).toNat, by omega,
        by omega, by rwa [hcol], rfl⟩, ?_⟩
      rw [hrow, hcol, ← hs]
      cases r
      simp only [CellRef.mk.injEq, true_and]
      omega
  split
  · next h => exact List.count_eq_one_of_mem (f.nodup_rows _ _ _ _) (hmem.2 h)
  · next h => exact List.count_eq_zero.2 fun hr => h (hmem.1 hr)

end Frame

namespace Progress

variable {f : Frame} {r : CellRef}

theorem count_above (p : Progress) (b : Binding) (hs : r.sheet = f.start.sheet)
    (hl : f.start.col ≤ r.col) (hr : r.col < f.start.col + f.size.width) :
    ((p.above f b).map CellCopy.origin).count r =
      if p.next ≤ r.row ∧ r.row < b.start.row then 1 else 0 := by
  rw [above, Frame.count_rows _ _ _ _ _ hs hl hr]
  refine if_congr ?_ rfl rfl
  simp only [and_true]
  omega

theorem count_beside (p : Progress) (b : Binding) (hs : r.sheet = f.start.sheet)
    (hl : f.start.col ≤ r.col) (hr : r.col < f.start.col + f.size.width) :
    ((p.beside f b).map CellCopy.origin).count r =
      if (b.start.row ≤ r.row ∧ r.row < b.start.row + b.size.height) ∧
        (r.col < b.start.col ∨ b.start.col + b.size.width ≤ r.col) then 1
      else 0 := by
  rw [beside, Frame.count_rows _ _ _ _ _ hs hl hr]
  refine if_congr ?_ rfl rfl
  rw [Bool.and_eq_false_iff, decide_eq_false_iff_not, decide_eq_false_iff_not]
  simp only [left, right]
  omega

theorem count_below (p : Progress) (hs : r.sheet = f.start.sheet) (hl : f.start.col ≤ r.col)
    (hr : r.col < f.start.col + f.size.width) :
    ((p.below f).map CellCopy.origin).count r =
      if p.next ≤ r.row ∧ r.row < f.start.row + f.size.height then 1 else 0 := by
  rw [below, Frame.count_rows _ _ _ _ _ hs hl hr]
  refine if_congr ?_ rfl rfl
  simp only [and_true]
  omega

end Progress

namespace Area

/-- Bindings as they stand in an area: rectangles within it that have no cell in common, by row and
column. -/
structure Arranged (a : Area) : Prop where
  width : 0 < a.size.width
  height : 0 < a.size.height
  positive : ∀ b ∈ a.bindings, 0 < b.size.width ∧ 0 < b.size.height
  inside : ∀ b ∈ a.bindings, ∀ r, b.Covers r → a.contains r = true
  sorted : a.bindings.Pairwise fun b c => before b c = true
  disjoint : a.bindings.Pairwise fun b c => ∀ r, b.Covers r → ¬ c.Covers r

/-- Every cell of the area that no binding covers is copied once, and no other cell is. -/
def CopiesUncovered (a : Area) (copies : List CellCopy) : Prop :=
  ∀ r, a.contains r = true → (copies.map CellCopy.origin).count r =
    if ∃ b ∈ a.bindings, b.Covers r then 0 else 1

variable {h : FillHost} {f : Frame}

theorem Course.mem_of_beside {p : Progress} {bindings : List Binding} {s t : FillState}
    {copies : List CellCopy} {final : Size} (hc : Course h f p bindings s copies final t)
    {b : Binding} (hb : b ∈ bindings) {r : CellRef} (hs : r.sheet = f.start.sheet)
    (hl : f.start.col ≤ r.col) (hr : r.col < f.start.col + f.size.width)
    (htop : b.start.row ≤ r.row) (hbottom : r.row < b.start.row + b.size.height)
    (hcol : r.col < b.start.col ∨ b.start.col + b.size.width ≤ r.col) :
    0 < (copies.map CellCopy.origin).count r := by
  induction hc with
  | nil => exact absurd hb List.not_mem_nil
  | @cons p c rest _ _ _ _ _ filled _ copies above beside run tail ih =>
    simp only [List.map_append, List.count_append]
    rcases List.mem_cons.1 hb with rfl | hb
    · rw [Progress.count_beside _ b hs hl hr, if_pos ⟨⟨htop, hbottom⟩, hcol⟩]
      omega
    · have := ih hb
      omega

theorem Course.count_eq {p : Progress} {bindings : List Binding} {s t : FillState}
    {copies : List CellCopy} {final : Size} (hc : Course h f p bindings s copies final t)
    (hnext : ∀ b ∈ bindings, p.next ≤ b.start.row)
    (hend : p.next ≤ f.start.row + f.size.height)
    (hin : ∀ b ∈ bindings, 0 < b.size.height ∧ b.start.sheet = f.start.sheet ∧
      b.start.row + b.size.height ≤ f.start.row + f.size.height)
    (hapart : bindings.Pairwise fun b c => b.start.row + b.size.height ≤ c.start.row)
    {r : CellRef} (hs : r.sheet = f.start.sheet) (hl : f.start.col ≤ r.col)
    (hr : r.col < f.start.col + f.size.width) :
    (copies.map CellCopy.origin).count r =
      if p.next ≤ r.row ∧ r.row < f.start.row + f.size.height ∧ ∀ b ∈ bindings, ¬ b.Covers r then 1
      else 0 := by
  induction hc with
  | @nil p _ _ _ =>
    rw [Progress.count_below p hs hl hr]
    simp only [List.not_mem_nil, false_implies, implies_true, and_true]
  | @cons p b rest _ _ _ _ _ filled _ copies above beside run tail ih =>
    obtain ⟨hpos, hsheet, hbottom⟩ := hin b List.mem_cons_self
    have hb := hnext b List.mem_cons_self
    obtain ⟨hfirst, hapart⟩ := List.pairwise_cons.1 hapart
    have ih := ih hfirst hbottom (fun c hc => hin c (List.mem_cons_of_mem _ hc)) hapart
    have hrest : ∀ c ∈ rest, r.row < b.start.row + b.size.height → ¬ c.Covers r := by
      intro c hc hrow hcover
      have := hfirst c hc
      have := hcover.top
      omega
    have hcovers : b.Covers r ↔ (b.start.row ≤ r.row ∧ r.row < b.start.row + b.size.height) ∧
        ¬ (r.col < b.start.col ∨ b.start.col + b.size.width ≤ r.col) := by
      constructor
      · rintro ⟨-, htop, hbottom, hleft, hright⟩
        exact ⟨⟨htop, hbottom⟩, by omega⟩
      · rintro ⟨⟨htop, hbottom⟩, hcol⟩
        exact ⟨hs.trans hsheet.symm, htop, hbottom, by omega, by omega⟩
    simp only [List.map_append, List.count_append, ih, List.forall_mem_cons, hcovers,
      Progress.count_above p b hs hl hr, Progress.count_beside _ b hs hl hr]
    have hafter : ((p.atBinding b).afterCommand f b filled).next = b.start.row + b.size.height := rfl
    rw [hafter]
    -- A cell that a later binding covers lies below this one.
    by_cases hfree : ∀ c ∈ rest, ¬ c.Covers r
    · simp only [eq_true hfree, and_true]
      split_ifs <;> omega
    · have hrow : b.start.row + b.size.height ≤ r.row := by
        by_contra hrow
        exact hfree fun c hc => hrest c hc (by omega)
      simp only [eq_false hfree, and_false, if_false, Nat.add_zero]
      split_ifs <;> omega

theorem Arranged.covers_start {a : Area} (ha : a.Arranged) {b : Binding} (hb : b ∈ a.bindings) :
    b.Covers b.start := by
  obtain ⟨hw, hh⟩ := ha.positive b hb
  exact ⟨rfl, Int.le_refl _, by omega, Int.le_refl _, by omega⟩

theorem Arranged.bottom_le {a : Area} (ha : a.Arranged) {b : Binding} (hb : b ∈ a.bindings) :
    b.start.row + b.size.height ≤ a.start.row + a.size.height := by
  obtain ⟨hw, hh⟩ := ha.positive b hb
  have hlast : b.Covers (b.start.offset (b.size.height - 1) 0) :=
    ⟨rfl, by simp only [CellRef.offset]; omega, by simp only [CellRef.offset]; omega,
      by simp only [CellRef.offset]; omega, by simp only [CellRef.offset]; omega⟩
  have := ((a.contains_iff _).1 (ha.inside b hb _ hlast)).bottom
  simp only [CellRef.offset] at this
  omega

variable {a : Area} {target : CellRef} {s t : FillState} {copies : List CellCopy} {final : Size}

theorem Course.rowsApart (ha : a.Arranged)
    (hc : Course h ⟨a.start, a.size, a.listeners, target⟩
      (.begin ⟨a.start, a.size, a.listeners, target⟩) a.bindings s copies final t)
    (hu : a.CopiesUncovered copies) : a.bindings.Pairwise Binding.RowsApart := by
  refine ha.disjoint.imp_of_mem fun {b c} hb hcmem hd => ?_
  by_contra hrows
  simp only [Binding.RowsApart, not_or, Int.not_le] at hrows
  obtain ⟨hbw, hbh⟩ := ha.positive b hb
  obtain ⟨hcw, hch⟩ := ha.positive c hcmem
  have hbs := (a.contains_iff _).1 (ha.inside b hb _ (ha.covers_start hb))
  have hcs := (a.contains_iff _).1 (ha.inside c hcmem _ (ha.covers_start hcmem))
  let r : CellRef := ⟨b.start.sheet, max b.start.row c.start.row, b.start.col⟩
  have hr : b.Covers r := ⟨rfl, by simp only [r]; omega, by simp only [r]; omega, Int.le_refl _,
    by simp only [r]; omega⟩
  have hcontains := ha.inside b hb r hr
  obtain ⟨hsheet, -, -, hleft, hright⟩ := (a.contains_iff r).1 hcontains
  have hbeside : r.col < c.start.col ∨ c.start.col + c.size.width ≤ r.col := by
    by_contra hcol
    refine hd r hr ⟨hsheet.trans hcs.sheet.symm, ?_, ?_, ?_, ?_⟩ <;> simp only [r] at * <;> omega
  have hcopied := hc.mem_of_beside hcmem hsheet hleft hright (by simp only [r]; omega)
    (by simp only [r]; omega) hbeside
  rw [hu r hcontains, if_pos ⟨b, hb, hr⟩] at hcopied
  exact Nat.lt_irrefl _ hcopied

theorem Course.copiesUncovered (ha : a.Arranged)
    (hc : Course h ⟨a.start, a.size, a.listeners, target⟩
      (.begin ⟨a.start, a.size, a.listeners, target⟩) a.bindings s copies final t)
    (hrows : a.bindings.Pairwise Binding.RowsApart) : a.CopiesUncovered copies := by
  have hstart : ∀ b ∈ a.bindings, a.size.Holds a.start b.start := fun b hb =>
    (a.contains_iff _).1 (ha.inside b hb _ (ha.covers_start hb))
  have horder : a.bindings.Pairwise fun b c => b.start.row + b.size.height ≤ c.start.row := by
    refine (hrows.and ha.sorted).imp_of_mem fun {b c} hb hcmem h => ?_
    obtain ⟨happart, hbefore⟩ := h
    have hb := ha.positive b hb
    have hc := ha.positive c hcmem
    simp only [before, Bool.or_eq_true, Bool.and_eq_true, decide_eq_true_eq, beq_iff_eq] at hbefore
    rcases happart with h | h <;> omega
  intro r hr
  obtain ⟨hsheet, htop, hbottom, hleft, hright⟩ := (a.contains_iff r).1 hr
  have hcount := hc.count_eq (fun b hb => (hstart b hb).top)
    (by have := ha.height; simp only [Progress.begin]; omega)
    (fun b hb => ⟨(ha.positive b hb).2, (hstart b hb).sheet, ha.bottom_le hb⟩) horder hsheet hleft
    hright
  rw [hcount]
  have hiff : (∃ b ∈ a.bindings, b.Covers r) ↔ ¬ ∀ b ∈ a.bindings, ¬ b.Covers r := by
    simp only [not_forall, not_not, exists_prop]
  by_cases hfree : ∀ b ∈ a.bindings, ¬ b.Covers r
  · rw [if_pos ⟨htop, hbottom, hfree⟩, if_neg (fun h => hiff.1 h hfree)]
  · rw [if_neg (fun h => hfree h.2.2), if_pos (hiff.2 hfree)]

theorem copyCell_journal (hq : h.Quiet) {listeners : List Nat} (hp : Permits h listeners)
    {c : CellCopy} (hr : exec (copyCell h listeners c) s = (.ok (), t)) :
    t.journal = c.write :: s.journal := by
  obtain ⟨_, s₁, h₁, hr⟩ := bind_eq_ok.1 hr
  cases h₁
  obtain ⟨allowed, s₂, h₂, hr⟩ := bind_eq_ok.1 hr
  rw [isAllowed_eq_true hp h₂] at hr
  obtain ⟨_, s₃, h₃, hr⟩ := bind_eq_ok.1 hr
  have hafter : Leads (Grown fun _ => False)
      (listeners.forM fun l => h.after l c.origin c.target) :=
    leads_forM fun l _ s => grown_of_eq (hq.after l c.origin c.target s)
  have hallowed : Leads (Grown fun _ => False) (isAllowed h c listeners) := leads_isAllowed hq c _
  rw [Grown.journal_eq (hafter.apply hr), h.copy_journal h₃,
    Grown.journal_eq (hallowed.apply h₂)]
  rfl

theorem copyAll_journal (hq : h.Quiet) {f : Frame} (hp : Permits h f.listeners)
    (hr : exec (copyAll h f copies) s = (.ok (), t)) :
    t.journal = (copies.map CellCopy.write).reverse ++ s.journal := by
  induction copies generalizing s with
  | nil =>
    cases hr
    rfl
  | cons c rest ih =>
    obtain ⟨_, u, hu, hr⟩ := bind_eq_ok.1 hr
    rw [ih hr, copyCell_journal hq hp hu]
    simp

/-- A replay copies each cell that no binding covers once, and no covered cell, exactly when no two
bindings share a row. Its copies are what the transformer is asked for, unless a listener objects. -/
theorem replay_copies_uncovered_iff (h : FillHost) {a : Area} (ha : a.Arranged) {target : CellRef}
    {s t : FillState} {final : Size} (hr : exec (a.replay h target) s = (.ok final, t)) :
    (∃ copies, Course h ⟨a.start, a.size, a.listeners, target⟩
        (.begin ⟨a.start, a.size, a.listeners, target⟩) a.bindings s copies final t ∧
      (a.CopiesUncovered copies ↔ a.bindings.Pairwise Binding.RowsApart)) ∧
    (h.Quiet → Permits h a.listeners → ∀ copies u v,
      exec (copyAll h ⟨a.start, a.size, a.listeners, target⟩ copies) u = (.ok (), v) →
        v.journal = (copies.map CellCopy.write).reverse ++ u.journal) := by
  obtain ⟨copies, hc⟩ := replay_course (Int.le_of_lt ha.height) hr
  exact ⟨⟨copies, hc, hc.rowsApart ha, hc.copiesUncovered ha⟩,
    fun hq hp copies u v hv => copyAll_journal hq hp hv⟩

def oneCell (col : Int) : Binding :=
  ⟨.autoRowHeight, ⟨"S", 0, col⟩, ⟨1, 1⟩, [{ start := ⟨"S", 0, col⟩, size := ⟨1, 1⟩ }]⟩

def sideBySide : Area :=
  { start := ⟨"S", 0, 0⟩, size := ⟨3, 1⟩, bindings := [oneCell 0, oneCell 2] }

theorem sideBySide_arranged : sideBySide.Arranged where
  width := by decide
  height := by decide
  positive := by decide
  inside := by
    intro b hb r hr
    obtain ⟨hs, htop, hbottom, hleft, hright⟩ := hr
    rw [contains_iff]
    simp only [sideBySide, List.mem_cons, List.not_mem_nil, or_false] at hb
    rcases hb with rfl | rfl
    all_goals
      simp only [oneCell] at *
      exact ⟨hs, htop, hbottom, by simp only [sideBySide]; omega, by simp only [sideBySide]; omega⟩
  sorted := by decide
  disjoint := by
    refine List.pairwise_pair.2 fun r hr hr' => ?_
    have hright := hr.right
    have hleft := hr'.left
    simp only [oneCell] at *
    omega

def blank : FillState := { book := { sheets := [{ title := "S" }] }, template := ⟨[]⟩ }

theorem sideBySide_copies_covered :
    sideBySide.Arranged ∧ ∃ t copies,
      exec (sideBySide.replay {} ⟨"S", 9, 0⟩) blank = (.ok ⟨3, 2⟩, t) ∧
      Course {} ⟨sideBySide.start, sideBySide.size, sideBySide.listeners, ⟨"S", 9, 0⟩⟩
        (.begin ⟨sideBySide.start, sideBySide.size, sideBySide.listeners, ⟨"S", 9, 0⟩⟩)
        sideBySide.bindings blank copies ⟨3, 2⟩ t ∧
      ¬ sideBySide.CopiesUncovered copies := by
  have hrun := eq_ok_of_toOption (p := exec (sideBySide.replay {} ⟨"S", 9, 0⟩) blank)
    (a := ⟨3, 2⟩) (by decide +kernel)
  obtain ⟨⟨copies, hc, hiff⟩, -⟩ := replay_copies_uncovered_iff {} sideBySide_arranged hrun
  refine ⟨sideBySide_arranged, _, copies, hrun, hc, fun hu => ?_⟩
  have hrows := List.pairwise_pair.1 (hiff.1 hu)
  simp only [Binding.RowsApart, oneCell] at hrows
  omega

end Area

end SheetTemplate
