import SheetTemplate.Proofs.Area.Course
import SheetTemplate.Proofs.Fill.Laying
import SheetTemplate.Proofs.Fill.Refilling

namespace SheetTemplate

open FillM FillState

namespace Progress

def place (f : Frame) (p : Progress) (r : CellRef) : CellRef :=
  ⟨f.target.sheet, f.target.row + p.height + (r.row - p.next), f.target.col + (r.col - f.start.col)⟩

def onRows (p : Progress) (b : Binding) : Progress := { p.atBinding b with next := b.start.row }

theorem place_begin (f : Frame) (r : CellRef) :
    (begin f).place f r = f.target.offset (r.row - f.start.row) (r.col - f.start.col) := by
  simp only [place, begin, CellRef.offset, Int.add_zero]

end Progress

theorem Frame.place_mem_rows {f : Frame} {first count down : Int} {skip : Int → Bool} {r : CellRef}
    (hsheet : r.sheet = f.start.sheet) (htop : first ≤ r.row) (hbottom : r.row < first + count)
    (hleft : f.start.col ≤ r.col) (hright : r.col < f.start.col + f.size.width)
    (hskip : skip (r.col - f.start.col) = false) :
    ⟨r, ⟨f.target.sheet, f.target.row + down + (r.row - first),
      f.target.col + (r.col - f.start.col)⟩⟩ ∈ f.rows first count down skip := by
  have hrow : ((r.row - first).toNat : Int) = r.row - first := by omega
  have hcol : ((r.col - f.start.col).toNat : Int) = r.col - f.start.col := by omega
  refine mem_rows.2 ⟨(r.row - first).toNat, (r.col - f.start.col).toNat, by omega, by omega,
    by rwa [hcol], ?_⟩
  rw [hrow, hcol, ← hsheet]
  cases r
  simp only [CellCopy.mk.injEq, CellRef.mk.injEq, true_and, and_true]
  omega

namespace Area

variable (h : FillHost)

def frame (a : Area) (target : CellRef) : Frame := ⟨a.start, a.size, a.listeners, target⟩

def MadeAmong (f : Frame) (copies : List CellCopy) (c : CellCopy) (u v s : FillState) : Prop :=
  ∃ before after, copies = before ++ c :: after ∧ exec (copyAll h f before) s = (.ok (), u) ∧
    exec (copyCell h f.listeners c) u = (.ok (), v)

/-- While a replay goes on from `s`, having come as far as `p`, the copy `c` is made from `u` to `v`.
It has come as far as `q` by then. -/
inductive Makes (f : Frame) (c : CellCopy) (u v : FillState) :
    Progress → Progress → List Binding → FillState → Prop
  | last {p : Progress} {s : FillState} (made : MadeAmong h f (p.below f) c u v s) :
    Makes f c u v p p [] s
  | above {p : Progress} {b : Binding} {rest : List Binding} {s : FillState}
    (made : MadeAmong h f (p.above f b) c u v s) : Makes f c u v p p (b :: rest) s
  | beside {p : Progress} {b : Binding} {rest : List Binding} {s s₂ : FillState}
    (above : exec (copyAll h f (p.above f b)) s = (.ok (), s₂))
    (made : MadeAmong h f ((p.atBinding b).beside f b) c u v s₂) :
    Makes f c u v (p.onRows b) p (b :: rest) s
  | later {p q : Progress} {b : Binding} {rest : List Binding} {s₁ s₂ s₃ s₄ : FillState}
    {filled : Size}
    (above : exec (copyAll h f (p.above f b)) s₁ = (.ok (), s₂))
    (beside : exec (copyAll h f ((p.atBinding b).beside f b)) s₂ = (.ok (), s₃))
    (run : exec (b.command.run h (inners h b.areas) ((p.atBinding b).commandTarget f b)) s₃ =
      (.ok filled, s₄))
    (tail : Makes f c u v q ((p.atBinding b).afterCommand f b filled) rest
      (exec (log .debug "area" (b.command.name ++ " at " ++
        ((p.atBinding b).commandTarget f b).label ++ " -> " ++ filled.text)) s₄).2) :
    Makes f c u v q p (b :: rest) s₁

def LaysCell (listeners : List Nat) (c : CellCopy) (u v : FillState) : Prop :=
  ∃ allowed w, exec (isAllowed h c listeners) { u with context := u.context.place c.target } =
      (.ok allowed, w) ∧
    (allowed = true → ∃ x, exec (h.copy c.origin c.target true) w = (.ok (), x) ∧
      h.Lays c.origin c.target w x ∧
      exec (listeners.forM fun l => h.after l c.origin c.target) x = (.ok (), v))

/-- Every cell of the area that no command covers is laid at its place, when the area is replayed
from `s`. The place is as far from the target as the cell is from the start, but for the rows by
which the commands above have grown. -/
def Appears (a : Area) (target : CellRef) (s : FillState) : Prop :=
  ∀ r, a.contains r = true → (∀ b ∈ a.bindings, ¬ b.Covers { r with sheet := b.start.sheet }) →
    ∃ q u v, Makes h (a.frame target) ⟨r, q.place (a.frame target) r⟩ u v q
        (.begin (a.frame target)) a.bindings s ∧
      LaysCell h a.listeners ⟨r, q.place (a.frame target) r⟩ u v ∧
      (a.bindings = [] → q.place (a.frame target) r =
        target.offset (r.row - a.start.row) (r.col - a.start.col))

variable {h} {f : Frame} {c : CellCopy} {copies : List CellCopy} {s t u v : FillState}

theorem copyCell_lays {listeners : List Nat}
    (hr : exec (copyCell h listeners c) u = (.ok (), v)) : LaysCell h listeners c u v := by
  obtain ⟨_, w, hplace, hr⟩ := bind_eq_ok.1 hr
  cases hplace
  obtain ⟨allowed, x, hallowed, hr⟩ := bind_eq_ok.1 hr
  refine ⟨allowed, x, hallowed, ?_⟩
  rintro rfl
  obtain ⟨_, y, hcopy, hafter⟩ := bind_eq_ok.1 hr
  exact ⟨y, hcopy, h.copy_lays hcopy, hafter⟩

theorem copyAll_makes (hc : c ∈ copies) (hr : exec (copyAll h f copies) s = (.ok (), t)) :
    ∃ u v, MadeAmong h f copies c u v s := by
  induction copies generalizing s with
  | nil => exact absurd hc List.not_mem_nil
  | cons d rest ih =>
    obtain ⟨_, w, hd, hr⟩ := bind_eq_ok.1 hr
    rcases List.mem_cons.1 hc with rfl | hc
    · exact ⟨s, w, [], rest, rfl, rfl, hd⟩
    · obtain ⟨u, v, before, after, rfl, hbefore, hcell⟩ := ih hc hr
      exact ⟨u, v, d :: before, after, rfl, bind_eq_ok.2 ⟨(), w, hd, hbefore⟩, hcell⟩

theorem MadeAmong.lays (hm : MadeAmong h f copies c u v s) : LaysCell h f.listeners c u v := by
  obtain ⟨-, -, -, -, hcell⟩ := hm
  exact copyCell_lays hcell

theorem Makes.lays {p q : Progress} {bindings : List Binding}
    (hm : Makes h f c u v q p bindings s) : LaysCell h f.listeners c u v := by
  induction hm with
  | last made => exact made.lays
  | above made => exact made.lays
  | beside above made => exact made.lays
  | later above beside run tail ih => exact ih

-- By induction on the course: a cell from the next row on lies above the binding, on its rows but
-- beside it, or below, where the replay goes on.
theorem Course.makes {p : Progress} {bindings : List Binding} {copies : List CellCopy}
    {final : Size} (hc : Course h f p bindings s copies final t) {r : CellRef}
    (hsheet : r.sheet = f.start.sheet) (htop : p.next ≤ r.row)
    (hbottom : r.row < f.start.row + f.size.height) (hleft : f.start.col ≤ r.col)
    (hright : r.col < f.start.col + f.size.width)
    (hfree : ∀ b ∈ bindings, ¬ b.Covers { r with sheet := b.start.sheet }) :
    ∃ q u v, Makes h f ⟨r, q.place f r⟩ u v q p bindings s := by
  induction hc with
  | @nil p s t below =>
    obtain ⟨u, v, hmade⟩ :=
      copyAll_makes (Frame.place_mem_rows hsheet htop (by omega) hleft hright rfl) below
    exact ⟨p, u, v, .last hmade⟩
  | @cons p b rest s₁ s₂ s₃ s₄ t filled final copies above beside run tail ih =>
    obtain ⟨hb, hrest⟩ := List.forall_mem_cons.1 hfree
    by_cases habove : r.row < b.start.row
    · obtain ⟨u, v, hmade⟩ :=
        copyAll_makes (Frame.place_mem_rows hsheet htop (by omega) hleft hright rfl) above
      exact ⟨p, u, v, .above hmade⟩
    · by_cases hrows : r.row < b.start.row + b.size.height
      · have hskip : (decide (Progress.left f b ≤ r.col - f.start.col) &&
            decide (r.col - f.start.col < Progress.right f b)) = false := by
          rw [Bool.and_eq_false_iff, decide_eq_false_iff_not, decide_eq_false_iff_not]
          by_contra hcol
          refine hb ⟨rfl, ?_, ?_, ?_, ?_⟩ <;> simp only [Progress.left, Progress.right] at * <;> omega
        obtain ⟨u, v, hmade⟩ :=
          copyAll_makes (Frame.place_mem_rows hsheet (by omega) hrows hleft hright hskip) beside
        exact ⟨p.onRows b, u, v, .beside above hmade⟩
      · obtain ⟨q, u, v, hmakes⟩ := ih (by simp only [Progress.afterCommand]; omega) hrest
        exact ⟨q, u, v, .later above beside run hmakes⟩

theorem Makes.begin {p q : Progress} (hm : Makes h f c u v q p [] s) : q = p := by
  cases hm
  rfl

theorem replay_appears {a : Area} {target : CellRef} {size : Size}
    (hr : exec (a.replay h target) s = (.ok size, t)) : Appears h a target s := by
  intro r hcontains hfree
  obtain ⟨hsheet, htop, hbottom, hleft, hright⟩ := (a.contains_iff r).1 hcontains
  obtain ⟨copies, hcourse⟩ := replay_course (by omega) hr
  obtain ⟨q, u, v, hmakes⟩ := hcourse.makes hsheet htop hbottom hleft hright hfree
  refine ⟨q, u, v, hmakes, hmakes.lays, fun hnone => ?_⟩
  rw [hnone] at hmakes
  cases hmakes.begin
  exact Progress.place_begin _ r

end Area

namespace FillOptions

variable {o : FillOptions} {s t : FillState} {roots : List Area}

theorem fillRoots_replay {earlier later : List Area} {a : Area}
    (h : exec ((earlier ++ a :: later).forM o.fillArea) s = (.ok (), t)) :
    ∃ u v w size, exec (earlier.forM o.fillArea) s = (.ok (), u) ∧
      exec (clearArea a.ref) u = (.ok (), v) ∧
      exec (a.replay o.host a.start) v = (.ok size, w) := by
  induction earlier generalizing s with
  | nil =>
    obtain ⟨_, u, hfill, -⟩ := bind_eq_ok.1 h
    obtain ⟨v, w, size, _, _, hclear, hreplay, -⟩ := fillArea_eq_ok hfill
    exact ⟨s, v, w, size, rfl, hclear, hreplay⟩
  | cons b earlier ih =>
    obtain ⟨_, x, hfirst, h⟩ := bind_eq_ok.1 h
    obtain ⟨u, v, w, size, hearlier, hclear, hreplay⟩ := ih h
    exact ⟨u, v, w, size, bind_eq_ok.2 ⟨(), x, hfirst, hearlier⟩, hclear, hreplay⟩

/-- A fill that succeeds replays every root. All copies lay their cells, and in every replay, of a
root or within a command, each cell that no command covers is copied at its place. -/
theorem process_lays_cells {name : String} {c : Context} {streams : Streams} {book : Workbook}
    (h : o.process name c streams book = (.ok (), t, some ⟨t, roots⟩)) :
    ∃ s, exec (o.build c streams) (o.opened name book) = (.ok roots, s) ∧
      (∀ earlier a later, roots = earlier ++ a :: later → ∃ u v w size,
        exec (earlier.forM o.fillArea) s = (.ok (), u) ∧
        exec (clearArea a.ref) u = (.ok (), v) ∧
        exec (a.replay o.host a.start) v = (.ok size, w)) ∧
      (∀ origin target withHeight u v,
        exec (o.host.copy origin target withHeight) u = (.ok (), v) →
          o.host.Lays origin target u v) ∧
      ∀ (a : Area) target size u v, exec (a.replay o.host target) u = (.ok size, v) →
        a.Appears o.host target u := by
  obtain ⟨s, hbuild, hfill⟩ := process_eq_ok.1 h
  obtain ⟨_, u, hroots, -⟩ := bind_eq_ok.1 hfill
  refine ⟨s, hbuild, fun earlier a later hsplit => ?_,
    fun _ _ _ _ _ hcopy => o.host.copy_lays hcopy, fun _ _ _ _ _ hreplay => Area.replay_appears hreplay⟩
  rw [hsplit] at hroots
  exact fillRoots_replay hroots

def crossing : Workbook where
  sheets :=
    (((({ title := "S" } : Sheet).setCell ⟨0, 0⟩
          { value := .text "${e}", type := .text
            comment? := some "jx:area(lastCell=\"B1\")\njx:each(items=\"items\" var=\"e\" lastCell=\"B1\")" }
        ).setCell ⟨0, 1⟩ { value := .text "x", type := .text }).merge? ⟨⟨1, 0⟩, ⟨1, 1⟩⟩).toList

def crossingData : Context := { data := [("items", .list [.int 1, .int 2])] }

def crossingFilled : FillState := (process {} "crossing" crossingData [] crossing).2.1

theorem crossing_lays_cells :
    ∃ roots s,
      process {} "crossing" crossingData [] crossing =
        (.ok (), crossingFilled, some ⟨crossingFilled, roots⟩) ∧
      exec (build {} crossingData []) (opened {} "crossing" crossing) = (.ok roots, s) ∧
      (∀ origin target withHeight u v,
        exec (({} : FillHost).copy origin target withHeight) u = (.ok (), v) →
          ({} : FillHost).Lays origin target u v) ∧
      ∀ (a : Area) target size u v, exec (a.replay {} target) u = (.ok size, v) →
        a.Appears {} target u := by
  obtain ⟨roots, hprocess⟩ := process_of_toOption
    (show (process {} "crossing" crossingData [] crossing).1.toOption = some () by decide +kernel)
  obtain ⟨s, hbuild, -, hcopies, hreplays⟩ := process_lays_cells hprocess
  exact ⟨roots, s, hprocess, hbuild, hcopies, hreplays⟩

theorem crossing_loses_cell :
    (∃ roots, process {} "crossing" crossingData [] crossing =
      (.ok (), crossingFilled, some ⟨crossingFilled, roots⟩)) ∧
    (crossingFilled.journal.filterMap fun w =>
      match w with
      | .copy origin target => some (origin, target)
      | _ => none) =
        [(⟨"S", 0, 1⟩, ⟨"S", 1, 1⟩), (⟨"S", 0, 0⟩, ⟨"S", 1, 0⟩), (⟨"S", 0, 1⟩, ⟨"S", 0, 1⟩),
          (⟨"S", 0, 0⟩, ⟨"S", 0, 0⟩)] ∧
    (crossingFilled.template.cell? ⟨"S", 0, 1⟩).map (fun i => i.value.text?) = some (some "x") ∧
    (crossingFilled.sheet? "S").isSome = true ∧
    crossingFilled.history.targets ⟨"S", 0, 1⟩ = [⟨"S", 0, 1⟩] ∧
    (crossingFilled.book.content ⟨"S", 1, 1⟩).value.text? = none := by
  refine ⟨process_of_toOption (by decide +kernel), ?_, ?_, ?_, ?_, ?_⟩
  all_goals decide +kernel

end FillOptions

end SheetTemplate
