import SheetTemplate.Proofs.Area.Copying
import SheetTemplate.Proofs.Area.Course

namespace SheetTemplate

open FillM FillState

namespace EachSpec

def copyOf (e : EachSpec) (block : Size) (i : Nat) (x : CellRef) : CellRef :=
  if e.direction == right then x.offset 0 (i * block.width) else x.offset (i * block.height) 0

def roomFor (e : EachSpec) (block : Size) : Nat → Size
  | 0 => .zero
  | n + 1 => e.extend (roomFor e block n) block

variable {e : EachSpec} {block : Size}

theorem roomFor_eq (hw : 0 ≤ block.width) (hh : 0 ≤ block.height) (n : Nat) :
    e.roomFor block n =
      if e.direction == right then ⟨n * block.width, if n = 0 then 0 else block.height⟩
      else ⟨if n = 0 then 0 else block.width, n * block.height⟩ := by
  induction n with
  | zero => simp [roomFor, Size.zero]
  | succ n ih =>
    rw [roomFor, ih, extend]
    by_cases he : (e.direction == right) = true
    · simp only [he, if_true, Size.mk.injEq, Nat.succ_ne_zero, if_false]
      refine ⟨by push_cast; rw [Int.add_mul, Int.one_mul], ?_⟩
      split <;> omega
    · simp only [he, Bool.false_eq_true, if_false, Size.mk.injEq, Nat.succ_ne_zero]
      refine ⟨?_, by push_cast; rw [Int.add_mul, Int.one_mul]⟩
      split <;> omega

theorem nextTarget_roomFor (hw : 0 ≤ block.width) (hh : 0 ≤ block.height) (n : Nat) (x : CellRef) :
    e.nextTarget x (e.roomFor block n) = e.copyOf block n x := by
  rw [roomFor_eq hw hh, nextTarget, copyOf]
  split <;> rfl

theorem copyOf_sheet (i : Nat) (x : CellRef) : (e.copyOf block i x).sheet = x.sheet := by
  rw [copyOf]
  split <;> rfl

theorem stride_inj {n a b : Int} {i j : Nat} (ha : 0 ≤ a) (ha' : a < n) (hb : 0 ≤ b) (hb' : b < n)
    (h : a + i * n = b + j * n) : a = b ∧ i = j := by
  have hmod : (a + i * n) % n = (b + j * n) % n := congrArg (· % n) h
  rw [Int.add_mul_emod_self_right, Int.add_mul_emod_self_right, Int.emod_eq_of_lt ha ha',
    Int.emod_eq_of_lt hb hb'] at hmod
  subst hmod
  have hmul : (i : Int) * n = j * n := by omega
  exact ⟨rfl, by exact_mod_cast Int.eq_of_mul_eq_mul_right (by omega) hmul⟩

theorem copyOf_inj {start x y : CellRef} {i j : Nat} (hx : block.Holds start x)
    (hy : block.Holds start y) (h : e.copyOf block i x = e.copyOf block j y) : x = y ∧ i = j := by
  have hsheet : x.sheet = y.sheet := hx.sheet.trans hy.sheet.symm
  obtain ⟨-, htx, hbx, hlx, hrx⟩ := hx
  obtain ⟨-, hty, hby, hly, hry⟩ := hy
  have hrow := congrArg CellRef.row h
  have hcol := congrArg CellRef.col h
  unfold copyOf at hrow hcol
  split at hrow
  · next he =>
    rw [if_pos he, if_pos he] at hcol
    simp only [CellRef.offset] at hrow hcol
    obtain ⟨hsame, rfl⟩ := stride_inj (n := block.width) (a := x.col - start.col)
      (b := y.col - start.col) (i := i) (j := j) (by omega) (by omega) (by omega) (by omega)
      (by omega)
    exact ⟨CellRef.eq_iff.2 ⟨hsheet, by simp only [CellRef.pos, Pos.mk.injEq]; omega⟩, rfl⟩
  · next he =>
    rw [if_neg he, if_neg he] at hcol
    simp only [CellRef.offset] at hrow hcol
    obtain ⟨hsame, rfl⟩ := stride_inj (n := block.height) (a := x.row - start.row)
      (b := y.row - start.row) (i := i) (j := j) (by omega) (by omega) (by omega) (by omega)
      (by omega)
    exact ⟨CellRef.eq_iff.2 ⟨hsheet, by simp only [CellRef.pos, Pos.mk.injEq]; omega⟩, rfl⟩

end EachSpec

structure Area.Loops (root inner : Area) (e : EachSpec) : Prop where
  bindings : root.bindings = [⟨.each e, inner.start, inner.size, [inner]⟩]
  bare : inner.bindings = []
  single : e.multisheet? = none
  sheet : inner.start.sheet = root.start.sheet
  left : inner.start.col = root.start.col
  width : inner.size.width = root.size.width
  top : root.start.row ≤ inner.start.row
  bottom : inner.start.row + inner.size.height ≤ root.start.row + root.size.height
  wide : 0 < inner.size.width
  high : 0 < inner.size.height

structure FillState.Bare (title : String) (s : FillState) : Prop where
  free : ∀ r : CellRef, r.sheet = title → s.Free r
  unmerged : ∀ snapshot, s.template.sheet? title = some snapshot → snapshot.merged = []

theorem FillState.Bare.mono {title : String} {s t : FillState} (hs : s.Bare title)
    (h : Settled s t) : t.Bare title := by
  refine ⟨fun r hr => (hs.free r hr).mono h, ?_⟩
  rw [h.template]
  exact hs.unmerged

theorem FillHost.copyOver_settled {h : FillHost} {origin target : CellRef} {s t : FillState}
    (hs : ∀ snapshot, s.template.sheet? origin.sheet = some snapshot → snapshot.merged = [])
    (hr : exec (h.copyOver origin target true) s = (.ok (), t)) : Settled s t := by
  obtain ⟨c?, u, hopen, hr⟩ := bind_eq_ok.1 hr
  have hu : Settled s u := (leads_open? target).apply hopen
  cases c? with
  | none =>
    cases hr
    exact hu
  | some c =>
    obtain ⟨_, _, hget, hr⟩ := bind_eq_ok.1 hr
    cases hget
    refine trans_of Settled hu ?_
    split at hr
    · exact (leads_copyNothing _ _).apply hr
    · next info _ =>
      obtain ⟨_, v, hput, hr⟩ := bind_eq_ok.1 hr
      obtain ⟨_, w, hsizes, hr⟩ := bind_eq_ok.1 hr
      obtain ⟨_, x, hheld, hr⟩ := bind_eq_ok.1 hr
      have hv : Settled u v := (leads_putCell _ _).apply hput
      have hw : Settled v w := (leads_copySizes _ _ _).apply hsizes
      have hleads : ∀ c, Leads Settled (h.copyHeld origin target c info) := fun c =>
        h.leads_copyHeld _ _ _ _ (fun _ _ _ _ _ => settled_of_eq rfl rfl rfl)
          fun _ _ => settled_of_eq rfl rfl rfl
      have hx : Settled u x := trans_of Settled hv (trans_of Settled hw ((hleads _).apply hheld))
      obtain ⟨_, y, hblock, hr⟩ := bind_eq_ok.1 hr
      rw [copyBlock_unmerged target fun snapshot hsnapshot => hs snapshot (by
        rwa [hx.template, hu.template] at hsnapshot)] at hblock
      cases hblock
      cases hr
      refine trans_of Settled hx ?_
      exact settled_of_eq rfl rfl rfl

namespace Area

def copiesTo (a : Area) (target : CellRef) : List CellCopy :=
  Frame.rows ⟨a.start, a.size, a.listeners, target⟩ a.start.row a.size.height 0 fun _ => false

theorem mem_copiesTo {a : Area} {target : CellRef} {c : CellCopy} :
    c ∈ a.copiesTo target ↔ a.contains c.origin = true ∧
      c.target = target.offset (c.origin.row - a.start.row) (c.origin.col - a.start.col) := by
  rw [copiesTo, Frame.mem_rows, contains_iff]
  constructor
  · rintro ⟨r, col, hr, hcol, -, rfl⟩
    have hcol : (col : Int) < a.size.width := by
      have : col < a.size.width.toNat := hcol
      omega
    refine ⟨⟨rfl, ?_, ?_, ?_, ?_⟩, ?_⟩ <;>
      simp only [CellRef.offset, CellRef.mk.injEq, true_and] <;> omega
  · rintro ⟨⟨hs, ht, hb, hl, hr⟩, htarget⟩
    have hcol : (c.origin.col - a.start.col).toNat < a.size.width.toNat := by omega
    refine ⟨(c.origin.row - a.start.row).toNat, (c.origin.col - a.start.col).toNat, by omega,
      hcol, rfl, ?_⟩
    obtain ⟨⟨sheet, row, col⟩, target⟩ := c
    simp only at hs ht hb hl hr htarget
    subst hs htarget
    simp only [CellRef.offset, CellCopy.mk.injEq, CellRef.mk.injEq, true_and]
    omega

theorem mem_copiesTo_copyOf {a : Area} {e : EachSpec} {i : Nat} {c : CellCopy} :
    c ∈ a.copiesTo (e.copyOf a.size i a.start) ↔
      a.contains c.origin = true ∧ c.target = e.copyOf a.size i c.origin := by
  rw [mem_copiesTo]
  refine and_congr_right fun hin => ?_
  have hsheet := ((contains_iff _ _).1 hin).sheet
  have hplace : (e.copyOf a.size i a.start).offset (c.origin.row - a.start.row)
      (c.origin.col - a.start.col) = e.copyOf a.size i c.origin := by
    unfold EachSpec.copyOf
    split
    · simp only [CellRef.offset, hsheet, CellRef.mk.injEq, true_and]
      omega
    · simp only [CellRef.offset, hsheet, CellRef.mk.injEq, true_and]
      omega
  rw [hplace]

theorem nodup_copiesTo (a : Area) (target : CellRef) :
    ((a.copiesTo target).map CellCopy.origin).Nodup :=
  Frame.nodup_rows _ _ _ _ _

theorem replay_bare {h : FillHost} {a : Area} (ha : a.bindings = []) {target : CellRef} {size : Size}
    {s t : FillState} (hr : exec (a.replay h target) s = (.ok size, t)) :
    size = a.size ∧
      exec (copyAll h ⟨a.start, a.size, a.listeners, target⟩ (a.copiesTo target)) s = (.ok (), t) := by
  obtain ⟨start, size', bindings, listeners, bound⟩ := a
  subst ha
  rw [replay] at hr
  split at hr
  · cases hr
  obtain ⟨_, u, hu, hr⟩ := bind_eq_ok.1 hr
  cases hr
  exact ⟨rfl, hu⟩

def loopCopies (root inner : Area) (e : EachSpec) (n : Nat) : List CellCopy :=
  let f : Frame := ⟨root.start, root.size, root.listeners, root.start⟩
  f.rows root.start.row (inner.start.row - root.start.row) 0 (fun _ => false) ++
    (List.range n).flatMap (fun i => inner.copiesTo (e.copyOf inner.size i inner.start)) ++
    f.rows (inner.start.row + inner.size.height)
      (root.start.row + root.size.height - (inner.start.row + inner.size.height))
      (inner.start.row - root.start.row + (e.roomFor inner.size n).height) fun _ => false

variable {h : FillHost} {root inner : Area} {e : EachSpec} {s t : FillState} {title : String}

theorem copyAll_bare (hp : h.Passive) {f : Frame} {copies : List CellCopy} (hs : s.Bare title)
    (hcopies : ∀ c ∈ copies, c.origin.sheet = title ∧ c.target.sheet = title)
    (hr : exec (copyAll h f copies) s = (.ok (), t)) :
    Settled s t ∧ Placed h s.template copies s t := by
  refine copyAll_placed hp (fun c hc u v htemplate hover => ?_)
    (fun c hc _ => hs.free _ (hcopies c hc).2) hr
  refine FillHost.copyOver_settled (fun snapshot hsnapshot => hs.unmerged snapshot ?_) hover
  rwa [htemplate, (hcopies c hc).1] at hsnapshot

theorem sheets_of_mem_rows {f : Frame} {first count down : Int} {skip : Int → Bool} {c : CellCopy}
    (hc : c ∈ f.rows first count down skip) :
    c.origin.sheet = f.start.sheet ∧ c.target.sheet = f.target.sheet := by
  obtain ⟨r, col, -, -, -, rfl⟩ := Frame.mem_rows.1 hc
  exact ⟨rfl, rfl⟩

-- By induction on the items: after as many passes, the room that is done is that of their blocks.
theorem runItems_placed (hp : h.Passive) (hbare : inner.bindings = []) (hw : 0 ≤ inner.size.width)
    (hh : 0 ≤ inner.size.height) {items : List Value} {index : Nat} {final : Size}
    (hs : s.Bare inner.start.sheet)
    (hr : exec (e.runItems ⟨inner.start, inner.size, inner.replay h⟩ inner.start index
      (e.roomFor inner.size index) items) s = (.ok final, t)) :
    Settled s t ∧
      Placed h s.template ((List.range items.length).flatMap fun i =>
        inner.copiesTo (e.copyOf inner.size (index + i) inner.start)) s t ∧
      final = e.roomFor inner.size (index + items.length) := by
  induction items generalizing index s with
  | nil =>
    cases hr
    exact ⟨refl_of Settled _, placed_nil_of_eq rfl, rfl⟩
  | cons item rest ih =>
    obtain ⟨size, u, hbind, hr⟩ := bind_eq_ok.1 hr
    obtain ⟨v, hreplay, hu⟩ := binding_eq_ok hbind
    rw [EachSpec.nextTarget_roomFor hw hh] at hreplay
    obtain ⟨rfl, hcopies⟩ := replay_bare hbare hreplay
    let bound : FillState := { s with
      context := (Guard.open s.context e.var e.varIndex?).set s.context item (some (.int index)) }
    have hbound : Settled s bound := settled_of_eq rfl rfl rfl
    have hsheets : ∀ c ∈ inner.copiesTo (e.copyOf inner.size index inner.start),
        c.origin.sheet = inner.start.sheet ∧ c.target.sheet = inner.start.sheet := by
      intro c hc
      obtain ⟨hin, htarget⟩ := mem_copiesTo_copyOf.1 hc
      have hsheet := ((contains_iff _ _).1 hin).sheet
      exact ⟨hsheet, by rw [htarget, EachSpec.copyOf_sheet, hsheet]⟩
    obtain ⟨hsettled, hplaced⟩ := copyAll_bare hp (hs.mono hbound) hsheets hcopies
    -- Leaving the turn changes the meaning of names only.
    have hclosed : Settled v u := by
      rw [hu]
      exact settled_of_eq rfl rfl rfl
    have hpass : Settled s u := trans_of Settled hbound (trans_of Settled hsettled hclosed)
    have hfirst : Placed h s.template (inner.copiesTo (e.copyOf inner.size index inner.start)) s u := by
      rw [hu]
      exact ⟨hplaced.targets, hplaced.formulas⟩
    obtain ⟨hsettled', hplaced', hfinal⟩ := ih (hs.mono hpass) hr
    rw [hpass.template] at hplaced'
    have hnext : (fun i => inner.copiesTo (e.copyOf inner.size (index + Nat.succ i) inner.start)) =
        fun i => inner.copiesTo (e.copyOf inner.size (index + 1 + i) inner.start) := by
      funext i
      rw [show index + Nat.succ i = index + 1 + i by omega]
    refine ⟨trans_of Settled hpass hsettled', ?_, ?_⟩
    · rw [List.length_cons, List.range_succ_eq_map, List.flatMap_cons, List.flatMap_map]
      rw [hnext]
      exact hfirst.append hplaced'
    · rw [hfinal, List.length_cons, Nat.add_assoc, Nat.add_comm 1]

def Resolves (h : FillHost) (root inner : Area) (e : EachSpec) (s : FillState)
    (items : List Value) : Prop :=
  ∃ u v, exec (copyAll h ⟨root.start, root.size, root.listeners, root.start⟩
      (Frame.rows ⟨root.start, root.size, root.listeners, root.start⟩ root.start.row
        (inner.start.row - root.start.row) 0 fun _ => false)) s = (.ok (), u) ∧
    exec (e.resolve h) u = (.ok items, v)

theorem run_placed (hp : h.Passive) (hl : root.Loops inner e) {size : Size}
    (hs : s.Bare root.start.sheet)
    (hr : exec ((Command.each e).run h (inners h [inner]) inner.start) s = (.ok size, t)) :
    ∃ items u, exec (e.resolve h) s = (.ok items, u) ∧ Settled s t ∧
      Placed h s.template ((List.range items.length).flatMap fun i =>
        inner.copiesTo (e.copyOf inner.size i inner.start)) s t ∧
      size = e.roomFor inner.size items.length := by
  obtain ⟨items, u, hresolve, hr⟩ := bind_eq_ok.1 hr
  have hevaluated := (e.leads_resolve h).apply hresolve
  have hsettled : Settled s u := hevaluated.lift
  have hquiet : Placed h s.template [] s u := hevaluated.lift
  refine ⟨items, u, hresolve, ?_⟩
  cases items with
  | nil =>
    cases hr
    exact ⟨hsettled, hquiet, rfl⟩
  | cons item rest =>
    simp only [List.isEmpty_cons, Bool.false_eq_true, if_false, inners, List.head?_cons,
      hl.single] at hr
    have hbare : u.Bare inner.start.sheet := hl.sheet ▸ hs.mono hsettled
    have hr : exec (e.runItems ⟨inner.start, inner.size, inner.replay h⟩ inner.start 0
        (e.roomFor inner.size 0) (item :: rest)) u = (.ok size, t) := hr
    obtain ⟨hrun, hplaced, hsize⟩ := runItems_placed hp hl.bare (Int.le_of_lt hl.wide)
      (Int.le_of_lt hl.high) hbare hr
    rw [hsettled.template] at hplaced
    simp only [Nat.zero_add] at hplaced hsize
    exact ⟨trans_of Settled hsettled hrun, hquiet.append hplaced, hsize⟩

theorem Loops.beside_eq_nil (hl : root.Loops inner e) (p : Progress) (target : CellRef) :
    p.beside ⟨root.start, root.size, root.listeners, target⟩
      ⟨.each e, inner.start, inner.size, [inner]⟩ = [] := by
  rw [List.eq_nil_iff_forall_not_mem]
  intro c hc
  obtain ⟨r, col, -, hcol, hskip, -⟩ := Frame.mem_rows.1 hc
  have hleft := hl.left
  have hwidth := hl.width
  have hcol : (col : Int) < root.size.width := by
    have : col < root.size.width.toNat := hcol
    omega
  have hskip : (decide (inner.start.col - root.start.col ≤ (col : Int)) &&
    decide ((col : Int) < inner.start.col - root.start.col + inner.size.width)) = false := hskip
  rw [Bool.and_eq_false_iff, decide_eq_false_iff_not, decide_eq_false_iff_not] at hskip
  omega

theorem Loops.commandTarget_eq (hl : root.Loops inner e) :
    let f : Frame := ⟨root.start, root.size, root.listeners, root.start⟩
    let b : Binding := ⟨.each e, inner.start, inner.size, [inner]⟩
    ((Progress.begin f).atBinding b).commandTarget f b = inner.start := by
  have htop := hl.top
  have hleft := hl.left
  have hsheet := hl.sheet
  simp only [Progress.commandTarget, Progress.atBinding, Progress.begin, Progress.left,
    CellRef.offset]
  cases hstart : inner.start
  simp only [hstart] at htop hleft hsheet
  simp only [CellRef.mk.injEq]
  exact ⟨hsheet.symm, by omega, by omega⟩

theorem Loops.below_eq (hl : root.Loops inner e) (n : Nat) :
    let f : Frame := ⟨root.start, root.size, root.listeners, root.start⟩
    let b : Binding := ⟨.each e, inner.start, inner.size, [inner]⟩
    (((Progress.begin f).atBinding b).afterCommand f b (e.roomFor inner.size n)).below f =
      f.rows (inner.start.row + inner.size.height)
        (root.start.row + root.size.height - (inner.start.row + inner.size.height))
        (inner.start.row - root.start.row + (e.roomFor inner.size n).height) fun _ => false := by
  have htop := hl.top
  have hleft : inner.start.col - root.start.col = 0 := by
    have := hl.left
    omega
  have hdown : 0 + max 0 (inner.start.row - root.start.row) = inner.start.row - root.start.row := by
    omega
  simp only [Progress.below, Progress.afterCommand, Progress.atBinding, Progress.begin,
    Progress.left, Progress.right, hleft, hdown, hl.width, Int.zero_add, Int.lt_irrefl,
    decide_false, Bool.or_self, Bool.false_and, Bool.false_eq_true, if_false]

theorem replay_loops (hp : h.Passive) (hl : root.Loops inner e) (hs : s.Bare root.start.sheet)
    {size : Size} (hr : exec (root.replay h root.start) s = (.ok size, t)) :
    ∃ items, Resolves h root inner e s items ∧ Settled s t ∧
      Placed h s.template (root.loopCopies inner e items.length) s t := by
  have hheight : 0 ≤ root.size.height := by
    have := hl.top
    have := hl.bottom
    have := hl.high
    omega
  obtain ⟨copies, hcourse⟩ := replay_course hheight hr
  generalize hbindings : root.bindings = bindings at hcourse
  rw [hl.bindings] at hbindings
  subst hbindings
  cases hcourse with
  | @cons _ _ _ _ s₂ s₃ s₄ _ filled _ _ above beside run tail =>
  cases tail with
  | nil below =>
  rw [hl.beside_eq_nil] at beside
  cases beside
  rw [hl.commandTarget_eq] at run below
  have hrows := fun {first count down : Int} {skip : Int → Bool} (c : CellCopy)
    (hc : c ∈ Frame.rows ⟨root.start, root.size, root.listeners, root.start⟩ first count down skip) =>
      sheets_of_mem_rows hc
  obtain ⟨hsettled, hplaced⟩ := copyAll_bare hp hs hrows above
  obtain ⟨items, u, hresolve, hrun, hpasses, rfl⟩ := run_placed hp hl (hs.mono hsettled) run
  rw [hl.below_eq] at below
  have hpassed : Settled s s₄ := trans_of Settled hsettled hrun
  let line := (Command.each e).name ++ " at " ++ inner.start.label ++ " -> " ++
    (e.roomFor inner.size items.length).text
  have hlogged : Settled s (exec (log .debug "area" line) s₄).2 :=
    trans_of Settled hpassed (leads_log .debug "area" line s₄)
  have hquiet : Placed h s.template [] s₄ (exec (log .debug "area" line) s₄).2 :=
    leads_log .debug "area" line s₄
  obtain ⟨hfoot, hrest⟩ := copyAll_bare hp (hs.mono hlogged) hrows below
  rw [hsettled.template] at hpasses
  rw [hlogged.template] at hrest
  refine ⟨items, ⟨s₂, u, above, hresolve⟩, trans_of Settled hlogged hfoot, ?_⟩
  exact (hplaced.append hpasses).append (hquiet.append hrest)

end Area

end SheetTemplate
