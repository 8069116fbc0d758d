import SheetTemplate.Proofs.Area.Copying
import SheetTemplate.Proofs.Command.Items
import SheetTemplate.Proofs.Formula.Naming

namespace SheetTemplate

open FillM FillState

structure RepeatedBlock where
  start : CellRef
  width : Nat
  head : Nat
  body : Nat
  foot : Nat
  each : EachSpec

namespace RepeatedBlock

variable (b : RepeatedBlock)

def first : CellRef := b.start.offset b.head 0

def inner : Area := { start := b.first, size := ⟨b.width, b.body⟩ }

def root : Area where
  start := b.start
  size := ⟨b.width, b.head + b.body + b.foot⟩
  bindings :=
    [{ command := .each b.each, start := b.first, size := ⟨b.width, b.body⟩, areas := [b.inner] }]

def filled (n : Nat) : Size := ⟨b.width, b.head + n * b.body + b.foot⟩

structure Regular (b : RepeatedBlock) : Prop where
  width : 0 < b.width
  body : 0 < b.body
  down : b.each.direction ≠ EachSpec.right
  single : b.each.multisheet? = none

structure Room (b : RepeatedBlock) (rows : Nat) : Prop where
  top : 0 ≤ b.start.row
  left : 0 ≤ b.start.col
  bottom : b.start.row + rows ≤ Block.lastRow + 1
  right : b.start.col + b.width ≤ Column.last + 1

def rows (origin count target : Nat) : List CellCopy :=
  (List.range count).flatMap fun (r : Nat) => (List.range b.width).map fun (c : Nat) =>
    ⟨b.start.offset (origin + r : Nat) c, b.start.offset (target + r : Nat) c⟩

def headCopies : List CellCopy := b.rows 0 b.head 0

def itemCopies (i : Nat) : List CellCopy := b.rows b.head b.body (b.head + i * b.body)

def footCopies (n : Nat) : List CellCopy := b.rows (b.head + b.body) b.foot (b.head + n * b.body)

section Rehearsal

variable (h : FillHost) (T : Template)

def rehearseItems (names : Meaning) (index : Nat) : List Value → EvalM (List Piece)
  | [] => return []
  | item :: rest => do
    let pass ← h.renderAll T (names.item b.each item (some (.int index))) (b.itemCopies index)
    let passes ← rehearseItems names (index + 1) rest
    return pass ++ passes

def rehearse (names : Meaning) : EvalM (List Value × List Piece) := do
  let header ← h.renderAll T names b.headCopies
  let items ← b.each.resolveIn h (names.after b.headCopies)
  let passes ← rehearseItems b h T names 0 items
  let footer ← h.renderAll T names (b.footCopies items.length)
  return (items, header ++ passes ++ footer)

end Rehearsal

variable {b} {h : FillHost} {T : Template} {s t u : FillState} {st st' : Streams}
  {ps qs : List Piece} {lo mid hi : Nat}

theorem Room.mono {m n : Nat} (hb : b.Room n) (hmn : m ≤ n) : b.Room m := by
  obtain ⟨htop, hleft, hbottom, hright⟩ := hb
  exact ⟨htop, hleft, by omega, hright⟩

theorem mem_rows {origin count target : Nat} {c : CellCopy} :
    c ∈ b.rows origin count target ↔ ∃ r < count, ∃ col < b.width,
      c = ⟨b.start.offset (origin + r : Nat) col, b.start.offset (target + r : Nat) col⟩ := by
  simp only [rows, List.mem_flatMap, List.mem_map, List.mem_range, eq_comm (a := c)]

theorem nodup_rows (origin count target : Nat) :
    ((b.rows origin count target).map CellCopy.target).Nodup := by
  simp only [rows, List.map_flatMap, List.map_map]
  refine List.nodup_flatMap.2 ⟨fun r _ => ?_, ?_⟩
  · refine List.nodup_range.map_on fun c _ d _ hcd => ?_
    simp only [Function.comp_apply, CellRef.offset, CellRef.mk.injEq] at hcd
    omega
  · refine List.nodup_range.imp fun {q r} hqr => ?_
    simp only [Function.onFun, List.disjoint_left, List.mem_map, Function.comp_apply]
    rintro x ⟨c, -, rfl⟩ ⟨d, -, hd⟩
    simp only [CellRef.offset, CellRef.mk.injEq] at hd
    omega

theorem rows_eq {f : Frame} {first count down : Int} {origin n target : Nat}
    (hwidth : f.size.width = b.width)
    (hstart : f.start.sheet = b.start.sheet ∧ f.start.col = b.start.col)
    (htarget : f.target.sheet = b.start.sheet ∧ f.target.col = b.start.col)
    (hfirst : first = b.start.row + origin) (hcount : count = n)
    (hdown : f.target.row + down = b.start.row + target) :
    f.rows first count down (fun _ => false) = b.rows origin n target := by
  have hall : ∀ l : List Nat, l.filter (fun _ => !false) = l := fun l => List.filter_true l
  simp only [Frame.rows, rows, hall, hwidth, hstart, htarget, hcount, Int.toNat_natCast]
  congr 1
  funext r
  congr 1
  funext c
  have horigin : b.start.row + origin + r = b.start.row + (origin + r : Nat) := by omega
  have hplace : b.start.row + target + r = b.start.row + (target + r : Nat) := by omega
  simp only [CellRef.offset, horigin, hfirst, hdown, hplace]

theorem fits_of_mem_rows {origin count target : Nat} (hb : b.Room (target + count)) {c : CellCopy}
    (hc : c ∈ b.rows origin count target) : c.Fits b.start.sheet := by
  obtain ⟨r, hr, col, hcol, rfl⟩ := mem_rows.1 hc
  obtain ⟨htop, hleft, hbottom, hright⟩ := hb
  refine ⟨rfl, rfl, ?_, ?_⟩
  · simp only [Sheet.admits, Bool.and_eq_true, decide_eq_true_eq]
    simp only [CellRef.pos, CellRef.offset]
    omega
  · rw [Column.name_eq (by simp only [CellRef.offset]; omega) (by simp only [CellRef.offset]; omega)]
    rfl

def Fresh (b : RepeatedBlock) (row : Nat) (s : FillState) : Prop :=
  ∀ x y : CellRef, b.start.row + row ≤ y.row → (s.history.of x).formulas.lookup y = none

structure Stretch (b : RepeatedBlock) (T : Template) (lo hi : Nat) (ps : List Piece) (st : Streams)
    (s t : FillState) : Prop where
  copied : Copied T ps st s t
  spans : ∀ p ∈ ps, b.start.row + lo ≤ p.1.target.row ∧ p.1.target.row < b.start.row + hi

theorem Stretch.append (hst : b.Stretch T lo mid ps st s t) (htu : b.Stretch T mid hi qs st' t u)
    (hlo : lo ≤ mid) (hhi : mid ≤ hi) : b.Stretch T lo hi (ps ++ qs) st' s u := by
  refine ⟨hst.copied.append htu.copied fun p hp q hq heq => ?_, fun p hp => ?_⟩
  · have hlt := (hst.spans p hp).2
    have hge := (htu.spans q hq).1
    rw [heq] at hge
    omega
  · rcases List.mem_append.1 hp with hp | hp
    · have := hst.spans p hp
      omega
    · have := htu.spans p hp
      omega

theorem Stretch.fresh (hst : b.Stretch T lo hi ps st s t) (hs : b.Fresh lo s) (hle : lo ≤ hi) :
    b.Fresh hi t := by
  intro x y hy
  rw [hst.copied.laid.lookups, hs x y (by omega)]
  rintro p hp rfl
  have := hst.spans p hp
  omega

theorem Stretch.open (hst : b.Stretch T lo hi ps st s t) (hs : s.Open T b.start.sheet) :
    t.Open T b.start.sheet :=
  hs.mono hst.copied.settled hst.copied.sound

theorem copyRows {f : Frame} (hf : f.listeners = []) (origin : Nat) {count target : Nat}
    (hs : s.Open T b.start.sheet) (hfresh : b.Fresh target s) (hroom : b.Room (target + count))
    (hrender : (h.renderAll T s.context.get? (b.rows origin count target)).run s.streams =
      (.ok ps, st)) :
    ∃ t, exec (Area.copyAll h f (b.rows origin count target)) s = (.ok (), t) ∧
      b.Stretch T target (target + count) ps st s t ∧
      t.context.get? = Meaning.after s.context.get? (b.rows origin count target) := by
  have hspans : ∀ c ∈ b.rows origin count target,
      b.start.row + target ≤ c.target.row ∧ c.target.row < b.start.row + (target + count : Nat) := by
    intro c hc
    obtain ⟨r, hr, col, -, rfl⟩ := mem_rows.1 hc
    simp only [CellRef.offset]
    omega
  obtain ⟨t, ht, hcopied, hnames⟩ := Area.copyAll_laid hf hs
    (fun c hc => fits_of_mem_rows hroom hc) (nodup_rows _ _ _)
    (fun c hc => hfresh _ _ (hspans c hc).1) hrender
  refine ⟨t, ht, ⟨hcopied, fun p hp => ?_⟩, hnames⟩
  have hmem : p.1 ∈ ps.map (·.1) := List.mem_map_of_mem hp
  rw [FillHost.renderAll_eq_ok hrender] at hmem
  exact hspans p.1 hmem

theorem replayPass {item : Value} {i : Nat} (hs : s.Open T b.start.sheet)
    (hfresh : b.Fresh (b.head + i * b.body) s) (hroom : b.Room (b.head + i * b.body + b.body))
    (hrender : (h.renderAll T (Meaning.item s.context.get? b.each item (some (.int i)))
      (b.itemCopies i)).run s.streams = (.ok ps, st)) :
    ∃ t, exec (FillM.binding b.each.var b.each.varIndex? item (some (.int i))
        (b.inner.replay h (b.start.offset (b.head + i * b.body : Nat) 0))) s =
          (.ok ⟨b.width, b.body⟩, t) ∧
      b.Stretch T (b.head + i * b.body) (b.head + i * b.body + b.body) ps st s t := by
  let guard := Guard.open s.context b.each.var b.each.varIndex?
  let u := { s with context := guard.set s.context item (some (.int i)) }
  have hu : u.Open T b.start.sheet :=
    hs.mono (settled_of_eq rfl rfl rfl) (Guard.sound_set b.each item _ hs.context)
  have hnames : u.context.get? = Meaning.item s.context.get? b.each item (some (.int i)) :=
    Guard.get?_set b.each item _
  let f : Frame := ⟨b.first, ⟨b.width, b.body⟩, [], b.start.offset (b.head + i * b.body : Nat) 0⟩
  have hrows : f.rows b.first.row b.body 0 (fun _ => false) = b.itemCopies i := by
    refine rows_eq rfl ⟨rfl, ?_⟩ ⟨rfl, ?_⟩ rfl rfl ?_
    · simp only [f, first, CellRef.offset, Int.add_zero]
    · simp only [f, CellRef.offset, Int.add_zero]
    · simp only [f, CellRef.offset, Int.add_zero]
  obtain ⟨t, ht, ⟨hcopied, hspans⟩, -⟩ := copyRows (f := f) rfl b.head hu hfresh hroom
    (by rw [hnames]; exact hrender)
  refine ⟨{ t with context := (guard.close t.context).2 }, ?_, ⟨?_, hspans⟩⟩
  · have hreplay : exec (b.inner.replay h (b.start.offset (b.head + i * b.body : Nat) 0)) u =
        (.ok ⟨b.width, b.body⟩, t) := by
      have hcopies : exec (Area.copyAll h f (f.rows b.first.row b.body 0 fun _ => false)) u =
          (.ok (), t) := by
        rw [hrows]
        exact ht
      rw [inner, Area.replay]
      exact bind_eq_ok.2 ⟨_, _, hcopies, rfl⟩
    rw [exec_binding]
    exact congrArg (fun r => (r.1, { r.2 with context := (guard.close r.2.context).2 })) hreplay
  · exact hcopied.close (Guard.sound_close hcopied.sound _)
      (Guard.near_close b.each item _ hcopied.near)

theorem extend_pass (hb : b.Regular) {done : Size} {i : Nat} (hheight : done.height = i * b.body)
    (hwidth : done.width ≤ b.width) :
    (b.each.extend done ⟨b.width, b.body⟩).height = (i + 1 : Nat) * b.body ∧
      (b.each.extend done ⟨b.width, b.body⟩).width ≤ b.width := by
  have hdown : (b.each.direction == EachSpec.right) = false := beq_false_of_ne hb.down
  simp only [EachSpec.extend, hdown, Bool.false_eq_true, if_false]
  rw [hheight, Int.natCast_add, Int.add_mul]
  omega

theorem nextTarget_pass (hb : b.Regular) {done : Size} {i : Nat}
    (hheight : done.height = i * b.body) :
    b.each.nextTarget b.first done = b.start.offset (b.head + i * b.body : Nat) 0 := by
  have hdown : (b.each.direction == EachSpec.right) = false := beq_false_of_ne hb.down
  simp only [EachSpec.nextTarget, hdown, Bool.false_eq_true, if_false, hheight, first,
    CellRef.offset, CellRef.mk.injEq, true_and]
  rw [Int.natCast_add, Int.natCast_mul]
  omega

theorem runItems_stretch (hb : b.Regular) {names : Meaning} {items : List Value} {i : Nat}
    {done : Size} (hheight : done.height = i * b.body) (hwidth : done.width ≤ b.width)
    (hs : s.Open T b.start.sheet) (hnames : Meaning.Near names s.context.get?)
    (hfresh : b.Fresh (b.head + i * b.body) s)
    (hroom : b.Room (b.head + (i + items.length) * b.body))
    (hrehearse : (b.rehearseItems h T names i items).run s.streams = (.ok ps, st)) :
    ∃ size t, exec (b.each.runItems ⟨b.inner.start, b.inner.size, b.inner.replay h⟩ b.first i done
        items) s = (.ok size, t) ∧
      size.height = (i + items.length : Nat) * b.body ∧ size.width ≤ b.width ∧
      b.Stretch T (b.head + i * b.body) (b.head + (i + items.length) * b.body) ps st s t := by
  induction items generalizing i done s ps with
  | nil =>
    cases hrehearse
    refine ⟨done, s, rfl, hheight, hwidth, ?_, fun p hp => absurd hp List.not_mem_nil⟩
    exact ⟨refl_of Settled s, laid_nil T s, rfl, hs.context, .refl _⟩
  | cons item rest ih =>
    obtain ⟨pass, st₁, hpass, hrehearse⟩ := EvalM.bind_eq_ok.1 hrehearse
    obtain ⟨passes, st₂, hpasses, hsame⟩ := EvalM.bind_eq_ok.1 hrehearse
    cases hsame
    have hlength : i + (item :: rest).length = i + 1 + rest.length := by
      rw [List.length_cons]
      omega
    have hnext : b.head + i * b.body + b.body = b.head + (i + 1) * b.body := by
      rw [Nat.add_mul]
      omega
    have hle : b.head + (i + 1) * b.body ≤ b.head + (i + 1 + rest.length) * b.body :=
      Nat.add_le_add_left (Nat.mul_le_mul_right _ (Nat.le_add_right _ _)) _
    rw [hlength] at hroom ⊢
    obtain ⟨t, ht, hst⟩ := replayPass (i := i) hs hfresh (hroom.mono (hnext ▸ hle))
      (by rw [FillHost.renderAll_congr (hnames.item _ _ _)]; exact hpass)
    rw [hnext] at hst
    obtain ⟨hheight', hwidth'⟩ := extend_pass hb hheight hwidth
    obtain ⟨size, u, hu, hsize, hsmall, htu⟩ := ih hheight' hwidth' (hst.open hs)
      (hnames.trans hst.copied.near.get?) (hst.fresh hfresh (by omega)) hroom
      (by rw [hst.copied.streams]; exact hpasses)
    refine ⟨size, u, ?_, hsize, hsmall, hst.append htu (by omega) hle⟩
    rw [EachSpec.runItems, nextTarget_pass hb hheight]
    exact bind_eq_ok.2 ⟨_, _, ht, hu⟩

theorem stretch_of_asked (hs : s.Asked st t) : b.Stretch T lo lo [] st s t := by
  have heq := hs.evaluated
  rw [Evaluated] at heq
  have hbook : t.book = s.book := by rw [heq]
  have hhistory : t.history = s.history := by rw [heq]
  refine ⟨⟨hs.evaluated.lift, ?_, hs.streams, hs.sound, hs.near⟩, fun p hp => nomatch hp⟩
  refine ⟨fun _ h => (nomatch h), fun _ _ => by rw [hbook], fun x => ?_, fun _ h => (nomatch h),
    fun _ _ _ => by rw [hhistory]⟩
  rw [hhistory, List.filter_nil, List.map_nil, List.append_nil]

theorem run_stretch (hb : b.Regular) {names : Meaning} {items : List Value}
    (hs : s.Open T b.start.sheet) (hnames : Meaning.Near names s.context.get?)
    (hfresh : b.Fresh b.head s) (hroom : b.Room (b.head + items.length * b.body))
    (hitems : (b.each.resolveIn h s.context.get?).run s.streams = (.ok items, st))
    (hrehearse : (b.rehearseItems h T names 0 items).run st = (.ok ps, st')) :
    ∃ size t, exec (b.each.run h (some ⟨b.inner.start, b.inner.size, b.inner.replay h⟩) b.first) s =
        (.ok size, t) ∧
      size.height = items.length * b.body ∧ size.width ≤ b.width ∧
      b.Stretch T b.head (b.head + items.length * b.body) ps st' s t := by
  obtain ⟨u, hu, hasked⟩ := EachSpec.resolve_ok hs.context hitems
  have hsu : b.Stretch T b.head b.head [] st s u := stretch_of_asked hasked
  have hstart : b.head + 0 * b.body = b.head := by omega
  have hend : b.head + (0 + items.length) * b.body = b.head + items.length * b.body := by
    rw [Nat.zero_add]
  have hzero : Size.zero.height = (0 : Nat) * b.body ∧ Size.zero.width ≤ b.width := by
    simp [Size.zero]
  obtain ⟨size, t, ht, hheight, hwidth, hut⟩ := runItems_stretch hb hzero.1 hzero.2 (hsu.open hs)
    (hnames.trans hasked.near.get?) (by rw [hstart]; exact hsu.fresh hfresh (Nat.le_refl _))
    (by rw [hend]; exact hroom) (by rw [hasked.streams]; exact hrehearse)
  rw [hstart, hend] at hut
  refine ⟨size, t, bind_eq_ok.2 ⟨items, u, hu, ?_⟩, ?_, hwidth,
    hsu.append hut (Nat.le_refl _) (Nat.le_add_right _ _)⟩
  · cases items with
    | nil => exact ht
    | cons item rest =>
      simp only [List.isEmpty_cons, Bool.false_eq_true, if_false, hb.single]
      exact ht
  · rw [hheight, Nat.zero_add]

def frame (b : RepeatedBlock) : Frame := ⟨b.start, b.root.size, [], b.start⟩

def loop (b : RepeatedBlock) : Binding := ⟨.each b.each, b.first, ⟨b.width, b.body⟩, []⟩

def reached (b : RepeatedBlock) : Progress := (Progress.begin b.frame).atBinding b.loop

def passed (b : RepeatedBlock) (n : Nat) : Progress :=
  ⟨b.first.row + b.body, b.head + n * b.body, b.width⟩

section Course

variable (b)

theorem left_loop : Progress.left b.frame b.loop = 0 := by
  simp only [Progress.left, frame, loop, first, CellRef.offset]
  omega

theorem right_loop : Progress.right b.frame b.loop = b.width := by
  rw [Progress.right, left_loop, Int.zero_add]
  rfl

theorem height_reached : b.reached.height = b.head := by
  simp only [reached, Progress.atBinding, Progress.begin, frame, loop, first, CellRef.offset]
  omega

theorem above_loop : (Progress.begin b.frame).above b.frame b.loop = b.headCopies := by
  apply rows_eq rfl ⟨rfl, rfl⟩ ⟨rfl, rfl⟩
  · simp only [Progress.begin, frame]
    omega
  · simp only [Progress.begin, frame, loop, first, CellRef.offset]
    omega
  · rfl

theorem beside_loop (p : Progress) : p.beside b.frame b.loop = [] := by
  apply List.eq_nil_iff_forall_not_mem.2
  intro c hc
  obtain ⟨_, col, -, hcol, hskip, -⟩ := Frame.mem_rows.1 hc
  rw [left_loop, right_loop, Bool.and_eq_false_iff, decide_eq_false_iff_not,
    decide_eq_false_iff_not] at hskip
  simp only [frame, root] at hcol
  omega

theorem commandTarget_reached : b.reached.commandTarget b.frame b.loop = b.first := by
  rw [Progress.commandTarget, height_reached, left_loop]
  rfl

theorem afterCommand_reached {n : Nat} {size : Size} (hheight : size.height = n * b.body)
    (hwidth : size.width ≤ b.width) :
    b.reached.afterCommand b.frame b.loop size = b.passed n := by
  have hreached : b.reached.width = b.width := rfl
  have hright : Progress.right b.frame b.loop = b.frame.size.width := b.right_loop
  simp only [Progress.afterCommand, hright, left_loop, Int.lt_irrefl, decide_false, Bool.or_self,
    Bool.false_and, Bool.false_eq_true, if_false, height_reached, hreached, hheight]
  simp only [passed, loop, Progress.mk.injEq, true_and]
  omega

theorem below_passed (n : Nat) : (b.passed n).below b.frame = b.footCopies n := by
  apply rows_eq rfl ⟨rfl, rfl⟩ ⟨rfl, rfl⟩
  · simp only [passed, first, CellRef.offset, Int.natCast_add]
    omega
  · simp only [passed, frame, root, first, CellRef.offset]
    omega
  · simp only [passed, frame, Int.natCast_add, Int.natCast_mul]

theorem finish_passed (n : Nat) : (b.passed n).finish b.frame = b.filled n := by
  simp only [passed, Progress.finish, filled, frame, root, first, CellRef.offset, Size.mk.injEq,
    true_and]
  omega

end Course

def noted (b : RepeatedBlock) (size : Size) (s : FillState) : FillState :=
  { s with log := s.log ++ [⟨.debug, "area", (Command.each b.each).name ++ " at " ++ b.first.label ++
    " -> " ++ size.text⟩] }

theorem replay_root {n : Nat} {size : Size}
    (habove : exec (Area.copyAll h b.frame b.headCopies) s = (.ok (), t))
    (hloop : exec (b.each.run h (some ⟨b.inner.start, b.inner.size, b.inner.replay h⟩) b.first) t =
      (.ok size, u))
    (hheight : size.height = n * b.body) (hwidth : size.width ≤ b.width)
    {v : FillState}
    (hbelow : exec (Area.copyAll h b.frame (b.footCopies n)) (b.noted size u) = (.ok (), v)) :
    exec (b.root.replay h b.start) s = (.ok (b.filled n), v) := by
  have hbeside : exec (Area.copyAll h b.frame (b.reached.beside b.frame b.loop)) t = (.ok (), t) := by
    rw [beside_loop]
    rfl
  have hcommand : exec (mapFailure (fun e => e.locate (some b.first.label)
      (some (Command.each b.each).name) none) ((Command.each b.each).run h (Area.inners h [b.inner])
        (b.reached.commandTarget b.frame b.loop))) t = (.ok size, u) := by
    rw [commandTarget_reached]
    exact mapFailure_eq_ok.2 hloop
  have hlog : exec (FillM.log .debug "area" ((Command.each b.each).name ++ " at " ++
      (b.reached.commandTarget b.frame b.loop).label ++ " -> " ++ size.text)) u =
        (.ok (), b.noted size u) := by
    rw [commandTarget_reached]
    rfl
  have hlast : exec (Area.replayBindings h b.frame (b.reached.afterCommand b.frame b.loop size) [])
      (b.noted size u) = (.ok (b.filled n), v) := by
    rw [afterCommand_reached b hheight hwidth, Area.replayBindings, below_passed, finish_passed]
    exact bind_eq_ok.2 ⟨_, _, hbelow, rfl⟩
  rw [← above_loop] at habove
  exact bind_eq_ok.2 ⟨_, _, habove, bind_eq_ok.2 ⟨_, _, hbeside, bind_eq_ok.2 ⟨_, _, hcommand,
    bind_eq_ok.2 ⟨_, _, hlog, hlast⟩⟩⟩⟩

theorem replay_stretch (hb : b.Regular) {items : List Value} (hs : s.Open T b.start.sheet)
    (hfresh : b.Fresh 0 s) (hroom : b.Room (b.head + items.length * b.body + b.foot))
    (hrehearse : (b.rehearse h T s.context.get?).run s.streams = (.ok (items, ps), st)) :
    ∃ t, exec (b.root.replay h b.start) s = (.ok (b.filled items.length), t) ∧
      b.Stretch T 0 (b.head + items.length * b.body + b.foot) ps st s t := by
  obtain ⟨header, st₁, hheader, hrehearse⟩ := EvalM.bind_eq_ok.1 hrehearse
  obtain ⟨found, st₂, hfound, hrehearse⟩ := EvalM.bind_eq_ok.1 hrehearse
  obtain ⟨passes, st₃, hpasses, hrehearse⟩ := EvalM.bind_eq_ok.1 hrehearse
  obtain ⟨footer, st₄, hfooter, hsame⟩ := EvalM.bind_eq_ok.1 hrehearse
  cases hsame
  have hroomHead : b.Room (0 + b.head) := hroom.mono (by omega)
  have hroomItems : b.Room (b.head + items.length * b.body) := hroom.mono (by omega)
  obtain ⟨s₁, hs₁, h₁, hnames⟩ := copyRows (f := b.frame) rfl 0 hs hfresh hroomHead hheader
  have hfound₁ : (b.each.resolveIn h s₁.context.get?).run s₁.streams = (.ok items, st₂) := by
    rw [hnames, h₁.copied.streams]
    exact hfound
  rw [Nat.zero_add] at h₁
  obtain ⟨size, s₂, hs₂, hheight, hwidth, h₂⟩ := run_stretch hb (h₁.open hs) h₁.copied.near.get?
    (h₁.fresh hfresh (Nat.zero_le _)) hroomItems hfound₁ hpasses
  have h₁₂ := h₁.append h₂ (Nat.zero_le _) (Nat.le_add_right _ _)
  have h₁₃ : b.Stretch T 0 (b.head + items.length * b.body) (header ++ passes) st₃ s
      (b.noted size s₂) := ⟨h₁₂.copied.log _, h₁₂.spans⟩
  rw [← FillHost.renderAll_congr h₁₃.copied.near.get?, ← h₁₃.copied.streams] at hfooter
  obtain ⟨t, ht, h₃, -⟩ := copyRows (f := b.frame) rfl (b.head + b.body) (h₁₃.open hs)
    (h₁₃.fresh hfresh (Nat.zero_le _)) hroom hfooter
  exact ⟨t, replay_root hs₁ hs₂ hheight hwidth ht,
    h₁₃.append h₃ (Nat.zero_le _) (Nat.le_add_right _ _)⟩

end RepeatedBlock

end SheetTemplate
