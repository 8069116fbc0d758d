import SheetTemplate.Proofs.Area.Repeated
import SheetTemplate.Proofs.Formula.Summing

namespace SheetTemplate

open FillM FillState

namespace FillHost

variable {h : FillHost} {T : Template} {names : Meaning} {origin : CellRef} {info : CellInfo}
  {out : Option Rendered} {r : Rendered} {st st' : Streams}

def Renders (h : FillHost) (T : Template) (p : Piece) : Prop :=
  ∃ names st st', (h.renderCell T names p.1.origin).run st = (.ok p.2, st')

theorem renders_of_renderAll {copies : List CellCopy} {ps : List Piece}
    (hr : (h.renderAll T names copies).run st = (.ok ps, st')) : ∀ p ∈ ps, h.Renders T p := by
  induction copies generalizing ps st with
  | nil =>
    cases hr
    exact fun p hp => nomatch hp
  | cons c rest ih =>
    obtain ⟨out, u, hout, hr⟩ := EvalM.bind_eq_ok.1 hr
    obtain ⟨others, v, hothers, hpieces⟩ := EvalM.bind_eq_ok.1 hr
    cases hpieces
    intro p hp
    rcases List.mem_cons.1 hp with rfl | hp
    · exact ⟨_, _, _, hout⟩
    · exact ih hothers p hp

theorem Renders.cases {p : Piece} (hp : h.Renders T p) :
    T.cell? p.1.origin = none ∧ p.2 = none ∨
      (∃ info text, T.cell? p.1.origin = some info ∧ info.hasFormula = true ∧
        p.2 = some (.formula text)) ∨
      ∃ info c, T.cell? p.1.origin = some info ∧ info.hasFormula = false ∧
        p.2 = some (.content c) := by
  obtain ⟨names, st, st', hr⟩ := hp
  unfold renderCell at hr
  cases hinfo : T.cell? p.1.origin with
  | none =>
    rw [hinfo] at hr
    obtain ⟨hout, -⟩ := Prod.mk.inj hr
    exact .inl ⟨rfl, (Except.ok.inj hout).symm⟩
  | some info =>
    rw [hinfo] at hr
    obtain ⟨r, u, hr, hsame⟩ := EvalM.bind_eq_ok.1 hr
    obtain ⟨hout, -⟩ := Prod.mk.inj hsame
    rw [← Except.ok.inj hout]
    unfold render at hr
    cases hactive : info.activeFormula? with
    | some formula =>
      simp only [hactive] at hr
      obtain ⟨text, v, -, hheld⟩ := EvalM.bind_eq_ok.1 hr
      split at hheld
      · obtain ⟨hr, -⟩ := Prod.mk.inj hheld
        rw [← Except.ok.inj hr]
        exact .inr (.inl ⟨info, text, rfl, by rw [CellInfo.hasFormula, hactive]; rfl, rfl⟩)
      · cases hheld
    | none =>
      simp only [hactive] at hr
      have hcontent : ∃ c, r = .content c := by
        unfold renderValue at hr
        split at hr
        · obtain ⟨v, w, -, hr⟩ := EvalM.bind_eq_ok.1 hr
          obtain ⟨d, -, rfl, -⟩ := hold_eq_ok hr
          exact ⟨_, rfl⟩
        · obtain ⟨d, -, rfl, -⟩ := hold_eq_ok hr
          exact ⟨_, rfl⟩
      obtain ⟨c, rfl⟩ := hcontent
      exact .inr (.inr ⟨info, c, rfl, by rw [CellInfo.hasFormula, hactive]; rfl, rfl⟩)

end FillHost

namespace RepeatedBlock

variable (b : RepeatedBlock)

def copies (n : Nat) : List CellCopy :=
  b.headCopies ++ (List.range n).flatMap b.itemCopies ++ b.footCopies n

def targets (T : Template) (n : Nat) (x : CellRef) : List CellRef :=
  if (T.cell? x).isSome then ((b.copies n).filter fun c => c.origin == x).map CellCopy.target else []

def move (T : Template) (n : Nat) (info : CellInfo) (target : CellRef) : Formula.Move where
  area := b.root
  targets := b.targets T n
  target := target
  strategy := info.strategy
  absent := (info.default?.filter fun s => !s.isEmpty).getD Formula.defaultText

variable {b} {h : FillHost} {T : Template} {names : Meaning} {items : List Value} {ps : List Piece}
  {st st' : Streams} {n : Nat}

theorem rehearseItems_eq_ok {i : Nat}
    (hr : (b.rehearseItems h T names i items).run st = (.ok ps, st')) :
    ps.map (·.1) = (List.range' i items.length).flatMap b.itemCopies ∧ ∀ p ∈ ps, h.Renders T p := by
  induction items generalizing i ps st with
  | nil =>
    cases hr
    exact ⟨rfl, fun p hp => nomatch hp⟩
  | cons item rest ih =>
    obtain ⟨pass, u, hpass, hr⟩ := EvalM.bind_eq_ok.1 hr
    obtain ⟨passes, v, hpasses, hsame⟩ := EvalM.bind_eq_ok.1 hr
    cases hsame
    obtain ⟨hcopies, hrenders⟩ := ih hpasses
    refine ⟨?_, fun p hp => ?_⟩
    · rw [List.map_append, hcopies, FillHost.renderAll_eq_ok hpass, List.length_cons,
        List.range'_succ, List.flatMap_cons]
    · rcases List.mem_append.1 hp with hp | hp
      · exact FillHost.renders_of_renderAll hpass p hp
      · exact hrenders p hp

theorem rehearse_eq_ok (hr : (b.rehearse h T names).run st = (.ok (items, ps), st')) :
    ps.map (·.1) = b.copies items.length ∧ ∀ p ∈ ps, h.Renders T p := by
  obtain ⟨header, st₁, hheader, hr⟩ := EvalM.bind_eq_ok.1 hr
  obtain ⟨found, st₂, hfound, hr⟩ := EvalM.bind_eq_ok.1 hr
  obtain ⟨passes, st₃, hpasses, hr⟩ := EvalM.bind_eq_ok.1 hr
  obtain ⟨footer, st₄, hfooter, hsame⟩ := EvalM.bind_eq_ok.1 hr
  cases hsame
  obtain ⟨hcopies, hrenders⟩ := rehearseItems_eq_ok hpasses
  refine ⟨?_, fun p hp => ?_⟩
  · rw [List.map_append, List.map_append, hcopies, FillHost.renderAll_eq_ok hheader,
      FillHost.renderAll_eq_ok hfooter, copies, List.range_eq_range']
  · rcases List.mem_append.1 hp with hp | hp
    · rcases List.mem_append.1 hp with hp | hp
      · exact FillHost.renders_of_renderAll hheader p hp
      · exact hrenders p hp
    · exact FillHost.renders_of_renderAll hfooter p hp

theorem target_of_mem_rows {origin count target : Nat} {c : CellCopy}
    (hc : c ∈ b.rows origin count target) :
    b.start.row + target ≤ c.target.row ∧ c.target.row < b.start.row + (target + count : Nat) := by
  obtain ⟨r, hr, col, -, rfl⟩ := mem_rows.1 hc
  simp only [CellRef.offset]
  omega

theorem target_of_mem_item {n : Nat} {c : CellCopy}
    (hc : c ∈ (List.range n).flatMap b.itemCopies) :
    b.start.row + b.head ≤ c.target.row ∧ c.target.row < b.start.row + (b.head + n * b.body : Nat) := by
  obtain ⟨i, hi, hc⟩ := List.mem_flatMap.1 hc
  have := target_of_mem_rows hc
  have hle : (i + 1) * b.body ≤ n * b.body := Nat.mul_le_mul_right _ (List.mem_range.1 hi)
  rw [Nat.add_mul] at hle
  omega

theorem nodup_copies (b : RepeatedBlock) (n : Nat) : ((b.copies n).map CellCopy.target).Nodup := by
  have hitems : (((List.range n).flatMap b.itemCopies).map CellCopy.target).Nodup := by
    rw [List.map_flatMap]
    refine List.nodup_flatMap.2 ⟨fun i _ => nodup_rows _ _ _, ?_⟩
    refine List.pairwise_lt_range.imp fun {i j} hij => ?_
    simp only [Function.onFun, List.disjoint_left, List.mem_map]
    rintro _ ⟨c, hc, rfl⟩ ⟨d, hd, hdc⟩
    have hci := target_of_mem_rows hc
    have hdj := target_of_mem_rows hd
    have hle : (i + 1) * b.body ≤ j * b.body := Nat.mul_le_mul_right _ hij
    rw [Nat.add_mul] at hle
    rw [hdc] at hdj
    omega
  rw [copies, List.map_append, List.map_append]
  refine (((nodup_rows _ _ _).append hitems ?_).append (nodup_rows _ _ _) ?_)
  · simp only [List.disjoint_left, List.mem_map]
    rintro _ ⟨c, hc, rfl⟩ ⟨d, hd, hdc⟩
    have hc := target_of_mem_rows hc
    have hd := target_of_mem_item hd
    rw [hdc] at hd
    omega
  · simp only [List.disjoint_left, List.mem_append, List.mem_map]
    rintro _ hx ⟨d, hd, rfl⟩
    have hd := target_of_mem_rows hd
    rcases hx with ⟨c, hc, hdc⟩ | ⟨c, hc, hdc⟩
    · have hc := target_of_mem_rows hc
      rw [hdc] at hc
      omega
    · have hc := target_of_mem_item hc
      rw [hdc] at hc
      omega

theorem targets_of_pieces (hcopies : ps.map (·.1) = b.copies n)
    (hrenders : ∀ p ∈ ps, h.Renders T p) (x : CellRef) :
    (ps.filter fun p => p.1.origin == x && p.2.isSome).map (·.1.target) = b.targets T n x := by
  have hsame : (ps.filter fun p => p.1.origin == x && p.2.isSome) =
      ps.filter fun p => p.1.origin == x && (T.cell? x).isSome := by
    refine List.filter_congr fun p hp => ?_
    by_cases hx : p.1.origin = x
    · subst hx
      rcases (hrenders p hp).cases with ⟨hnone, hout⟩ | ⟨i, _, hi, -, hout⟩ | ⟨i, _, hi, -, hout⟩
      · rw [hnone, hout]
        rfl
      · rw [hi, hout]
        rfl
      · rw [hi, hout]
        rfl
    · rw [beq_false_of_ne hx, Bool.false_and, Bool.false_and]
  rw [hsame, targets, ← hcopies, List.filter_map, List.map_map]
  split
  · next hpopulated => simp only [hpopulated, Bool.and_true, Function.comp_def]
  · next hblank => simp only [hblank, Bool.and_false, List.filter_false, List.map_nil]

theorem filter_origin {l : List CellCopy} (hl : (l.map CellCopy.origin).Nodup) {c : CellCopy}
    (hc : c ∈ l) : l.filter (fun d => d.origin == c.origin) = [c] := by
  induction l with
  | nil => cases hc
  | cons d rest ih =>
    rw [List.map_cons, List.nodup_cons] at hl
    have hne : ∀ e ∈ rest, e.origin ≠ d.origin := by
      rintro e he heq
      exact hl.1 (heq ▸ List.mem_map_of_mem he)
    rcases List.mem_cons.1 hc with rfl | hc
    · rw [List.filter_cons, if_pos (beq_self_eq_true _), List.filter_eq_nil_iff.2]
      intro e he
      simpa using hne e he
    · rw [List.filter_cons_of_neg, ih hl.2 hc]
      simpa using (hne c hc).symm

theorem nodup_origins (origin count target : Nat) :
    ((b.rows origin count target).map CellCopy.origin).Nodup := by
  have h := nodup_rows (b := b) target count origin
  simp only [rows, List.map_flatMap, List.map_map] at h ⊢
  exact h

theorem target_of_mem_copies {c : CellCopy} (hc : c ∈ b.copies n) :
    c.target.sheet = b.start.sheet ∧ b.start.row ≤ c.target.row ∧
      c.target.row < b.start.row + (b.filled n).height ∧ b.start.col ≤ c.target.col ∧
      c.target.col < b.start.col + b.width := by
  have hrows : ∀ {origin count target : Nat}, c ∈ b.rows origin count target →
      c.target.sheet = b.start.sheet ∧ b.start.col ≤ c.target.col ∧
        c.target.col < b.start.col + b.width := by
    intro origin count target hc
    obtain ⟨r, -, col, hcol, rfl⟩ := mem_rows.1 hc
    refine ⟨rfl, ?_, ?_⟩ <;> simp only [CellRef.offset] <;> omega
  have hitems : (0 : Int) ≤ n * b.body :=
    Int.mul_nonneg (Int.natCast_nonneg n) (Int.natCast_nonneg b.body)
  simp only [filled]
  rcases List.mem_append.1 hc with hc | hc
  · rcases List.mem_append.1 hc with hc | hc
    · have hspan := target_of_mem_rows hc
      exact ⟨(hrows hc).1, by omega, by omega, (hrows hc).2⟩
    · have hspan := target_of_mem_item hc
      obtain ⟨i, -, hc⟩ := List.mem_flatMap.1 hc
      exact ⟨(hrows hc).1, by omega, by omega, (hrows hc).2⟩
  · have hspan := target_of_mem_rows hc
    exact ⟨(hrows hc).1, by omega, by omega, (hrows hc).2⟩

theorem origin_of_mem_copies {c : CellCopy} (hc : c ∈ b.copies n) :
    b.root.contains c.origin = true := by
  have hrows : ∀ {origin count target : Nat}, origin + count ≤ b.head + b.body + b.foot →
      c ∈ b.rows origin count target → b.root.contains c.origin = true := by
    intro origin count target hle hc
    obtain ⟨r, hr, col, hcol, rfl⟩ := mem_rows.1 hc
    rw [Area.contains_iff]
    refine ⟨rfl, ?_, ?_, ?_, ?_⟩ <;> simp only [root, CellRef.offset] <;> omega
  rcases List.mem_append.1 hc with hc | hc
  · rcases List.mem_append.1 hc with hc | hc
    · exact hrows (by omega) hc
    · obtain ⟨i, -, hc⟩ := List.mem_flatMap.1 hc
      exact hrows (by omega) hc
  · exact hrows (by omega) hc

theorem Room.named {m : Nat} (hb : b.Room m) {r : CellRef} (htop : b.start.row ≤ r.row)
    (hleft : b.start.col ≤ r.col) (hright : r.col < b.start.col + b.width) : r.pos.Named := by
  have := hb.top
  have := hb.left
  have := hb.right
  refine ⟨?_, ?_, ?_⟩ <;> simp only [CellRef.pos] <;> omega

theorem mem_targets {x y : CellRef} :
    y ∈ b.targets T n x ↔ (T.cell? x).isSome = true ∧ ∃ c ∈ b.copies n, c.origin = x ∧ c.target = y := by
  unfold targets
  split
  · next hpopulated =>
    simp only [hpopulated, List.mem_map, List.mem_filter, beq_iff_eq, true_and, and_assoc]
  · next hblank => simp [hblank]

theorem admits_of_mem_copies (hroom : b.Room (b.head + n * b.body + b.foot)) {c : CellCopy}
    (hc : c ∈ b.copies n) : Sheet.admits c.target.pos = true := by
  obtain ⟨-, htop, hbottom, hleft, hright⟩ := target_of_mem_copies hc
  have := hroom.top
  have := hroom.left
  have := hroom.bottom
  simp only [filled] at hbottom
  simp only [Sheet.admits, Bool.and_eq_true, decide_eq_true_eq]
  simp only [CellRef.pos]
  omega

theorem named_of_mem_targets (hroom : b.Room (b.head + n * b.body + b.foot)) {x y : CellRef}
    (hy : y ∈ b.targets T n x) : y.pos.Named := by
  obtain ⟨-, c, hc, -, rfl⟩ := mem_targets.1 hy
  obtain ⟨-, htop, -, hleft, hright⟩ := target_of_mem_copies hc
  exact hroom.named htop hleft hright

structure Holds (b : RepeatedBlock) (x : CellRef) : Prop where
  sheet : x.sheet = b.start.sheet
  top : b.start.row + b.head ≤ x.row
  bottom : x.row < b.start.row + b.head + b.body
  left : b.start.col ≤ x.col
  right : x.col < b.start.col + b.width

theorem Holds.contains {x : CellRef} (hx : b.Holds x) : b.root.contains x = true := by
  obtain ⟨hsheet, htop, hbottom, hleft, hright⟩ := hx
  rw [Area.contains_iff]
  refine ⟨hsheet, ?_, ?_, hleft, hright⟩ <;> simp only [root] <;> omega

theorem filter_outside {origin count target : Nat} {x : CellRef}
    (hx : x.row < b.start.row + origin ∨ b.start.row + (origin + count : Nat) ≤ x.row) :
    (b.rows origin count target).filter (fun c => c.origin == x) = [] := by
  refine List.filter_eq_nil_iff.2 fun c hc => ?_
  obtain ⟨r, hr, col, -, rfl⟩ := mem_rows.1 hc
  rw [beq_iff_eq]
  rintro rfl
  simp only [CellRef.offset] at hx
  omega

theorem filter_itemCopies {x : CellRef} (hx : b.Holds x) (i : Nat) :
    (b.itemCopies i).filter (fun c => c.origin == x) = [⟨x, x.offset (i * b.body : Nat) 0⟩] := by
  obtain ⟨hsheet, htop, hbottom, hleft, hright⟩ := hx
  have hmem : (⟨x, x.offset (i * b.body : Nat) 0⟩ : CellCopy) ∈ b.itemCopies i := by
    refine mem_rows.2 ⟨(x.row - b.start.row - b.head).toNat, by omega,
      (x.col - b.start.col).toNat, by omega, ?_⟩
    simp only [CellRef.offset, CellCopy.mk.injEq]
    refine ⟨CellRef.eq_iff.2 ⟨hsheet, ?_⟩, CellRef.eq_iff.2 ⟨hsheet, ?_⟩⟩
    · simp only [CellRef.pos, Pos.mk.injEq]
      omega
    · simp only [CellRef.pos, Pos.mk.injEq]
      omega
  exact filter_origin (nodup_origins _ _ _) hmem

theorem targets_of_holds {x : CellRef} (hx : b.Holds x) (hpopulated : (T.cell? x).isSome = true)
    (n : Nat) : b.targets T n x = Formula.Move.down x b.body n := by
  have hhead : b.headCopies.filter (fun c => c.origin == x) = [] :=
    filter_outside (.inr (by have := hx.top; omega))
  have hfoot : (b.footCopies n).filter (fun c => c.origin == x) = [] :=
    filter_outside (.inl (by have := hx.bottom; omega))
  rw [targets, if_pos hpopulated, copies, List.filter_append, List.filter_append, hhead, hfoot,
    List.nil_append, List.append_nil, List.filter_flatMap]
  simp only [filter_itemCopies hx, List.map_flatMap, List.map_cons, List.map_nil, Formula.Move.down]
  exact List.map_eq_flatMap.symm

end RepeatedBlock

end SheetTemplate
