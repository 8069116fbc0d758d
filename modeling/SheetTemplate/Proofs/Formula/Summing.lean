import Mathlib.Data.List.Nodup
import SheetTemplate.Proofs.Formula.Staying
import SheetTemplate.Proofs.Workbook.Slots

namespace SheetTemplate

open Number Text

def CellRef.shown (r : CellRef) : String := String.ofList r.pos.written

theorem CellRef.name_shown {r : CellRef} (h : r.pos.Named) : r.name = .ok r.shown :=
  r.name_eq h

namespace Formula.Move

variable {m : Move} {refs : List CellRef} {r : CellRef}

theorem distinct_of_nodup (h : refs.Nodup) : distinct refs = refs := by
  rw [distinct_eq_eraseDups]
  induction refs with
  | nil => rfl
  | cons r rest ih =>
    rw [List.nodup_cons] at h
    have hothers : (rest.filter fun x => !x == r) = rest := by
      refine List.filter_eq_self.2 fun x hx => ?_
      rw [Bool.not_eq_true', beq_eq_false_iff_ne]
      rintro rfl
      exact h.1 hx
    rw [List.eraseDups_cons, hothers, ih h.2]

theorem bounds_of_run? {first last : CellRef} {rest : List CellRef}
    (h : run? (r :: rest) = some (first, last)) : bounds r rest = (first, last) := by
  simp only [run?] at h
  split at h
  · cases h
  · split at h
    · exact Option.some.inj h
    · split at h
      · exact Option.some.inj h
      · cases h

theorem render_ok (m : Move) (qualified : Bool) (hn : ∀ x ∈ refs, x.pos.Named) :
    ∃ text, m.render qualified refs = .ok text := by
  have hname : ∀ x ∈ refs, (do return m.front qualified x ++ (← x.name) : Except Failure String) =
      .ok (m.front qualified x ++ x.shown) := by
    intro x hx
    rw [CellRef.name_shown (hn x hx)]
    rfl
  unfold render
  split
  · next r => exact ⟨_, hname r List.mem_cons_self⟩
  · split
    · next first last hrun =>
      cases refs with
      | nil => cases hrun
      | cons r rest =>
        obtain ⟨hfirst, hlast⟩ := bounds_named hn
        rw [bounds_of_run? hrun] at hfirst hlast
        rw [CellRef.name_shown hfirst, CellRef.name_shown hlast]
        exact ⟨_, rfl⟩
    · rw [Outcomes.mapM_eq_map hname]
      exact ⟨_, rfl⟩

theorem renderBounds_ok (m : Move) (qualified : Bool) (hn : ∀ x ∈ refs, x.pos.Named) :
    ∃ text, m.renderBounds qualified refs = .ok text := by
  cases refs with
  | nil => exact ⟨"", rfl⟩
  | cons r rest =>
    have hnear : ∀ x ∈ r :: rest.filter fun x => x.sheet == r.sheet, x.pos.Named := by
      intro x hx
      rcases List.mem_cons.1 hx with rfl | hx
      · exact hn _ List.mem_cons_self
      · exact hn x (List.mem_cons_of_mem r (List.mem_filter.1 hx).1)
    obtain ⟨hfirst, hlast⟩ := bounds_named hnear
    simp only [renderBounds, CellRef.name_shown hfirst, CellRef.name_shown hlast]
    exact ⟨_, rfl⟩

theorem mem_of_mem_allowed {x : CellRef} (h : x ∈ m.allowed refs) : x ∈ refs := by
  have hnear : ∀ near : List CellRef, (∀ y ∈ near, y ∈ refs) →
      x ∈ (if near.isEmpty then refs else near) → x ∈ refs := by
    intro near hsub hx
    split at hx
    · exact hx
    · exact hsub x hx
  refine hnear (refs.filter fun r => r.sheet == m.target.sheet)
    (fun y hy => (List.mem_filter.1 hy).1) ?_
  unfold allowed at h
  cases hs : m.strategy with
  | default =>
    rw [hs] at h
    exact h
  | byColumn =>
    rw [hs] at h
    exact (List.mem_filter.1 h).1
  | byRow =>
    rw [hs] at h
    exact (List.mem_filter.1 h).1

theorem relocateRef_ok (hm : ∀ x, ∀ y ∈ m.targets x, y.pos.Named) {r : FormulaRef} (hr : r.Named)
    (written : String) : ∃ text, m.relocateRef r written = .ok text := by
  have hsources : ∀ sheet, ∀ x ∈ (r.first :: r.last?.toList).map (CellRef.ofPos sheet),
      x.pos.Named := by
    intro sheet x hx
    obtain ⟨p, hp, rfl⟩ := List.mem_map.1 hx
    rcases List.mem_cons.1 hp with rfl | hp
    · exact hr.1
    · exact hr.2 p (Option.mem_toList.1 hp)
  have hcopies : ∀ sources : List CellRef, ∀ x ∈ m.allowed (distinct (sources.flatMap m.targets)),
      x.pos.Named := by
    intro sources x hx
    have hx := mem_of_mem_allowed hx
    rw [distinct_eq_eraseDups, List.mem_eraseDups] at hx
    obtain ⟨y, -, hy⟩ := List.mem_flatMap.1 hx
    exact hm y x hy
  simp only [relocateRef]
  split
  · exact ⟨_, rfl⟩
  · split
    · exact ⟨_, rfl⟩
    · split
      · refine renderBounds_ok m _ fun x hx => ?_
        rcases List.mem_append.1 hx with hx | hx
        · exact hcopies _ x hx
        · exact hsources _ x (List.mem_filter.1 hx).1
      · exact render_ok m _ (hcopies _)

theorem relocatePiece_ok (hm : ∀ x, ∀ y ∈ m.targets x, y.pos.Named) {formula : List Char}
    {p : FormulaPiece} (hp : p ∈ split formula) : ∃ text, m.relocatePiece p = .ok text := by
  cases p with
  | char c => exact ⟨_, rfl⟩
  | reference r written => exact relocateRef_ok hm (named_of_mem_pieces hp) _

theorem relocate_ok (hm : ∀ x, ∀ y ∈ m.targets x, y.pos.Named) (formula : String) :
    ∃ text, m.relocate formula = .ok text := by
  have hpiece : ∀ p ∈ split formula.toList, ∃ text, m.relocatePiece p = .ok text :=
    fun p hp => relocatePiece_ok hm hp
  choose! g hg using hpiece
  rw [relocate, Outcomes.mapM_eq_map hg]
  exact ⟨_, rfl⟩

def down (x : CellRef) (step n : Nat) : List CellRef :=
  (List.range n).map fun (i : Nat) => x.offset (i * step : Nat) 0

theorem length_down (x : CellRef) (step n : Nat) : (down x step n).length = n := by
  rw [down, List.length_map, List.length_range]

theorem down_succ (x : CellRef) (step n : Nat) :
    ∃ rest, down x step (n + 1) = x :: rest := by
  refine ⟨((List.range n).map Nat.succ).map fun (i : Nat) => x.offset (i * step : Nat) 0, ?_⟩
  rw [down, List.range_succ_eq_map, List.map_cons, Nat.zero_mul]
  congr 1
  simp only [CellRef.offset, Int.natCast_zero, Int.add_zero]

theorem nodup_down {x : CellRef} {step : Nat} (hstep : 0 < step) (n : Nat) :
    (down x step n).Nodup := by
  refine List.nodup_range.map_on fun i _ j _ hij => ?_
  simp only [CellRef.offset, CellRef.mk.injEq, true_and, and_true] at hij
  refine Nat.eq_of_mul_eq_mul_right hstep ?_
  omega

theorem bounds_down {x : CellRef} {step n : Nat} {rest : List CellRef}
    (h : down x step (n + 1) = x :: rest) :
    bounds x rest = (x, x.offset (n * step : Nat) 0) := by
  obtain ⟨⟨a, ha, harow⟩, ⟨b, hb, hbcol⟩, ⟨c, hc, hcrow⟩, ⟨d, hd, hdcol⟩, hall⟩ :=
    bounds_spec x rest
  have hself := hall x List.mem_cons_self
  have hend : x.offset (n * step : Nat) 0 ∈ x :: rest := by
    rw [← h]
    exact List.mem_map.2 ⟨n, List.mem_range.2 (Nat.lt_succ_self n), rfl⟩
  have hlast := hall _ hend
  rw [← h] at ha hb hc hd
  obtain ⟨i, -, rfl⟩ := List.mem_map.1 ha
  obtain ⟨j, -, rfl⟩ := List.mem_map.1 hb
  obtain ⟨k, hk, rfl⟩ := List.mem_map.1 hc
  obtain ⟨l, -, rfl⟩ := List.mem_map.1 hd
  have hks : k * step ≤ n * step :=
    Nat.mul_le_mul_right step (Nat.le_of_lt_succ (List.mem_range.1 hk))
  simp only [CellRef.offset] at harow hbcol hcrow hdcol hlast hself
  have hsheets : (bounds x rest).1.sheet = x.sheet ∧ (bounds x rest).2.sheet = x.sheet := ⟨rfl, rfl⟩
  refine Prod.ext (CellRef.eq_iff.2 ⟨hsheets.1, ?_⟩) (CellRef.eq_iff.2 ⟨hsheets.2, ?_⟩)
  · simp only [CellRef.pos, Pos.mk.injEq]
    omega
  · simp only [CellRef.pos, CellRef.offset, Pos.mk.injEq]
    omega

theorem run?_down {x : CellRef} {step n : Nat} (hstep : 0 < step) :
    run? (down x step (n + 2)) =
      if step = 1 then some (x, x.offset (n + 1 : Nat) 0) else none := by
  obtain ⟨rest, hrest⟩ := down_succ x step (n + 1)
  have hlength := length_down x step (n + 2)
  have hsheet : (rest.any fun y => y.sheet != x.sheet) = false := by
    rw [List.any_eq_false]
    intro y hy
    have hmem : y ∈ down x step (n + 2) := hrest ▸ List.mem_cons_of_mem x hy
    obtain ⟨i, -, rfl⟩ := List.mem_map.1 hmem
    simp [CellRef.offset]
  have hpos : 0 < (n + 1) * step := Nat.mul_pos (Nat.succ_pos n) hstep
  rw [hrest] at hlength ⊢
  simp only [run?, hsheet, bounds_down hrest, hlength, Bool.false_eq_true, if_false,
    Bool.and_eq_true, decide_eq_true_eq]
  have hcol : (x.offset ((n + 1) * step : Nat) 0).col = x.col := Int.add_zero _
  have hrow : (x.offset ((n + 1) * step : Nat) 0).row = x.row + ((n + 1) * step : Nat) := rfl
  by_cases hone : step = 1
  · subst hone
    rw [if_pos ⟨hcol.symm, by rw [hrow]; omega⟩, if_pos rfl, Nat.mul_one]
  · have hlong : n + 2 < (n + 1) * step + 1 := by
      have htwo : 2 ≤ step := by omega
      have := Nat.mul_le_mul_left (n + 1) htwo
      omega
    rw [if_neg fun h => ?_, if_neg fun h => ?_, if_neg hone]
    · have := h.1
      rw [hrow] at this
      omega
    · have := h.2
      rw [hrow] at this
      omega

def downText (absent : String) (x : CellRef) (step : Nat) : Nat → String
  | 0 => absent
  | 1 => x.shown
  | n + 2 =>
    if step = 1 then x.shown ++ ":" ++ (x.offset (n + 1 : Nat) 0).shown
    else
      joinText (if mostArguments < n + 2 then "+" else ",")
        ((down x step (n + 2)).map CellRef.shown)

def Sums (formula : String) (p : Pos) : Prop :=
  ∃ written, split formula.toList =
    [.char 'S', .char 'U', .char 'M', .char '(', .reference ⟨none, p, none⟩ written, .char ')']

theorem render_down {x : CellRef} {step n : Nat} (hstep : 0 < step)
    (hsheet : x.sheet = m.target.sheet) (hn : ∀ y ∈ down x step (n + 1), y.pos.Named) :
    m.render false (down x step (n + 1)) = .ok (downText m.absent x step (n + 1)) := by
  have hfront : ∀ y ∈ down x step (n + 1), m.front false y = "" := by
    intro y hy
    obtain ⟨i, -, rfl⟩ := List.mem_map.1 hy
    simp [front, CellRef.offset, hsheet]
  have hname : ∀ y ∈ down x step (n + 1),
      (do return m.front false y ++ (← y.name) : Except Failure String) = .ok y.shown := by
    intro y hy
    rw [CellRef.name_shown (hn y hy), hfront y hy]
    exact congrArg Except.ok String.empty_append
  obtain ⟨rest, hrest⟩ := down_succ x step n
  have hx : x ∈ down x step (n + 1) := hrest ▸ List.mem_cons_self
  cases n with
  | zero =>
    have hone : down x step 1 = [x] := by
      have hlength := length_down x step 1
      rw [hrest, List.length_cons] at hlength
      rw [hrest, List.length_eq_zero_iff.1 (Nat.succ.inj hlength)]
    rw [hone]
    exact hname x hx
  | succ n =>
    unfold render
    split
    · next y hy =>
      have hlength := length_down x step (n + 1 + 1)
      rw [hy, List.length_singleton] at hlength
      omega
    · rw [run?_down hstep, downText]
      by_cases hone : step = 1
      · subst hone
        have hend : x.offset (n + 1 : Nat) 0 ∈ down x 1 (n + 1 + 1) :=
          List.mem_map.2 ⟨n + 1, List.mem_range.2 (Nat.lt_succ_self _), by rw [Nat.mul_one]⟩
        rw [if_pos rfl, if_pos rfl]
        simp only [hfront x hx, CellRef.name_shown (hn x hx), CellRef.name_shown (hn _ hend)]
        exact congrArg Except.ok (by rw [String.empty_append])
      · rw [if_neg hone, if_neg hone]
        dsimp only
        rw [Outcomes.mapM_eq_map hname]
        exact congrArg Except.ok (by rw [List.length_map, length_down])

theorem relocateRef_down {p : Pos} {step n : Nat} (hstep : 0 < step)
    (hstrategy : m.strategy = .default) (hsheet : m.target.sheet = m.area.start.sheet)
    (hin : m.area.contains (.ofPos m.area.start.sheet p) = true)
    (htargets : m.targets (.ofPos m.area.start.sheet p) = down (.ofPos m.area.start.sheet p) step n)
    (hn : ∀ y ∈ down (.ofPos m.area.start.sheet p) step n, y.pos.Named) (written : String) :
    m.relocateRef ⟨none, p, none⟩ written =
      .ok (downText m.absent (.ofPos m.area.start.sheet p) step n) := by
  let x := CellRef.ofPos m.area.start.sheet p
  have hallowed : m.allowed (distinct (down x step n)) = down x step n := by
    rw [distinct_of_nodup (nodup_down hstep n)]
    have hnear : ((down x step n).filter fun r => r.sheet == m.target.sheet) = down x step n := by
      refine List.filter_eq_self.2 fun y hy => ?_
      obtain ⟨i, -, rfl⟩ := List.mem_map.1 hy
      rw [hsheet]
      exact beq_self_eq_true _
    simp only [allowed, hnear, hstrategy, ite_self]
  simp only [relocateRef, Option.map_none, Option.getD_none, Option.isSome_none, Bool.false_and,
    Option.toList_none, List.map_cons, List.map_nil, List.flatMap_cons, List.flatMap_nil,
    List.append_nil, htargets, List.any_cons, hin, Bool.true_or, if_true, Bool.false_eq_true,
    if_false]
  rw [hallowed]
  cases n with
  | zero => rfl
  | succ n =>
    have hne : (down x step (n + 1)).isEmpty = false := by
      obtain ⟨rest, hrest⟩ := down_succ x step n
      rw [hrest]
      rfl
    rw [hne]
    exact render_down hstep hsheet.symm hn

theorem relocate_sum {formula : String} {p : Pos} {step n : Nat} (hsum : Sums formula p)
    (hstep : 0 < step) (hstrategy : m.strategy = .default)
    (hsheet : m.target.sheet = m.area.start.sheet)
    (hin : m.area.contains (.ofPos m.area.start.sheet p) = true)
    (htargets : m.targets (.ofPos m.area.start.sheet p) = down (.ofPos m.area.start.sheet p) step n)
    (hn : ∀ y ∈ down (.ofPos m.area.start.sheet p) step n, y.pos.Named) :
    m.relocate formula =
      .ok ("SUM(" ++ downText m.absent (.ofPos m.area.start.sheet p) step n ++ ")") := by
  obtain ⟨written, hsplit⟩ := hsum
  have href := relocateRef_down hstep hstrategy hsheet hin htargets hn (String.ofList written)
  rw [relocate, hsplit]
  simp only [List.mapM_cons, List.mapM_nil, relocatePiece, href]
  simp only [bind, Except.bind, pure, Except.pure, Except.ok.injEq]
  rw [joinText, ← String.toList_inj]
  simp

end Formula.Move

end SheetTemplate
