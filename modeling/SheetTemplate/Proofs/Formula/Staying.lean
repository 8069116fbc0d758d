import Mathlib.Tactic.Tauto
import SheetTemplate.Formula.Relocate
import SheetTemplate.Proofs.Formula.Naming
import SheetTemplate.Proofs.Outcomes

namespace SheetTemplate

open Number Text

structure Pos.Among (ps : List Pos) (p : Pos) : Prop where
  top : ∃ q ∈ ps, q.row ≤ p.row
  bottom : ∃ q ∈ ps, p.row ≤ q.row
  left : ∃ q ∈ ps, q.col ≤ p.col
  right : ∃ q ∈ ps, p.col ≤ q.col

theorem Pos.Among.mono {ps qs : List Pos} {p : Pos} (h : ∀ q ∈ ps, q ∈ qs) (hp : Among ps p) :
    Among qs p := by
  obtain ⟨⟨a, ha, htop⟩, ⟨b, hb, hbottom⟩, ⟨c, hc, hleft⟩, ⟨d, hd, hright⟩⟩ := hp
  exact ⟨⟨a, h a ha, htop⟩, ⟨b, h b hb, hbottom⟩, ⟨c, h c hc, hleft⟩, ⟨d, h d hd, hright⟩⟩

theorem Pos.among_pair {u v p : Pos} (hrow : u.row ≤ v.row) (hcol : u.col ≤ v.col) :
    Among [u, v] p ↔ u.row ≤ p.row ∧ p.row ≤ v.row ∧ u.col ≤ p.col ∧ p.col ≤ v.col := by
  have hmem : ∀ P : Pos → Prop, (∃ q ∈ [u, v], P q) ↔ P u ∨ P v := by simp
  constructor
  · rintro ⟨htop, hbottom, hleft, hright⟩
    rw [hmem] at htop hbottom hleft hright
    omega
  · rintro ⟨htop, hbottom, hleft, hright⟩
    exact ⟨(hmem _).2 (.inl htop), (hmem _).2 (.inr hbottom), (hmem _).2 (.inl hleft),
      (hmem _).2 (.inr hright)⟩

namespace FormulaRef

def endpoints (r : FormulaRef) : List Pos := r.first :: r.last?.toList

def Denotes (text : String) (ps : List Pos) : Prop :=
  ∃ r : FormulaRef, r.sheet? = none ∧ (∀ p, Pos.Among r.endpoints p ↔ Pos.Among ps p) ∧
    ∀ rest, Ends rest → at? (text.toList ++ rest) = some (r, rest)

theorem denotes_written {p : Pos} (hp : p.Named) : Denotes (String.ofList p.written) [p] := by
  refine ⟨⟨none, p, none⟩, rfl, fun _ => Iff.rfl, fun rest hrest => ?_⟩
  rw [String.toList_ofList]
  exact at?_written hp hrest

theorem denotes_range {p q : Pos} (hp : p.Named) (hq : q.Named) :
    Denotes (String.ofList (p.written ++ ':' :: q.written)) [p, q] := by
  refine ⟨⟨none, p, some q⟩, rfl, fun _ => Iff.rfl, fun rest hrest => ?_⟩
  rw [String.toList_ofList, List.append_assoc]
  exact at?_range hp hq hrest

theorem Denotes.congr {text : String} {ps qs : List Pos} (h : Denotes text ps)
    (hiff : ∀ p, Pos.Among ps p ↔ Pos.Among qs p) : Denotes text qs := by
  obtain ⟨r, hs, hc, hr⟩ := h
  exact ⟨r, hs, fun p => (hc p).trans (hiff p), hr⟩

end FormulaRef

theorem filter_self {l : List CellRef} (hl : l.Nodup) (x : CellRef) (p : CellRef → Bool) :
    l.filter (fun r => r == x && p r) = if x ∈ l ∧ p x = true then [x] else [] := by
  induction l with
  | nil => simp
  | cons r rest ih =>
    rw [List.nodup_cons] at hl
    rw [List.filter_cons, ih hl.2]
    by_cases hr : r = x
    · subst hr
      simp [hl.1]
    · simp [hr, Ne.symm hr]

namespace Formula.Move

theorem least_spec (l : List Int) (n : Int) :
    least l n ∈ n :: l ∧ ∀ x ∈ n :: l, least l n ≤ x :=
  List.min?_eq_some_iff.1 List.min?_cons'

theorem greatest_spec (l : List Int) (n : Int) :
    greatest l n ∈ n :: l ∧ ∀ x ∈ n :: l, x ≤ greatest l n :=
  List.max?_eq_some_iff.1 List.max?_cons'

theorem bounds_spec (r : CellRef) (refs : List CellRef) :
    (∃ q ∈ r :: refs, q.row = (bounds r refs).1.row) ∧
      (∃ q ∈ r :: refs, q.col = (bounds r refs).1.col) ∧
      (∃ q ∈ r :: refs, q.row = (bounds r refs).2.row) ∧
      (∃ q ∈ r :: refs, q.col = (bounds r refs).2.col) ∧
      ∀ q ∈ r :: refs, (bounds r refs).1.row ≤ q.row ∧ (bounds r refs).1.col ≤ q.col ∧
        q.row ≤ (bounds r refs).2.row ∧ q.col ≤ (bounds r refs).2.col := by
  obtain ⟨htop, htop'⟩ := least_spec (refs.map (·.row)) r.row
  obtain ⟨hleft, hleft'⟩ := least_spec (refs.map (·.col)) r.col
  obtain ⟨hbottom, hbottom'⟩ := greatest_spec (refs.map (·.row)) r.row
  obtain ⟨hright, hright'⟩ := greatest_spec (refs.map (·.col)) r.col
  rw [← List.map_cons] at htop hleft hbottom hright
  refine ⟨List.mem_map.1 htop, List.mem_map.1 hleft, List.mem_map.1 hbottom,
    List.mem_map.1 hright, fun q hq => ?_⟩
  have hrow : q.row ∈ r.row :: refs.map (·.row) := List.mem_map_of_mem (f := (·.row)) hq
  have hcol : q.col ∈ r.col :: refs.map (·.col) := List.mem_map_of_mem (f := (·.col)) hq
  exact ⟨htop' _ hrow, hleft' _ hcol, hbottom' _ hrow, hright' _ hcol⟩

theorem bounds_named {r : CellRef} {refs : List CellRef} (hn : ∀ x ∈ r :: refs, x.pos.Named) :
    (bounds r refs).1.pos.Named ∧ (bounds r refs).2.pos.Named := by
  obtain ⟨⟨a, ha, harow⟩, ⟨b, hb, hbcol⟩, ⟨c, hc, hcrow⟩, ⟨d, hd, hdcol⟩, -⟩ := bounds_spec r refs
  refine ⟨⟨?_, ?_, ?_⟩, ⟨?_, ?_, ?_⟩⟩ <;> simp only [CellRef.pos]
  · exact harow ▸ (hn a ha).row
  · exact hbcol ▸ (hn b hb).left
  · exact hbcol ▸ (hn b hb).right
  · exact hcrow ▸ (hn c hc).row
  · exact hdcol ▸ (hn d hd).left
  · exact hdcol ▸ (hn d hd).right

theorem bounds_among (r : CellRef) (refs : List CellRef) (p : Pos) :
    Pos.Among [(bounds r refs).1.pos, (bounds r refs).2.pos] p ↔
      Pos.Among ((r :: refs).map CellRef.pos) p := by
  obtain ⟨⟨a, ha, harow⟩, ⟨b, hb, hbcol⟩, ⟨c, hc, hcrow⟩, ⟨d, hd, hdcol⟩, hall⟩ :=
    bounds_spec r refs
  have hself := hall r List.mem_cons_self
  rw [Pos.among_pair (by simp only [CellRef.pos]; omega) (by simp only [CellRef.pos]; omega)]
  constructor
  · rintro ⟨htop, hbottom, hleft, hright⟩
    exact ⟨⟨a.pos, List.mem_map_of_mem ha, Int.le_trans (Int.le_of_eq harow) htop⟩,
      ⟨c.pos, List.mem_map_of_mem hc, Int.le_trans hbottom (Int.le_of_eq hcrow.symm)⟩,
      ⟨b.pos, List.mem_map_of_mem hb, Int.le_trans (Int.le_of_eq hbcol) hleft⟩,
      ⟨d.pos, List.mem_map_of_mem hd, Int.le_trans hright (Int.le_of_eq hdcol.symm)⟩⟩
  · rintro ⟨⟨w, hw, htop⟩, ⟨x, hx, hbottom⟩, ⟨y, hy, hleft⟩, ⟨z, hz, hright⟩⟩
    obtain ⟨q, hq, rfl⟩ := List.mem_map.1 hw
    obtain ⟨t, ht, rfl⟩ := List.mem_map.1 hx
    obtain ⟨u, hu, rfl⟩ := List.mem_map.1 hy
    obtain ⟨v, hv, rfl⟩ := List.mem_map.1 hz
    exact ⟨Int.le_trans (hall q hq).1 htop, Int.le_trans hbottom (hall t ht).2.2.1,
      Int.le_trans (hall u hu).2.1 hleft, Int.le_trans hright (hall v hv).2.2.2⟩

structure Still (m : Move) (populated : CellRef → Bool) : Prop where
  targets : ∀ r, m.targets r = if m.area.contains r && populated r then [r] else []
  strategy : m.strategy = .default
  sheet : m.target.sheet = m.area.start.sheet

def sources (area : Area) (r : FormulaRef) : List CellRef :=
  r.endpoints.map fun p => CellRef.ofPos area.start.sheet p

variable {m : Move} {populated : CellRef → Bool}

theorem allowed_eq (hm : m.Still populated) {refs : List CellRef}
    (h : ∀ r ∈ refs, r.sheet = m.area.start.sheet) : m.allowed refs = refs := by
  have hnear : (refs.filter fun r => r.sheet == m.target.sheet) = refs := by
    refine List.filter_eq_self.2 fun r hr => ?_
    rw [h r hr, hm.sheet, beq_self_eq_true]
  simp only [allowed, hnear, hm.strategy, ite_self]

theorem front_eq (hm : m.Still populated) {r : CellRef} (h : r.sheet = m.area.start.sheet) :
    m.front false r = "" := by
  simp [front, h, hm.sheet]

theorem render_single (hm : m.Still populated) {r : CellRef} (h : r.sheet = m.area.start.sheet)
    (hr : r.pos.Named) : m.render false [r] = .ok (String.ofList r.pos.written) := by
  simp only [render, front_eq hm h, CellRef.name_eq hr]
  simp [bind, Except.bind, pure, Except.pure]

theorem renderBounds_denotes (hm : m.Still populated) {refs : List CellRef} (hne : refs ≠ [])
    (hs : ∀ r ∈ refs, r.sheet = m.area.start.sheet) (hn : ∀ r ∈ refs, r.pos.Named) :
    ∃ text, m.renderBounds false refs = .ok text ∧
      FormulaRef.Denotes text (refs.map CellRef.pos) := by
  cases refs with
  | nil => exact absurd rfl hne
  | cons r rest =>
    have hsame : (rest.filter fun x => x.sheet == r.sheet) = rest := by
      refine List.filter_eq_self.2 fun x hx => ?_
      rw [hs x (List.mem_cons_of_mem _ hx), hs r List.mem_cons_self, beq_self_eq_true]
    obtain ⟨hfirst, hlast⟩ := bounds_named hn
    refine ⟨_, ?_, (FormulaRef.denotes_range hfirst hlast).congr (bounds_among r rest)⟩
    simp only [renderBounds, hsame, front_eq hm (hs r List.mem_cons_self),
      CellRef.name_eq hfirst, CellRef.name_eq hlast]
    simp [bind, Except.bind, pure, Except.pure, String.append_assoc]

structure Keeps (area : Area) (populated : CellRef → Bool) (absent : String) (r : FormulaRef)
    (written : List Char) (text : String) : Prop where
  outside : (∀ s ∈ sources area r, area.contains s = false) → text = String.ofList written
  copied : (∃ s ∈ sources area r, area.contains s = true) →
    (∀ s ∈ sources area r, area.contains s = true → populated s = true) →
      FormulaRef.Denotes text r.endpoints
  absent : (∃ s ∈ sources area r, area.contains s = true) →
    (∀ s ∈ sources area r, area.contains s = true → populated s = false) → text = absent
  shrunk : ∀ s ∈ sources area r, area.contains s = true → populated s = true →
    (∀ x ∈ sources area r, x ≠ s → area.contains x = true ∧ populated x = false) →
      FormulaRef.Denotes text [s.pos]

theorem Still.targets_cases (hm : m.Still populated) (r : CellRef) :
    m.targets r = [r] ∧ m.area.contains r = true ∧ populated r = true ∨
      m.targets r = [] ∧ ¬(m.area.contains r = true ∧ populated r = true) := by
  rw [hm.targets r, ← Bool.and_eq_true]
  by_cases h : (m.area.contains r && populated r) = true
  · exact .inl ⟨if_pos h, h⟩
  · exact .inr ⟨if_neg h, h⟩

theorem Still.targets_eq_self (hm : m.Still populated) {r : CellRef} :
    m.targets r = [r] ↔ m.area.contains r = true ∧ populated r = true := by
  rcases hm.targets_cases r with ⟨ht, h⟩ | ⟨ht, h⟩
  · exact iff_of_true ht h
  · rw [ht]
    exact iff_of_false (fun h => nomatch h) h

theorem Still.targets_eq_nil (hm : m.Still populated) {r : CellRef} :
    m.targets r = [] ↔ ¬(m.area.contains r = true ∧ populated r = true) := by
  rcases hm.targets_cases r with ⟨ht, h⟩ | ⟨ht, h⟩
  · rw [ht]
    exact iff_of_false (fun h => nomatch h) (not_not_intro h)
  · exact iff_of_true ht h

theorem mem_history (hm : m.Still populated) {l : List CellRef} {x : CellRef} :
    x ∈ l.flatMap m.targets ↔ x ∈ l ∧ m.targets x = [x] := by
  rw [List.mem_flatMap]
  constructor
  · rintro ⟨s, hs, hx⟩
    rcases hm.targets_cases s with ⟨ht, -⟩ | ⟨ht, -⟩
    · rw [ht] at hx
      rw [List.mem_singleton.1 hx]
      exact ⟨hs, ht⟩
    · rw [ht] at hx
      cases hx
  · rintro ⟨hx, ht⟩
    refine ⟨x, hx, ?_⟩
    rw [ht]
    exact List.mem_singleton_self x

theorem sheet_of_mem_sources {r : FormulaRef} {s : CellRef} (h : s ∈ sources m.area r) :
    s.sheet = m.area.start.sheet := by
  obtain ⟨p, -, rfl⟩ := List.mem_map.1 h
  rfl

theorem named_of_mem_sources {r : FormulaRef} (hn : r.Named) {s : CellRef} (h : s ∈ sources m.area r) :
    s.pos.Named := by
  obtain ⟨p, hp, rfl⟩ := List.mem_map.1 h
  rcases List.mem_cons.1 hp with rfl | hp
  · exact hn.1
  · exact hn.2 p (Option.mem_toList.1 hp)

def kept (m : Move) (r : FormulaRef) : List CellRef :=
  distinct ((sources m.area r).flatMap m.targets) ++
    (sources m.area r).filter fun s => (m.targets s).isEmpty && !m.area.contains s

theorem mem_kept (hm : m.Still populated) {r : FormulaRef} {x : CellRef} :
    x ∈ m.kept r ↔
      x ∈ sources m.area r ∧ (m.targets x = [x] ∨ m.targets x = [] ∧ m.area.contains x = false) := by
  rw [kept, List.mem_append, distinct_eq_eraseDups, List.mem_eraseDups, mem_history hm,
    List.mem_filter]
  simp only [Bool.and_eq_true, List.isEmpty_iff, Bool.not_eq_true']
  tauto

theorem relocateRef_eq (hm : m.Still populated) {r : FormulaRef} (hr : r.sheet? = none) (written : String) :
    m.relocateRef r written =
      if (sources m.area r).flatMap m.targets = [] then
        .ok (if (sources m.area r).any m.area.contains then m.absent else written)
      else if r.last?.isSome then m.renderBounds false (m.kept r)
      else m.render false (distinct ((sources m.area r).flatMap m.targets)) := by
  have hsources : (r.first :: r.last?.toList).map (CellRef.ofPos m.area.start.sheet) =
      sources m.area r := rfl
  have hcopies : m.allowed (distinct ((sources m.area r).flatMap m.targets)) =
      distinct ((sources m.area r).flatMap m.targets) := by
    refine allowed_eq hm fun x hx => ?_
    rw [distinct_eq_eraseDups, List.mem_eraseDups, mem_history hm] at hx
    exact sheet_of_mem_sources hx.1
  simp only [relocateRef, hr, Option.map_none, Option.getD_none, Option.isSome_none,
    Bool.false_and, hsources, hcopies, kept, List.isEmpty_iff]
  split
  · rfl
  · next hne =>
    have hdistinct : distinct ((sources m.area r).flatMap m.targets) ≠ [] := by
      intro h
      apply hne
      rw [distinct_eq_eraseDups] at h
      refine List.eq_nil_iff_forall_not_mem.2 fun x hx => ?_
      rw [← List.mem_eraseDups, h] at hx
      cases hx
    rw [if_neg hdistinct]

theorem keeps_of_copied (hm : m.Still populated) {r : FormulaRef} {written : List Char}
    {text : String} {x : CellRef} (hx : x ∈ sources m.area r) (ht : m.targets x = [x])
    (hcopied : (∀ s ∈ sources m.area r, m.area.contains s = true → populated s = true) →
      FormulaRef.Denotes text r.endpoints)
    (hshrunk : ∀ s ∈ sources m.area r, m.targets s = [s] →
      (∀ x ∈ sources m.area r, x ≠ s → m.area.contains x = true ∧ populated x = false) →
        FormulaRef.Denotes text [s.pos]) : Keeps m.area populated m.absent r written text := by
  obtain ⟨hin, hpop⟩ := hm.targets_eq_self.1 ht
  refine ⟨fun hout => ?_, fun _ => hcopied, fun _ hempty => ?_, fun s hs hsin hspop => ?_⟩
  · rw [hout x hx] at hin
    cases hin
  · rw [hempty x hx hin] at hpop
    cases hpop
  · exact hshrunk s hs (hm.targets_eq_self.2 ⟨hsin, hspop⟩)

theorem keeps_of_none (hm : m.Still populated) {r : FormulaRef} (written : List Char)
    (hempty : ∀ s ∈ sources m.area r, m.targets s = []) :
    Keeps m.area populated m.absent r written
      (if (sources m.area r).any m.area.contains then m.absent else String.ofList written) := by
  have hnot := fun s hs => hm.targets_eq_nil.1 (hempty s hs)
  refine ⟨fun hout => ?_, ?_, ?_, fun s hs hin hpop => ?_⟩
  · rw [if_neg]
    simp only [List.any_eq_true, not_exists, not_and]
    intro s hs
    rw [hout s hs]
    exact Bool.false_ne_true
  · rintro ⟨s, hs, hin⟩ hcopied
    exact absurd ⟨hin, hcopied s hs hin⟩ (hnot s hs)
  · rintro ⟨s, hs, hin⟩ -
    rw [if_pos (List.any_eq_true.2 ⟨s, hs, hin⟩)]
  · exact absurd ⟨hin, hpop⟩ (hnot s hs)

theorem map_pos_sources {area : Area} (r : FormulaRef) :
    (sources area r).map CellRef.pos = r.endpoints := by
  rw [sources, List.map_map]
  exact List.map_id' _

theorem render_keeps (hm : m.Still populated) {r : FormulaRef} (hn : r.Named) (written : List Char)
    (hlast : r.last? = none) {x : CellRef} (hx : x ∈ sources m.area r) (ht : m.targets x = [x]) :
    ∃ text, m.render false (distinct ((sources m.area r).flatMap m.targets)) = .ok text ∧
      Keeps m.area populated m.absent r written text := by
  have hends : r.endpoints = [r.first] := by
    rw [FormulaRef.endpoints, hlast]
    rfl
  have hsources : sources m.area r = [x] := by
    rw [sources, hends] at hx ⊢
    rw [List.mem_singleton.1 hx]
    rfl
  have hhistory : distinct ((sources m.area r).flatMap m.targets) = [x] := by
    rw [hsources, List.flatMap_singleton, ht]
    rfl
  have hdenotes := FormulaRef.denotes_written (named_of_mem_sources hn hx)
  rw [hhistory, render_single hm (sheet_of_mem_sources hx) (named_of_mem_sources hn hx)]
  refine ⟨_, rfl, keeps_of_copied hm hx ht ?_ ?_⟩
  · intro _
    rw [← @map_pos_sources m.area r, hsources]
    exact hdenotes
  · intro s hs _ _
    rw [hsources] at hs
    rw [List.mem_singleton.1 hs]
    exact hdenotes

theorem renderBounds_keeps (hm : m.Still populated) {r : FormulaRef} (hn : r.Named)
    (written : List Char) {x : CellRef} (hx : x ∈ sources m.area r) (ht : m.targets x = [x]) :
    ∃ text, m.renderBounds false (m.kept r) = .ok text ∧
      Keeps m.area populated m.absent r written text := by
  have hkept : x ∈ m.kept r := (mem_kept hm).2 ⟨hx, .inl ht⟩
  obtain ⟨text, htext, hdenotes⟩ := renderBounds_denotes hm (List.ne_nil_of_mem hkept)
    (fun s hs => sheet_of_mem_sources ((mem_kept hm).1 hs).1)
    (fun s hs => named_of_mem_sources hn ((mem_kept hm).1 hs).1)
  refine ⟨text, htext, keeps_of_copied hm hx ht ?_ ?_⟩
  · -- All endpoints in the area were copied to their own places, and the range keeps each of them.
    intro hcopied
    rw [← @map_pos_sources m.area r]
    apply hdenotes.congr
    intro p
    constructor
    · apply Pos.Among.mono
      rintro q hq
      obtain ⟨s, hs, rfl⟩ := List.mem_map.1 hq
      exact List.mem_map_of_mem ((mem_kept hm).1 hs).1
    · apply Pos.Among.mono
      intro q hq
      obtain ⟨s, hs, rfl⟩ := List.mem_map.1 hq
      apply List.mem_map_of_mem ((mem_kept hm).2 ⟨hs, _⟩)
      cases hin : m.area.contains s with
      | true => exact .inl (hm.targets_eq_self.2 ⟨hin, hcopied s hs hin⟩)
      | false =>
        right
        refine ⟨hm.targets_eq_nil.2 ?_, rfl⟩
        rw [hin]
        rintro ⟨h, -⟩
        cases h
  · -- The other endpoints are blank cells of the area, so that one cell is left of the range.
    intro s hs hts hother
    apply hdenotes.congr
    intro p
    constructor
    · apply Pos.Among.mono
      intro q hq
      obtain ⟨y, hy, rfl⟩ := List.mem_map.1 hq
      obtain ⟨hmem, hy⟩ := (mem_kept hm).1 hy
      by_cases hys : y = s
      · rw [hys]
        exact List.mem_singleton_self _
      · obtain ⟨hin, hnot⟩ := hother y hmem hys
        rcases hy with hy | ⟨-, hout⟩
        · rw [(hm.targets_eq_self.1 hy).2] at hnot
          cases hnot
        · rw [hin] at hout
          cases hout
    · apply Pos.Among.mono
      intro q hq
      rw [List.mem_singleton.1 hq]
      exact List.mem_map_of_mem ((mem_kept hm).2 ⟨hs, .inl hts⟩)

theorem relocateRef_keeps (hm : m.Still populated) {r : FormulaRef} (hr : r.sheet? = none) (hn : r.Named)
    (written : List Char) :
    ∃ text, m.relocateRef r (String.ofList written) = .ok text ∧
      Keeps m.area populated m.absent r written text := by
  rw [relocateRef_eq hm hr]
  by_cases hnone : (sources m.area r).flatMap m.targets = []
  · rw [if_pos hnone]
    refine ⟨_, rfl, keeps_of_none hm written ?_⟩
    intro s hs
    rcases hm.targets_cases s with ⟨ht, -⟩ | ⟨ht, -⟩
    · have := (mem_history hm).2 ⟨hs, ht⟩
      rw [hnone] at this
      cases this
    · exact ht
  · rw [if_neg hnone]
    obtain ⟨x, hx⟩ := List.exists_mem_of_ne_nil _ hnone
    obtain ⟨hx, ht⟩ := (mem_history hm).1 hx
    cases hlast : r.last? with
    | none => exact render_keeps hm hn written hlast hx ht
    | some last => exact renderBounds_keeps hm hn written hx ht

/-- What becomes of a piece of a formula: characters stay. -/
def KeepsPiece (area : Area) (populated : CellRef → Bool) (absent : String) :
    FormulaPiece → String → Prop
  | .char c, text => text = String.ofList [c]
  | .reference r written, text => r.sheet? = none → Keeps area populated absent r written text

theorem relocate_pieces {formula text : String} (h : m.relocate formula = .ok text) :
    ∃ texts, List.Forall₂ (fun piece text => m.relocatePiece piece = .ok text)
      (split formula.toList) texts ∧ text = joinText "" texts := by
  obtain ⟨texts, htexts, h⟩ := Outcomes.bind_eq_ok.1 h
  cases h
  exact ⟨texts, Outcomes.mapM_eq_ok.1 htexts, rfl⟩

theorem relocate_keeps (hm : m.Still populated) {formula text : String}
    (h : m.relocate formula = .ok text) :
    ∃ texts, List.Forall₂ (KeepsPiece m.area populated m.absent) (split formula.toList) texts ∧
      text = joinText "" texts := by
  obtain ⟨texts, hall, rfl⟩ := relocate_pieces h
  refine ⟨texts, ?_, rfl⟩
  have hnamed : ∀ piece ∈ split formula.toList, ∀ r written, piece = .reference r written →
      r.Named := by
    rintro _ hmem r written rfl
    exact named_of_mem_pieces hmem
  generalize split formula.toList = pieces at hall hnamed
  clear h
  induction hall with
  | nil => exact .nil
  | @cons piece text pieces texts hpiece _ ih =>
    refine .cons ?_ (ih fun p hp => hnamed p (List.mem_cons_of_mem _ hp))
    cases piece with
    | char c =>
      cases hpiece
      rfl
    | reference r written =>
      intro hr
      obtain ⟨text', htext, hkeeps⟩ :=
        relocateRef_keeps hm hr (hnamed _ List.mem_cons_self r written rfl) written
      have : m.relocateRef r (String.ofList written) = .ok text := hpiece
      rw [htext] at this
      cases this
      exact hkeeps

end Formula.Move

end SheetTemplate
