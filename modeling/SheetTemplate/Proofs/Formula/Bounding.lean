import SheetTemplate.Proofs.Formula.Denoting

namespace SheetTemplate

open Number Text

namespace Formula.Move

variable {m : Move} {r : FormulaRef}

def ends (m : Move) (r : FormulaRef) : List CellRef :=
  r.endpoints.map (CellRef.ofPos ((r.sheet?.map String.ofList).getD m.area.start.sheet))

def candidates (m : Move) (r : FormulaRef) : List CellRef :=
  m.allowed (distinct ((m.ends r).flatMap m.targets))

def staying (m : Move) (r : FormulaRef) : List CellRef :=
  (m.ends r).filter fun s => (m.targets s).isEmpty && !m.area.contains s

theorem mem_candidates (hstrategy : m.strategy = .default) {x : CellRef} :
    x ∈ m.candidates r ↔ x ∈ (m.ends r).flatMap m.targets ∧
      ((∃ y ∈ (m.ends r).flatMap m.targets, y.sheet = m.target.sheet) →
        x.sheet = m.target.sheet) := by
  simp only [candidates, allowed, hstrategy, distinct_eq_eraseDups]
  split
  · next hfar =>
    rw [List.isEmpty_iff, List.filter_eq_nil_iff] at hfar
    rw [List.mem_eraseDups, iff_self_and]
    rintro - ⟨y, hy, hnear⟩
    exact absurd (beq_iff_eq.2 hnear) (hfar y (List.mem_eraseDups.2 hy))
  · next hnear =>
    obtain ⟨y, hy⟩ := List.exists_mem_of_ne_nil _ (mt List.isEmpty_iff.2 hnear)
    rw [List.mem_filter, List.mem_eraseDups, beq_iff_eq] at hy ⊢
    exact and_congr_right' ⟨fun h _ => h, fun h => h ⟨y, hy⟩⟩

theorem candidates_ne_nil (hstrategy : m.strategy = .default)
    (hcopied : ∃ s ∈ m.ends r, m.targets s ≠ []) : m.candidates r ≠ [] := by
  obtain ⟨s, hs, hne⟩ := hcopied
  obtain ⟨x, hx⟩ := List.exists_mem_of_ne_nil _ hne
  have hx : x ∈ (m.ends r).flatMap m.targets := List.mem_flatMap.2 ⟨s, hs, hx⟩
  by_cases hnear : ∃ y ∈ (m.ends r).flatMap m.targets, y.sheet = m.target.sheet
  · obtain ⟨y, hy, hsheet⟩ := hnear
    exact List.ne_nil_of_mem ((mem_candidates hstrategy).2 ⟨hy, fun _ => hsheet⟩)
  · exact List.ne_nil_of_mem ((mem_candidates hstrategy).2 ⟨hx, fun h => absurd h hnear⟩)

theorem relocateRef_range {q : Pos} (hlast : r.last? = some q) (hne : m.candidates r ≠ [])
    (written : String) :
    m.relocateRef r written =
      m.renderBounds (r.sheet?.isSome &&
        (r.sheet?.map String.ofList).getD m.area.start.sheet != m.area.start.sheet)
        (m.candidates r ++ m.staying r) := by
  have hhistory : (m.ends r).flatMap m.targets ≠ [] := by
    intro h
    obtain ⟨x, hx⟩ := List.exists_mem_of_ne_nil _ hne
    have hx := mem_of_mem_allowed hx
    rw [distinct_eq_eraseDups, List.mem_eraseDups, h] at hx
    cases hx
  have heq : m.relocateRef r written =
      if ((m.ends r).flatMap m.targets).isEmpty then
        .ok (if (m.ends r).any m.area.contains then m.absent else written)
      else if (m.candidates r).isEmpty then .ok m.absent
      else if r.last?.isSome then m.renderBounds _ (m.candidates r ++ m.staying r)
      else m.render _ (m.candidates r) := rfl
  rw [heq, if_neg (mt List.isEmpty_iff.1 hhistory), if_neg (mt List.isEmpty_iff.1 hne), hlast]
  rfl

def positionsOn (sheet : String) (refs : List CellRef) : List Pos :=
  (refs.filter fun y => y.sheet == sheet).map CellRef.pos

theorem mem_positionsOn {sheet : String} {refs : List CellRef} {x : CellRef} (hx : x ∈ refs)
    (hsheet : x.sheet = sheet) : x.pos ∈ positionsOn sheet refs :=
  List.mem_map_of_mem (List.mem_filter.2 ⟨hx, beq_iff_eq.2 hsheet⟩)

theorem among_of_mem {ps : List Pos} {p : Pos} (h : p ∈ ps) : Pos.Among ps p :=
  ⟨⟨p, h, Int.le_refl _⟩, ⟨p, h, Int.le_refl _⟩, ⟨p, h, Int.le_refl _⟩, ⟨p, h, Int.le_refl _⟩⟩

theorem among_of_among {ps qs : List Pos} {p : Pos} (h : ∀ q ∈ qs, Pos.Among ps q)
    (hp : Pos.Among qs p) : Pos.Among ps p := by
  obtain ⟨⟨a, ha, htop⟩, ⟨b, hb, hbottom⟩, ⟨c, hc, hleft⟩, ⟨d, hd, hright⟩⟩ := hp
  obtain ⟨a', ha', htop'⟩ := (h a ha).top
  obtain ⟨b', hb', hbottom'⟩ := (h b hb).bottom
  obtain ⟨c', hc', hleft'⟩ := (h c hc).left
  obtain ⟨d', hd', hright'⟩ := (h d hd).right
  exact ⟨⟨a', ha', Int.le_trans htop' htop⟩, ⟨b', hb', Int.le_trans hbottom hbottom'⟩,
    ⟨c', hc', Int.le_trans hleft' hleft⟩, ⟨d', hd', Int.le_trans hright hright'⟩⟩

theorem renderBounds_reads (m : Move) (qualified : Bool) {x : CellRef} {rest : List CellRef}
    (hsheet : x.sheet ≠ "") (hn : ∀ y ∈ x :: rest, y.pos.Named) :
    ∃ text range, m.renderBounds qualified (x :: rest) = .ok text ∧ Spells text.toList range ∧
      range.last?.isSome = true ∧ ∀ y, y ∈ range.cells m.target.sheet ↔
        y.sheet = x.sheet ∧ Pos.Among (positionsOn x.sheet (x :: rest)) y.pos := by
  obtain ⟨near, hfilter⟩ : ∃ near, rest.filter (fun y => y.sheet == x.sheet) = near := ⟨_, rfl⟩
  have hpositions : positionsOn x.sheet (x :: rest) = (x :: near).map CellRef.pos := by
    rw [positionsOn, List.filter_cons, beq_self_eq_true, if_pos rfl, hfilter]
  have hnear : ∀ y ∈ x :: near, y.pos.Named := by
    intro y hy
    rcases List.mem_cons.1 hy with rfl | hy
    · exact hn _ List.mem_cons_self
    · rw [← hfilter] at hy
      exact hn y (List.mem_cons_of_mem x (List.mem_filter.1 hy).1)
  obtain ⟨hfirst, hlast⟩ := bounds_named hnear
  obtain ⟨-, -, -, -, hall⟩ := bounds_spec x near
  obtain ⟨htop, hleft, hbottom, hright⟩ := hall x List.mem_cons_self
  have hspells := spells_range m qualified (r := x) hsheet hfirst hlast
  refine ⟨String.ofList _, _, ?_, by rw [String.toList_ofList]; exact hspells, rfl, fun y => ?_⟩
  · simp only [renderBounds, hfilter, CellRef.name_shown hfirst, CellRef.name_shown hlast]
    simp [bind, Except.bind, pure, Except.pure, CellRef.shown, ← String.toList_inj]
  · rw [FormulaRef.cells_range _ _ (Int.le_trans htop hbottom) (Int.le_trans hleft hright),
      sheet_title?, Size.mem_cellsFrom, hpositions, ← bounds_among x near,
      Pos.among_pair (Int.le_trans htop hbottom) (Int.le_trans hleft hright)]
    constructor
    · rintro ⟨hs, h1, h2, h3, h4⟩
      simp only [CellRef.ofPos, CellRef.pos] at *
      exact ⟨hs, by omega, by omega, by omega, by omega⟩
    · rintro ⟨hs, h1, h2, h3, h4⟩
      simp only [CellRef.pos] at *
      constructor <;> simp only [CellRef.ofPos] <;> first | exact hs | omega

def LosesNothing (m : Move) (r : FormulaRef) (cells : List CellRef) : Prop :=
  (∀ x ∈ m.candidates r, x ∈ cells) ∧
    ∀ s ∈ m.staying r, ∀ x ∈ m.candidates r, s.onSheet x.sheet ∈ cells

def LeastOn (sheet : String) (refs cells : List CellRef) : Prop :=
  ∀ y, y ∈ cells ↔ y.sheet = sheet ∧ Pos.Among (refs.map CellRef.pos) y.pos

theorem named_of_mem_ends (hr : r.Named) {s : CellRef} (h : s ∈ m.ends r) : s.pos.Named := by
  obtain ⟨p, hp, rfl⟩ := List.mem_map.1 h
  rcases List.mem_cons.1 hp with rfl | hp
  · exact hr.1
  · exact hr.2 p (Option.mem_toList.1 hp)

section

variable {x : CellRef} {rest cells : List CellRef}

theorem losesNothing_iff (hx : m.candidates r = x :: rest)
    (hcells : ∀ y, y ∈ cells ↔ y.sheet = x.sheet ∧
      Pos.Among (positionsOn x.sheet (m.candidates r ++ m.staying r)) y.pos) :
    m.LosesNothing r cells ↔ (∀ y ∈ m.candidates r, y.sheet = x.sheet) ∧
      ∀ s ∈ m.staying r, s.sheet ≠ x.sheet →
        Pos.Among (positionsOn x.sheet (m.candidates r ++ m.staying r)) s.pos := by
  have hmem : x ∈ m.candidates r := hx ▸ List.mem_cons_self
  constructor
  · rintro ⟨hall, hstay⟩
    exact ⟨fun y hy => ((hcells y).1 (hall y hy)).1,
      fun s hs _ => ((hcells _).1 (hstay s hs x hmem)).2⟩
  · rintro ⟨hall, hstay⟩
    refine ⟨fun y hy => (hcells y).2 ⟨hall y hy, ?_⟩, fun s hs y hy => (hcells _).2 ⟨hall y hy, ?_⟩⟩
    · exact among_of_mem (mem_positionsOn (List.mem_append_left _ hy) (hall y hy))
    · by_cases hsheet : s.sheet = x.sheet
      · have hpos : (s.onSheet y.sheet).pos = s.pos := rfl
        rw [hpos]
        exact among_of_mem (mem_positionsOn (List.mem_append_right _ hs) hsheet)
      · exact hstay s hs hsheet

theorem leastOn_of_losesNothing (hx : m.candidates r = x :: rest)
    (hcells : ∀ y, y ∈ cells ↔ y.sheet = x.sheet ∧
      Pos.Among (positionsOn x.sheet (m.candidates r ++ m.staying r)) y.pos)
    (h : m.LosesNothing r cells) : LeastOn x.sheet (m.candidates r ++ m.staying r) cells := by
  obtain ⟨hall, hstay⟩ := h
  have hmem : x ∈ m.candidates r := hx ▸ List.mem_cons_self
  intro y
  rw [hcells, and_congr_right_iff]
  intro _
  constructor
  · apply Pos.Among.mono
    intro q hq
    obtain ⟨z, hz, rfl⟩ := List.mem_map.1 hq
    exact List.mem_map_of_mem (List.mem_filter.1 hz).1
  · apply among_of_among
    intro q hq
    obtain ⟨z, hz, rfl⟩ := List.mem_map.1 hq
    rcases List.mem_append.1 hz with hz | hz
    · exact ((hcells z).1 (hall z hz)).2
    · exact ((hcells _).1 (hstay z hz x hmem)).2

end

/-- What becomes of a range of a formula with an end that was copied: a range on the sheet of the
first candidate, the smallest one around the candidates and the staying ends on that sheet. It loses
nothing exactly if all candidates are on that sheet, and each end that stays is too or lies within;
and then it is the smallest range that does not. -/
structure Ranges (m : Move) (r : FormulaRef) (text : String) (range : FormulaRef) (x : CellRef) :
    Prop where
  spells : Spells text.toList range
  last : range.last?.isSome = true
  cells : LeastOn x.sheet ((m.candidates r ++ m.staying r).filter fun y => y.sheet == x.sheet)
    (range.cells m.target.sheet)
  whole : m.LosesNothing r (range.cells m.target.sheet) ↔
    (∀ y ∈ m.candidates r, y.sheet = x.sheet) ∧ ∀ s ∈ m.staying r, s.sheet ≠ x.sheet →
      Pos.Among (positionsOn x.sheet (m.candidates r ++ m.staying r)) s.pos
  least : m.LosesNothing r (range.cells m.target.sheet) →
    LeastOn x.sheet (m.candidates r ++ m.staying r) (range.cells m.target.sheet)

theorem relocatePiece_ranges (hm : ∀ s, ∀ y ∈ m.targets s, y.pos.Named ∧ y.sheet ≠ "")
    {q : Pos} (hr : r.Named) (hlast : r.last? = some q) {x : CellRef} {rest : List CellRef}
    (hx : m.candidates r = x :: rest) (written : List Char) :
    ∃ text range, m.relocatePiece (.reference r written) = .ok text ∧ m.Ranges r text range x := by
  have hcopy : ∀ y ∈ m.candidates r, y.pos.Named ∧ y.sheet ≠ "" := by
    intro y hy
    have hy := mem_of_mem_allowed hy
    rw [distinct_eq_eraseDups, List.mem_eraseDups] at hy
    obtain ⟨s, -, hy⟩ := List.mem_flatMap.1 hy
    exact hm s y hy
  have hnamed : ∀ y ∈ m.candidates r ++ m.staying r, y.pos.Named := by
    intro y hy
    rcases List.mem_append.1 hy with hy | hy
    · exact (hcopy y hy).1
    · exact named_of_mem_ends hr (List.mem_filter.1 hy).1
  have hsheet := (hcopy x (hx ▸ List.mem_cons_self)).2
  have hne : m.candidates r ≠ [] := hx ▸ List.cons_ne_nil x rest
  have hrefs : m.candidates r ++ m.staying r = x :: (rest ++ m.staying r) := by rw [hx]; rfl
  rw [hrefs] at hnamed
  obtain ⟨text, range, htext, hspells, hsome, hcells⟩ := renderBounds_reads m _ hsheet hnamed
  rw [← hrefs] at htext hcells
  refine ⟨text, range, (relocateRef_range hlast hne _).trans htext, hspells, hsome, hcells,
    losesNothing_iff hx hcells, leastOn_of_losesNothing hx hcells⟩

/-- What becomes of the ranges of a formula: one that begins with an end that was copied is read again
as a range in its place. -/
theorem relocate_ranges (m : Move) (hstrategy : m.strategy = .default)
    (hm : ∀ s, ∀ y ∈ m.targets s, y.pos.Named ∧ y.sheet ≠ "") {formula : String}
    {before after : List FormulaPiece} {r : FormulaRef} {written : List Char} {q : Pos}
    (hsplit : split formula.toList = before ++ .reference r written :: after)
    (hlast : r.last? = some q) (hcopied : ∃ s ∈ m.ends r, m.targets s ≠ []) :
    ∃ front text back range x rest, before.mapM m.relocatePiece = .ok front ∧
      after.mapM m.relocatePiece = .ok back ∧
      m.relocate formula = .ok (joinText "" (front ++ text :: back)) ∧
      m.candidates r = x :: rest ∧ m.Ranges r text range x := by
  have hpieces : ∀ p ∈ split formula.toList, ∃ text, m.relocatePiece p = .ok text :=
    fun p hp => relocatePiece_ok (fun s y hy => (hm s y hy).1) hp
  rw [hsplit] at hpieces
  choose! g hg using hpieces
  have hr : r.Named := named_of_mem_pieces (hsplit ▸ List.mem_append_right _ List.mem_cons_self)
  obtain ⟨x, rest, hx⟩ := List.exists_cons_of_ne_nil (candidates_ne_nil hstrategy hcopied)
  obtain ⟨text, range, htext, hranges⟩ := relocatePiece_ranges hm hr hlast hx written
  have hown : g (.reference r written) = text :=
    Except.ok.inj ((hg _ (List.mem_append_right _ List.mem_cons_self)).symm.trans htext)
  refine ⟨before.map g, text, after.map g, range, x, rest,
    Outcomes.mapM_eq_map fun p hp => hg p (List.mem_append_left _ hp),
    Outcomes.mapM_eq_map fun p hp => hg p (List.mem_append_right _ (List.mem_cons_of_mem _ hp)),
    ?_, hx, hranges⟩
  rw [relocate, hsplit, Outcomes.mapM_eq_map hg, List.map_append, List.map_cons, hown]
  rfl

def paged : Move where
  area := ⟨⟨"T", 0, 0⟩, ⟨2, 1⟩, [], [], true⟩
  targets := fun s => if s = ⟨"T", 0, 0⟩ then [⟨"P", 0, 0⟩] else []
  target := ⟨"P", 0, 1⟩
  strategy := .default
  absent := "0"

theorem paged_ranges :
    (∃ front text back range x rest,
      [.char 'S', .char 'U', .char 'M', .char '('].mapM paged.relocatePiece = .ok front ∧
      [.char ')'].mapM paged.relocatePiece = .ok back ∧
      paged.relocate "SUM(A1:A3)" = .ok (joinText "" (front ++ text :: back)) ∧
      paged.candidates ⟨none, ⟨0, 0⟩, some ⟨2, 0⟩⟩ = x :: rest ∧
      paged.Ranges ⟨none, ⟨0, 0⟩, some ⟨2, 0⟩⟩ text range x) ∧
    (paged.relocate "SUM(A1:A3)").toOption = some "SUM(A1:A1)" := by
  have hsplit : split "SUM(A1:A3)".toList = [.char 'S', .char 'U', .char 'M', .char '('] ++
      .reference ⟨none, ⟨0, 0⟩, some ⟨2, 0⟩⟩ "A1:A3".toList :: [.char ')'] := by
    decide +kernel
  have hm : ∀ s, ∀ y ∈ paged.targets s, y.pos.Named ∧ y.sheet ≠ "" := by
    intro s y hy
    simp only [paged] at hy
    split at hy
    · rw [List.mem_singleton.1 hy]
      exact ⟨⟨by decide, by decide, by decide⟩, by decide⟩
    · cases hy
  exact ⟨relocate_ranges paged rfl hm hsplit rfl ⟨⟨"T", 0, 0⟩, by decide, by decide⟩,
    by decide +kernel⟩

end Formula.Move

end SheetTemplate
