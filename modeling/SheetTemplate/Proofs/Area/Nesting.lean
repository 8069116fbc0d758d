import SheetTemplate.Proofs.Area.Footprint

namespace SheetTemplate

open FillM

namespace Size

theorem Holds.positive {s : Size} {start r : CellRef} (h : s.Holds start r) : s.Positive := by
  obtain ⟨-, htop, hbottom, hleft, hright⟩ := h
  exact ⟨by omega, by omega⟩

theorem Positive.holds_start {s : Size} (h : s.Positive) (start : CellRef) : s.Holds start start :=
  ⟨rfl, Int.le_refl _, Int.lt_add_of_pos_right _ h.height, Int.le_refl _,
    Int.lt_add_of_pos_right _ h.width⟩

theorem eq_of_subset {s t : Size} {start first : CellRef} (hs : s.Positive)
    (hin : ∀ r, s.Holds start r → t.Holds first r) (hcount : t.cellCount ≤ s.cellCount) :
    (start, s) = (first, t) := by
  obtain ⟨hw, hh⟩ := hs
  have hfirst := hin start ⟨rfl, Int.le_refl _, by omega, Int.le_refl _, by omega⟩
  have hlast := hin ⟨start.sheet, start.row + s.height - 1, start.col + s.width - 1⟩
    ⟨rfl, by simp only; omega, by simp only; omega, by simp only; omega, by simp only; omega⟩
  obtain ⟨hsheet, htop, -, hleft, -⟩ := hfirst
  obtain ⟨-, -, hbottom, -, hright⟩ := hlast
  simp only at hbottom hright
  have hwidth : s.width ≤ t.width := by omega
  have hheight : s.height ≤ t.height := by omega
  simp only [cellCount] at hcount
  have hwidths : s.width = t.width := by
    by_contra hne
    have hlt : s.width < t.width := by omega
    have hless := Int.mul_lt_mul_of_pos_right hlt (Int.lt_of_lt_of_le hh hheight)
    have hmore := Int.mul_le_mul_of_nonneg_left hheight (Int.le_of_lt hw)
    omega
  have hheights : s.height = t.height := by
    by_contra hne
    have hlt : s.height < t.height := by omega
    have hless := Int.mul_lt_mul_of_pos_left hlt (Int.lt_of_lt_of_le hw hwidth)
    rw [hwidths] at hcount
    omega
  cases start
  cases first
  cases s
  cases t
  simp only at *
  subst hsheet hwidths hheights
  simp only [Prod.mk.injEq, CellRef.mk.injEq, and_true, true_and]
  omega

end Size

namespace CommandEntry

def rectangle (e : CommandEntry) : CellRef × Size := (e.start, e.size)

def footprint (e : CommandEntry) : Size := (e.second?.map (Plan.joined e.start e.size)).getD e.size

def cells (e : CommandEntry) : List CellRef :=
  e.footprint.cellsFrom e.start ++ e.areas.flatMap fun area => area.2.cellsFrom area.1

def LiesIn (e f : CommandEntry) : Prop :=
  ∃ area ∈ f.areas, (∀ r ∈ e.cells, area.2.Holds area.1 r) ∧ e.size.cellCount < area.2.cellCount

instance (e f : CommandEntry) : Decidable (e.LiesIn f) := inferInstanceAs (Decidable (∃ _ ∈ _, _))

variable {e : CommandEntry} {area : CellRef × Size} {r : CellRef}

theorem mem_cells_of_area (ha : area ∈ e.areas) (hr : area.2.Holds area.1 r) : r ∈ e.cells :=
  List.mem_append_right _ (List.mem_flatMap.2 ⟨area, ha, Size.mem_cellsFrom.2 hr⟩)

theorem mem_cells_start (he : e.size.Positive) : e.start ∈ e.cells :=
  mem_cells_of_area (List.mem_cons_self : (e.start, e.size) ∈ e.areas) (he.holds_start _)

theorem mem_cells_of_sizeIn (hr : (Plan.sizeIn e area).Holds e.start r) : r ∈ e.cells := by
  have hwithin : (Plan.sizeIn e area).Within e.footprint := by
    unfold Plan.sizeIn footprint
    cases e.second? with
    | none => exact .refl _
    | some other =>
      dsimp only
      split
      · exact .refl _
      · exact Plan.within_joined _ _ _
  exact List.mem_append_left _ (Size.mem_cellsFrom.2 (hr.mono hwithin))

end CommandEntry

namespace Plan

def Laminar (p : Plan) : Prop :=
  p.entries.Pairwise fun e f =>
    (∀ r ∈ e.size.cellsFrom e.start, ¬ f.size.Holds f.start r) ∨
      (∀ r ∈ e.size.cellsFrom e.start, f.size.Holds f.start r) ∨
        ∀ r ∈ f.size.cellsFrom f.start, e.size.Holds e.start r

instance (p : Plan) : Decidable p.Laminar := inferInstanceAs (Decidable (List.Pairwise _ _))

/-- Any two commands take up different cells, or one lies in an area of the other; and no command has
two areas that share a cell. -/
structure Nested (p : Plan) : Prop where
  pairs : p.entries.Pairwise fun e f => (∀ r ∈ e.cells, r ∉ f.cells) ∨ e.LiesIn f ∨ f.LiesIn e
  areas : ∀ e ∈ p.entries, ∀ other ∈ e.second?, ∀ r ∈ e.size.cellsFrom e.start,
    ¬ other.size.Holds other.first r

instance (p : Plan) : Decidable p.Nested :=
  decidable_of_iff (_ ∧ _) ⟨fun h => ⟨h.1, h.2⟩, fun h => ⟨h.pairs, h.areas⟩⟩

variable {p : Plan} {n : Parent} {i j : Nat} {e f : CommandEntry} {area found : CellRef × Size}
  {c d : CommandEntry × Nat × Size}

theorem exists_around (hp : p.Complete) (hc : c ∈ p.children n) (hd : d ∈ p.children n)
    (hne : d.2.1 ≠ c.2.1) (harea : area ∈ d.1.areas)
    (hlarger : c.1.size.cellCount < area.2.cellCount) (hin : area.2.Holds area.1 c.1.start) :
    ∃ j f found, j ≠ d.2.1 ∧ p.entries[j]? = some f ∧ found ∈ f.areas ∧
      found.2.Holds found.1 d.1.start ∧ d.1.size.cellCount < found.2.cellCount ∧
      found.2.cellCount ≤ area.2.cellCount := by
  obtain ⟨-, found, hparent, -⟩ := (mem_children hp).1 hc
  obtain ⟨hentry, found', hparent', -⟩ := (mem_children hp).1 hd
  obtain ⟨k, hk⟩ := List.getElem?_of_mem harea
  obtain ⟨hle, j, k', rfl⟩ := parent?_least hparent hne hentry hk hlarger (contains_iff.2 hin)
  obtain rfl : found' = found :=
    Option.some.inj ((rectangle?_of_parent? hparent').symm.trans (rectangle?_of_parent? hparent))
  obtain ⟨hstart, hcases⟩ := parent?_cases hparent'
  rcases hcases with ⟨j', k'', f, heq, hj, hf, hfound, hless⟩ | ⟨j', heq, -⟩
  · exact ⟨j', f, found', hj, hf, List.mem_of_getElem? hfound, contains_iff.1 hstart, hless, hle⟩
  · cases heq

theorem pair_of_pairwise {R : CommandEntry → CommandEntry → Prop} (h : p.entries.Pairwise R)
    (he : p.entries[i]? = some e) (hf : p.entries[j]? = some f) (hne : i ≠ j) : R e f ∨ R f e := by
  obtain ⟨hi, rfl⟩ := List.getElem?_eq_some_iff.1 he
  obtain ⟨hj, rfl⟩ := List.getElem?_eq_some_iff.1 hf
  rcases Nat.lt_or_gt_of_ne hne with hlt | hlt
  · exact .inl (List.pairwise_iff_getElem.1 h i j hi hj hlt)
  · exact .inr (List.pairwise_iff_getElem.1 h j i hj hi hlt)

theorem eq_of_subset_rectangle (hp : p.Complete) (hs : p.Sized) (hc : c ∈ p.children n)
    (hd : d ∈ p.children n) (hne : d.2.1 ≠ c.2.1)
    (hin : ∀ r, c.1.size.Holds c.1.start r → d.1.size.Holds d.1.start r) :
    c.1.rectangle = d.1.rectangle := by
  have hpositive : c.1.size.Positive :=
    hs.entries _ (List.mem_of_getElem? ((mem_children hp).1 hc).1)
  refine Size.eq_of_subset hpositive hin (Int.not_lt.1 fun hlarger => ?_)
  obtain ⟨-, -, found, -, -, -, -, hless, hle⟩ := exists_around hp hc hd hne
    (List.mem_cons_self : d.1.rectangle ∈ d.1.areas) hlarger (hin _ (hpositive.holds_start _))
  exact absurd hle (Int.not_le.2 hless)

theorem Nested.eq_of_common (hn : p.Nested) (he : e ∈ p.entries) (ha : area ∈ e.areas)
    (hb : found ∈ e.areas) {r : CellRef} (hr : area.2.Holds area.1 r)
    (hr' : found.2.Holds found.1 r) : area = found := by
  have hareas := hn.areas e he
  rw [CommandEntry.areas, List.mem_cons] at ha hb
  cases hsecond : e.second? with
  | none =>
    rw [hsecond] at ha hb
    exact (ha.resolve_right List.not_mem_nil).trans (hb.resolve_right List.not_mem_nil).symm
  | some other =>
    rw [hsecond] at ha hb
    simp only [Option.map_some, Option.toList_some, List.mem_singleton] at ha hb
    have hapart : ∀ r, e.size.Holds e.start r → ¬ other.size.Holds other.first r :=
      fun r hr => hareas other hsecond r (Size.mem_cellsFrom.2 hr)
    rcases ha with rfl | rfl <;> rcases hb with rfl | rfl
    · rfl
    · exact absurd hr' (hapart r hr)
    · exact absurd hr (hapart r hr')
    · rfl

-- The area `found` that both are bound in lies around the first cell of the second one, and is no
-- larger than the area of it that the first one lies in: its command cannot take up other cells than
-- the second one, nor can one of them lie in the other.
theorem Nested.not_liesIn (hp : p.Complete) (hs : p.Sized) (hn : p.Nested) (hc : c ∈ p.children n)
    (hd : d ∈ p.children n) (hne : d.2.1 ≠ c.2.1) : ¬ c.1.LiesIn d.1 := by
  rintro ⟨area, harea, hin, hlarger⟩
  have hcentry := ((mem_children hp).1 hc).1
  have hdentry := ((mem_children hp).1 hd).1
  have hcpositive := hs.entries _ (List.mem_of_getElem? hcentry)
  have hdmem := List.mem_of_getElem? hdentry
  have hdpositive := hs.entries _ hdmem
  have hdstart : d.1.rectangle.2.Holds d.1.rectangle.1 d.1.start := hdpositive.holds_start _
  have hcstart := hin _ (CommandEntry.mem_cells_start hcpositive)
  obtain ⟨j, f, found, hj, hf, hfound, hstart, hless, hle⟩ :=
    exists_around hp hc hd hne harea hlarger hcstart
  have hinside : d.1.LiesIn f ∨ f.LiesIn d.1 := by
    have hcommon := CommandEntry.mem_cells_of_area hfound hstart
    have hown := CommandEntry.mem_cells_start hdpositive
    rcases pair_of_pairwise hn.pairs hf hdentry hj with (hapart | hlies) | (hapart | hlies)
    · exact absurd hown (hapart _ hcommon)
    · exact hlies.symm
    · exact absurd hcommon (hapart _ hown)
    · exact hlies
  rcases hinside with ⟨around, haround, hcells, -⟩ | ⟨around, haround, hcells, -⟩
  · obtain rfl : around = found :=
      hn.eq_of_common (List.mem_of_getElem? hf) haround hfound
        (hcells _ (CommandEntry.mem_cells_start hdpositive)) hstart
    have hsame : area = around := Size.eq_of_subset hcstart.positive
      (fun r hr => hcells r (CommandEntry.mem_cells_of_area harea hr)) hle
    obtain rfl : area = d.1.rectangle :=
      hn.eq_of_common hdmem harea List.mem_cons_self (hsame ▸ hstart) hdstart
    rw [← hsame] at hless
    exact absurd hless (Int.lt_irrefl _)
  · obtain rfl : around = d.1.rectangle :=
      hn.eq_of_common hdmem haround List.mem_cons_self
        (hcells _ (CommandEntry.mem_cells_of_area hfound hstart)) hdstart
    have hsame : found = d.1.rectangle := Size.eq_of_subset hstart.positive
      (fun r hr => hcells r (CommandEntry.mem_cells_of_area hfound hr)) (Int.le_of_lt hless)
    rw [hsame] at hless
    exact absurd hless (Int.lt_irrefl _)

theorem Nested.apart (hp : p.Complete) (hs : p.Sized) (hn : p.Nested) (hc : c ∈ p.children n)
    (hd : d ∈ p.children n) (hne : c.2.1 ≠ d.2.1) : ∀ r ∈ c.1.cells, r ∉ d.1.cells := by
  have hcentry := ((mem_children hp).1 hc).1
  have hdentry := ((mem_children hp).1 hd).1
  have hnot := hn.not_liesIn hp hs hc hd hne.symm
  have hnot' := hn.not_liesIn hp hs hd hc hne
  rcases pair_of_pairwise hn.pairs hcentry hdentry hne with
    (hapart | hlies | hlies) | (hapart | hlies | hlies)
  · exact hapart
  · exact absurd hlies hnot
  · exact absurd hlies hnot'
  · exact fun r hr hr' => hapart r hr' hr
  · exact absurd hlies hnot'
  · exact absurd hlies hnot

theorem Laminar.apart (hp : p.Complete) (hs : p.Sized) (hl : p.Laminar) (hc : c ∈ p.children n)
    (hd : d ∈ p.children n) (hne : c.2.1 ≠ d.2.1) :
    (∀ r, c.1.size.Holds c.1.start r → ¬ d.1.size.Holds d.1.start r) ∨
      c.1.rectangle = d.1.rectangle := by
  have hcentry := ((mem_children hp).1 hc).1
  have hdentry := ((mem_children hp).1 hd).1
  have hsub : (∀ r ∈ c.1.size.cellsFrom c.1.start, d.1.size.Holds d.1.start r) →
      c.1.rectangle = d.1.rectangle := fun hin =>
    eq_of_subset_rectangle hp hs hc hd hne.symm fun r hr => hin r (Size.mem_cellsFrom.2 hr)
  have hsub' : (∀ r ∈ d.1.size.cellsFrom d.1.start, c.1.size.Holds c.1.start r) →
      c.1.rectangle = d.1.rectangle := fun hin =>
    (eq_of_subset_rectangle hp hs hd hc hne fun r hr => hin r (Size.mem_cellsFrom.2 hr)).symm
  rcases pair_of_pairwise hl hcentry hdentry hne with
    (hapart | hin | hin) | (hapart | hin | hin)
  · exact .inl fun r hr => hapart r (Size.mem_cellsFrom.2 hr)
  · exact .inr (hsub hin)
  · exact .inr (hsub' hin)
  · exact .inl fun r hr hr' => hapart r (Size.mem_cellsFrom.2 hr') hr
  · exact .inr (hsub' hin)
  · exact .inr (hsub hin)

theorem pairwise_sorted (hp : p.Complete)
    {R : CommandEntry × Nat × Size → CommandEntry × Nat × Size → Prop}
    (hR : ∀ c ∈ p.children n, ∀ d ∈ p.children n, c.2.1 ≠ d.2.1 → R c d) :
    (p.sorted n).Pairwise R := by
  have hperm := List.mergeSort_perm (p.children n) childBefore
  have hnodup : ((p.sorted n).map (·.2.1)).Nodup := (hperm.map _).nodup_iff.2 (nodup_children hp n)
  refine (List.pairwise_map.1 hnodup).imp_of_mem fun {c d} hc hd hne => ?_
  exact hR c (hperm.mem_iff.1 hc) d (hperm.mem_iff.1 hd) hne

theorem sorted_pairwise (p : Plan) (n : Parent) :
    (p.sorted n).Pairwise fun c d => childBefore c d = true := by
  refine List.pairwise_mergeSort (fun c d e => ?_) (fun c d => ?_) _
  · simp only [childBefore, Bool.or_eq_true, Bool.and_eq_true, decide_eq_true_eq, beq_iff_eq]
    omega
  · simp only [childBefore, Bool.or_eq_true, Bool.and_eq_true, decide_eq_true_eq, beq_iff_eq]
    omega

theorem Depicts.pairwise {a : Area} (h : p.Depicts n a) {R : CellRef × Size → CellRef × Size → Prop}
    (hR : (p.sorted n).Pairwise fun c d => R (c.1.start, c.2.2) (d.1.start, d.2.2)) :
    a.bindings.Pairwise fun b c => R (b.start, b.size) (c.start, c.size) := by
  have hsame : (p.sorted n).map (fun c => (c.1.start, c.2.2)) =
      a.bindings.map fun b => (b.start, b.size) := by
    refine List.forall₂_eq_eq_eq ▸ (List.forall₂_map_left_iff.2 (List.forall₂_map_right_iff.2 ?_))
    exact h.bindings.imp fun c b hcb => by rw [hcb.2.1, hcb.2.2.1]
  have hmapped : ((p.sorted n).map fun c => (c.1.start, c.2.2)).Pairwise R := List.pairwise_map.2 hR
  rw [hsame] at hmapped
  exact List.pairwise_map.1 hmapped

end Plan

namespace FillM

/-- The bindings of every area that is built are in order. When any two commands take up different
cells, or one lies in a larger area of the other, no two bindings of an area share a cell. When only
their rectangles are so, two bindings of an area share no cell either, unless the rectangles of both
commands are the same, or one of them is bound with more than its rectangle. -/
theorem buildAreas_nests {r : Registry} {listeners : List Nat} {s t : FillState} {roots : List Area}
    (h : exec (buildAreas r listeners) s = (.ok roots, t)) :
    ∃ p : Plan, exec (planAreas r) s = (.ok p, t) ∧
      List.Forall₂ (fun n x => p.Depicts n x.1 ∧
          x.1.bindings.Pairwise (fun b c => Area.before b c = true) ∧
          (p.Nested → x.1.bindings.Pairwise fun b c => ∀ r, b.Covers r → ¬ c.Covers r) ∧
          (p.Laminar → (p.sorted n).Pairwise fun c d =>
            (∀ r, c.2.2.Holds c.1.start r → ¬ d.2.2.Holds d.1.start r) ∨
              c.1.rectangle = d.1.rectangle ∨ c.2.2 ≠ c.1.size ∨ d.2.2 ≠ d.1.size))
        p.nodes (roots.flatMap (Area.walk 0)) := by
  obtain ⟨p, hplan, rfl⟩ := buildAreas_eq_ok.1 h
  have hp := (planAreas_ok hplan).1
  have hs := planAreas_sized hplan
  refine ⟨p, hplan, (Plan.depicts_forest hp listeners).imp fun n x hx => ⟨hx, ?_, ?_, ?_⟩⟩
  · exact hx.pairwise (R := fun a b => (decide (a.1.row < b.1.row) ||
      (a.1.row == b.1.row && decide (a.1.col ≤ b.1.col))) = true) (p.sorted_pairwise n)
  · intro hn
    refine hx.pairwise (R := fun a b => ∀ r, a.2.Holds a.1 r → ¬ b.2.Holds b.1 r)
      (Plan.pairwise_sorted hp fun c hc d hd hne r hr hr' => ?_)
    obtain ⟨-, area, -, hsize⟩ := (Plan.mem_children hp).1 hc
    obtain ⟨-, area', -, hsize'⟩ := (Plan.mem_children hp).1 hd
    rw [hsize] at hr
    rw [hsize'] at hr'
    exact hn.apart hp hs hc hd hne r (CommandEntry.mem_cells_of_sizeIn hr)
      (CommandEntry.mem_cells_of_sizeIn hr')
  · intro hl
    refine Plan.pairwise_sorted hp fun c hc d hd hne => ?_
    by_cases hsize : c.2.2 = c.1.size
    · by_cases hsize' : d.2.2 = d.1.size
      · rw [hsize, hsize']
        exact (hl.apart hp hs hc hd hne).imp_right .inl
      · exact .inr (.inr (.inr hsize'))
    · exact .inr (.inr (.inl hsize))

def neighbours : Workbook where
  sheets :=
    [((({ title := "S" } : Sheet).setCell ⟨0, 0⟩
        { value := .int 1
          comment? := some "jx:area(lastCell=\"F6\")\njx:if(condition=\"true\" lastCell=\"A1\" areas=[\"A1:A1\",\"B2:D4\"])" }
      ).setCell ⟨2, 2⟩
        { value := .int 2, comment? := some "jx:each(items=\"items\" var=\"e\" lastCell=\"C3\")" }
      ).setCell ⟨4, 4⟩
        { value := .int 3, comment? := some "jx:autoRowHeight(lastCell=\"E5\")" }]

theorem neighbours_nest :
    ∃ p u root rest, exec (planAreas .builtin) (.ofWorkbook neighbours) = (.ok p, u) ∧
      exec (buildAreas .builtin []) (.ofWorkbook neighbours) = (.ok (p.forest []), u) ∧ p.Nested ∧
      (p.forest []).flatMap (Area.walk 0) = root :: rest ∧ root.1.bindings.length = 2 ∧
      root.1.bindings.Pairwise fun b c => ∀ r, b.Covers r → ¬ c.Covers r := by
  have hread : (exec (readAreas .builtin) (.ofWorkbook neighbours)).1.toOption.map (fun q =>
      (decide (q.entries.Pairwise fun a b => a.before b = true), decide q.completed.Nested,
        (q.completed.children (.root 0)).length, q.completed.nodes.head?)) =
      some (true, true, 2, some (.root 0)) := by
    decide +kernel
  obtain ⟨q, hq, hfacts⟩ := Option.map_eq_some_iff.1 hread
  simp only [Prod.mk.injEq, decide_eq_true_eq] at hfacts
  obtain ⟨hsorted, hnested, hlength, hhead⟩ := hfacts
  obtain ⟨u, hplan, hbuild⟩ := exec_buildAreas_of_pairwise [] (eq_ok_of_toOption hq) hsorted
  obtain ⟨p, hp, hwalk⟩ := buildAreas_nests hbuild
  rw [hplan] at hp
  cases hp
  obtain ⟨nodes, hnodes⟩ := List.head?_eq_some_iff.1 hhead
  rw [hnodes] at hwalk
  obtain ⟨root, rest, ⟨hdepicts, -, hapart, -⟩, -, heq⟩ := List.forall₂_cons_left_iff.1 hwalk
  exact ⟨_, u, root, rest, hplan, hbuild, hnested, heq,
    hdepicts.bindings.length_eq.symm.trans ((List.length_mergeSort _).trans hlength), hapart hnested⟩

def bindsBoth (x y : CellRef × Size) (p : Plan) : Bool :=
  decide (p.entries.Pairwise fun a b => a.before b = true) && decide p.completed.Laminar &&
    decide (p.roots.length = 1) &&
    decide ((p.completed.children (.root 0)).Pairwise fun c d => Plan.childBefore c d = true) &&
    decide ((p.completed.children (.root 0)).map (fun c => (c.1.start, c.2.2)) = [x, y])

theorem exists_both {w : Workbook} {x y : CellRef × Size}
    (hread : (exec (readAreas .builtin) (.ofWorkbook w)).1.toOption.map (bindsBoth x y) = some true) :
    ∃ p u a b c, exec (planAreas .builtin) (.ofWorkbook w) = (.ok p, u) ∧
      exec (buildAreas .builtin []) (.ofWorkbook w) = (.ok [a], u) ∧ p.Laminar ∧ a.bindings = [b, c] ∧
      (∀ r, x.2.Holds x.1 r → b.Covers r) ∧ ∀ r, y.2.Holds y.1 r → c.Covers r := by
  obtain ⟨q, hq, hfacts⟩ := Option.map_eq_some_iff.1 hread
  simp only [bindsBoth, Bool.and_eq_true, decide_eq_true_eq] at hfacts
  obtain ⟨⟨⟨⟨hsorted, hlaminar⟩, hroots⟩, horder⟩, hchildren⟩ := hfacts
  obtain ⟨u, hplan, hbuild⟩ := exec_buildAreas_of_pairwise [] (eq_ok_of_toOption hq) hsorted
  obtain ⟨area, hroot⟩ := List.length_eq_one_iff.1 hroots
  have hforest : q.completed.forest [] =
      [q.completed.grow [] (q.completed.entries.length + 1) (.root 0) area] := by
    rw [Plan.forest, show q.completed.roots = [area] from hroot]
    rfl
  have hbindings := Plan.grow_succ (p := q.completed) [] q.completed.entries.length (.root 0) area
  rw [Plan.sorted, List.mergeSort_of_pairwise horder] at hbindings
  obtain ⟨c, rest, hcs, hc, hrest⟩ := List.map_eq_cons_iff.1 hchildren
  obtain ⟨d, rfl, hd⟩ := List.map_eq_singleton_iff.1 hrest
  rw [hcs] at hbindings
  subst hc hd
  exact ⟨_, u, _, _, _, hplan, hforest ▸ hbuild, hlaminar, hbindings, fun _ hr => hr, fun _ hr => hr⟩

def twins : Workbook where
  sheets :=
    [({ title := "S" } : Sheet).setCell ⟨0, 0⟩
        { value := .int 1
          comment? := some "jx:area(lastCell=\"B1\")\njx:autoRowHeight(lastCell=\"A1\")\njx:autoRowHeight(lastCell=\"A1\")" }]

def between : Workbook where
  sheets :=
    [(({ title := "S" } : Sheet).setCell ⟨0, 0⟩
        { value := .int 1
          comment? := some "jx:area(lastCell=\"A3\")\njx:if(condition=\"true\" lastCell=\"A1\" areas=[\"A1:A1\",\"A3:A3\"])" }
      ).setCell ⟨1, 0⟩
        { value := .int 2, comment? := some "jx:autoRowHeight(lastCell=\"A2\")" }]

theorem bindings_overlap :
    (∃ p u a b c, exec (planAreas .builtin) (.ofWorkbook twins) = (.ok p, u) ∧
      exec (buildAreas .builtin []) (.ofWorkbook twins) = (.ok [a], u) ∧ p.Laminar ∧
      a.bindings = [b, c] ∧ b.Covers ⟨"S", 0, 0⟩ ∧ c.Covers ⟨"S", 0, 0⟩) ∧
    ∃ p u a b c, exec (planAreas .builtin) (.ofWorkbook between) = (.ok p, u) ∧
      exec (buildAreas .builtin []) (.ofWorkbook between) = (.ok [a], u) ∧ p.Laminar ∧
      a.bindings = [b, c] ∧ b.Covers ⟨"S", 1, 0⟩ ∧ c.Covers ⟨"S", 1, 0⟩ := by
  constructor
  · obtain ⟨p, u, a, b, c, hplan, hbuild, hlaminar, hbindings, hb, hc⟩ := exists_both (w := twins)
      (x := (⟨"S", 0, 0⟩, ⟨1, 1⟩)) (y := (⟨"S", 0, 0⟩, ⟨1, 1⟩)) (by decide +kernel)
    exact ⟨p, u, a, b, c, hplan, hbuild, hlaminar, hbindings, hb _ (by decide), hc _ (by decide)⟩
  · obtain ⟨p, u, a, b, c, hplan, hbuild, hlaminar, hbindings, hb, hc⟩ := exists_both (w := between)
      (x := (⟨"S", 0, 0⟩, ⟨1, 3⟩)) (y := (⟨"S", 1, 0⟩, ⟨1, 1⟩)) (by decide +kernel)
    exact ⟨p, u, a, b, c, hplan, hbuild, hlaminar, hbindings, hb _ (by decide), hc _ (by decide)⟩

end FillM

end SheetTemplate
