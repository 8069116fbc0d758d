import SheetTemplate.Proofs.Area.Seating
import SheetTemplate.Proofs.Area.Translation
import SheetTemplate.Proofs.Fill.Beside
import SheetTemplate.Proofs.Fill.Repeating
import SheetTemplate.Proofs.Formula.Overruling

/-!
Root areas are independent. Where their trees take up different cells of the template, and the
rectangles that they report stay clear of each other and of the areas, a workbook shows the same
whatever the order is in which the areas are filled.
-/

namespace SheetTemplate

open FillM FillState

structure Footprint.Apart (f g : Footprint) : Prop where
  cells : ∀ r, f.cells r → ¬ g.cells r
  origins : ∀ r, f.origins r → ¬ g.origins r

theorem Footprint.Apart.symm {f g : Footprint} (h : f.Apart g) : g.Apart f :=
  ⟨fun r hg hf => h.cells r hf hg, fun r hg hf => h.origins r hf hg⟩

abbrev Filling := Area × Size

namespace Filling

def print (p : Filling) : Footprint := p.1.print p.2

def around (l : List Filling) : Footprint where
  cells r := ∀ p ∈ l, ¬ p.print.cells r
  origins r := ∀ p ∈ l, ¬ p.print.origins r

structure Clears (p q : Filling) : Prop where
  rectangles : ∀ r, p.2.Holds p.1.start r → ¬ q.2.Holds q.1.start r
  left : ∀ r, p.2.Holds p.1.start r → q.1.contains r = false
  right : ∀ r, q.2.Holds q.1.start r → p.1.contains r = false

theorem Clears.apart {p q : Filling} (h : Clears p q)
    (huses : ∀ x, p.1.Occupies x → ¬ q.1.Occupies x) : p.print.Apart q.print := by
  refine ⟨?_, huses⟩
  rintro r (hp | hp) (hq | hq)
  · exact huses r (.inl hp) (.inl hq)
  · rw [h.right r hq] at hp
    cases hp
  · rw [h.left r hp] at hq
    cases hq
  · exact h.rectangles r hp hq

end Filling

namespace FillState.Parallel

variable {T : Template} {V : Value → Prop} {s t u : FillState} {f g : Footprint} {p : Filling}
  {l : List Filling}

theorem beside (h : Parallel T V f.rest s t) (hapart : f.Apart g) : Parallel T V g s t :=
  h.mono hapart.symm.cells hapart.symm.origins

theorem cons (h : Parallel T V p.print.rest s t) (h' : Parallel T V (Filling.around l) t u) :
    Parallel T V (Filling.around (p :: l)) s u := by
  refine (h.mono ?_ ?_).trans (h'.mono ?_ ?_)
  · exact fun r hr => hr p List.mem_cons_self
  · exact fun x hx => hx p List.mem_cons_self
  · exact fun r hr q hq => hr q (List.mem_cons_of_mem p hq)
  · exact fun x hx q hq => hx q (List.mem_cons_of_mem p hq)

theorem among (h : Parallel T V (Filling.around l) s t)
    (hapart : ∀ q ∈ l, p.print.Apart q.print) : Parallel T V p.print s t :=
  h.mono (fun r hr q hq => (hapart q hq).cells r hr) fun x hx q hq => (hapart q hq).origins x hx

theorem everywhere (haround : Parallel T V (Filling.around l) s t)
    (hprints : ∀ p ∈ l, Parallel T V p.print s t) :
    Parallel T V ⟨fun _ => True, fun _ => True⟩ s t where
  left := haround.left
  right := haround.right
  titles := haround.titles
  data := haround.data
  run := haround.run
  looks r _ := by
    by_cases h : ∃ p ∈ l, p.print.cells r
    · obtain ⟨p, hp, hr⟩ := h
      exact (hprints p hp).looks r hr
    · exact haround.looks r fun p hp hr => h ⟨p, hp, hr⟩
  history x _ := by
    by_cases h : ∃ p ∈ l, p.print.origins x
    · obtain ⟨p, hp, hx⟩ := h
      exact (hprints p hp).history x hx
    · exact haround.history x fun p hp hx => h ⟨p, hp, hx⟩

end FillState.Parallel

namespace FillOptions

variable {o : FillOptions} {T : Template} {V : Value → Prop} {s t t' w : FillState}
  {roots : List Area} {l : List Filling} {p : Filling}

def fillings (o : FillOptions) : List Area → FillState → List Filling
  | [], _ => []
  | a :: rest, s => (a, o.filledSize a s) :: o.fillings rest (exec (o.fillArea a) s).2

theorem map_fillings (o : FillOptions) (roots : List Area) (s : FillState) :
    (o.fillings roots s).map Prod.fst = roots := by
  induction roots generalizing s with
  | nil => rfl
  | cons a rest ih => rw [fillings, List.map_cons, ih]

def Ran (o : FillOptions) (T : Template) (V : Value → Prop) (s t : FillState) (p : Filling) : Prop :=
  ∃ u v, exec (o.fillArea p.1) u = (.ok (), v) ∧ o.filledSize p.1 u = p.2 ∧
    Parallel T V p.print s u ∧ Parallel T V p.print v t

structure Sortable (o : FillOptions) (T : Template) (V : Value → Prop) (roots : List Area) : Prop where
  memoryless : o.host.Memoryless
  bare : T.Bare
  definite : o.host.Definite V T
  places : ∀ i, V (.int i)
  uses : ∀ a ∈ roots, a.Uses (Command.Definite o.host V)
  regular : ∀ a ∈ roots, a.Regular

theorem Sortable.subset {roots' : List Area} (h : o.Sortable T V roots) (hsub : roots' ⊆ roots) :
    o.Sortable T V roots' :=
  { h with
    uses := fun a ha => h.uses a (hsub ha)
    regular := fun a ha => h.regular a (hsub ha) }

namespace Sortable

variable {a : Area}

theorem beside (h : o.Sortable T V roots) (ha : a ∈ roots) (hs : s.Level T V)
    (hplace : s.context.Unplaced) (hr : exec (o.fillArea a) s = (.ok (), t)) :
    Parallel T V (Filling.print (a, o.filledSize a s)).rest s t ∧ t.context.Unplaced ∧
      ∀ x, ∀ r ∈ t.history.targets x, r ∈ s.history.targets x ∨ (o.filledSize a s).Holds a.start r := by
  obtain ⟨hrest, hcopies⟩ := fillArea_beside h.memoryless h.bare h.definite h.places (h.uses a ha)
    (h.regular a ha) hs hplace hr
  refine ⟨hrest, ⟨?_, ?_⟩, hcopies⟩
  · rw [hrest.run, hplace.row]
  · rw [hrest.run, hplace.column]

theorem parallel (h : o.Sortable T V roots) (ha : a ∈ roots) {f : Footprint} {s' : FillState}
    (hR : Parallel T V f s s') (hr : exec (o.fillArea a) s = (.ok (), t))
    (hr' : exec (o.fillArea a) s' = (.ok (), t')) :
    Parallel T V f t t' ∧ o.filledSize a s' = o.filledSize a s :=
  fillArea_parallel h.memoryless h.bare h.definite h.places (h.uses a ha) hR hr hr'

-- By induction on the areas: what the first takes up, the fills of the others leave alone.
theorem ran (h : o.Sortable T V roots) (hs : s.Level T V) (hplace : s.context.Unplaced)
    (hapart : (o.fillings roots s).Pairwise fun p q => p.print.Apart q.print)
    (hr : exec (roots.forM o.fillArea) s = (.ok (), t)) :
    Parallel T V (Filling.around (o.fillings roots s)) s t ∧
      ∀ p ∈ o.fillings roots s, o.Ran T V s t p := by
  induction roots generalizing s with
  | nil =>
    cases hr
    exact ⟨.refl hs _, fun _ hp => (nomatch hp)⟩
  | cons a rest ih =>
    obtain ⟨_, u, hu, hr⟩ := bind_eq_ok.1 hr
    rw [fillings, hu, List.pairwise_cons] at hapart
    obtain ⟨hfirst, hapart⟩ := hapart
    obtain ⟨hrest, huplace, -⟩ := h.beside List.mem_cons_self hs hplace hu
    obtain ⟨haround, hran⟩ :=
      ih (h.subset (List.subset_cons_self a rest)) hrest.right huplace hapart hr
    rw [fillings, hu]
    refine ⟨hrest.cons haround, fun q hq => ?_⟩
    rcases List.mem_cons.1 hq with rfl | hq
    · exact ⟨s, u, hu, rfl, .refl hs _, haround.among hfirst⟩
    · obtain ⟨u', v', hran, hsize, hbefore, hafter⟩ := hran q hq
      exact ⟨u', v', hran, hsize, (hrest.beside (hfirst q hq)).trans hbefore, hafter⟩

-- By induction on the fillings that are left: on each of them the workbook is still as it was when all
-- began, so that its fill does what it did in the other order.
theorem again (h : o.Sortable T V roots) (hplace : w.context.Unplaced)
    (hroots : ∀ p ∈ l, p.1 ∈ roots) (hran : ∀ p ∈ l, o.Ran T V s t p)
    (hw : w.Level T V) (hbefore : ∀ p ∈ l, Parallel T V p.print s w)
    (hapart : l.Pairwise fun p q => p.print.Apart q.print)
    (hr : exec ((l.map Prod.fst).forM o.fillArea) w = (.ok (), t')) :
    Parallel T V (Filling.around l) w t' ∧ ∀ p ∈ l, Parallel T V p.print t t' := by
  induction l generalizing w with
  | nil =>
    cases hr
    exact ⟨.refl hw _, fun _ hp => (nomatch hp)⟩
  | cons p rest ih =>
    rw [List.pairwise_cons] at hapart
    rw [List.forall_mem_cons] at hran hbefore hroots
    obtain ⟨hfirst, hapart⟩ := hapart
    obtain ⟨_, w', hw', hr⟩ := bind_eq_ok.1 hr
    obtain ⟨⟨u, v, hu, hsize, hsu, hvt⟩, hran⟩ := hran
    obtain ⟨hvw, hsame⟩ := h.parallel hroots.1 (hsu.symm.trans hbefore.1) hu hw'
    obtain ⟨hrest, hplace', -⟩ := h.beside hroots.1 hw hplace hw'
    have hprint : Filling.print (p.1, o.filledSize p.1 w) = p.print := by
      rw [hsame, hsize]
    rw [hprint] at hrest
    have hlater : ∀ q ∈ rest, Parallel T V q.print s w' := fun q hq =>
      (hbefore.2 q hq).trans (hrest.beside (hfirst q hq))
    obtain ⟨haround, hprints⟩ := ih hplace' hroots.2 hran hrest.right hlater hapart hr
    refine ⟨hrest.cons haround, List.forall_mem_cons.2 ⟨?_, hprints⟩⟩
    exact (hvt.symm.trans hvw).trans (haround.among hfirst)

end Sortable

theorem exists_fillings_perm {roots roots' : List Area} (o : FillOptions) (s : FillState)
    (hperm : roots'.Perm roots) :
    ∃ l : List Filling, l.map Prod.fst = roots' ∧ l.Perm (o.fillings roots s) := by
  have hmap : List.Forall₂ (fun a (p : Filling) => p.1 = a) roots (o.fillings roots s) := by
    conv => enter [2]; rw [← map_fillings o roots s]
    rw [List.forall₂_map_left_iff]
    exact List.forall₂_same.2 fun _ _ => rfl
  obtain ⟨l, hl, hsame⟩ := List.perm_comp_forall₂ hperm hmap
  refine ⟨l, ?_, hsame⟩
  clear hmap hsame hperm
  induction hl with
  | nil => rfl
  | cons h _ ih => rw [List.map_cons, h, ih]

theorem mem_of_mem_fillings (h : p ∈ o.fillings roots s) : p.1 ∈ roots := by
  rw [← map_fillings o roots s]
  exact List.mem_map_of_mem h

theorem Sortable.agree (h : o.Sortable T V roots) (hs : s.Level T V) (hplace : s.context.Unplaced)
    (hapart : (o.fillings roots s).Pairwise fun p q => p.print.Apart q.print)
    (hl : l.Perm (o.fillings roots s)) (hr : exec (roots.forM o.fillArea) s = (.ok (), t))
    (hr' : exec ((l.map Prod.fst).forM o.fillArea) s = (.ok (), t')) :
    (∀ p ∈ o.fillings roots s, o.Ran T V s t p) ∧
      Parallel T V ⟨fun _ => True, fun _ => True⟩ t t' := by
  obtain ⟨haround, hran⟩ := h.ran hs hplace hapart hr
  obtain ⟨haround', hprints⟩ := h.again hplace
    (fun p hp => mem_of_mem_fillings (hl.mem_iff.1 hp)) (fun p hp => hran p (hl.mem_iff.1 hp)) hs
    (fun p _ => .refl hs _) ((hl.pairwise_iff fun h => h.symm).2 hapart) hr'
  refine ⟨hran, .everywhere (l := l) ?_ hprints⟩
  refine (haround.symm.mono (fun r hr p hp => ?_) fun x hx p hp => ?_).trans haround'
  · exact hr p (hl.mem_iff.2 hp)
  · exact hx p (hl.mem_iff.2 hp)

end FillOptions

theorem filter_flatMap_of_perm {α β : Type} {g : α → List β} {p : β → Bool} {l l' : List α}
    (hperm : l'.Perm l)
    (hone : l.Pairwise fun a b => (g a).filter p = [] ∨ (g b).filter p = []) :
    (l'.flatMap g).filter p = (l.flatMap g).filter p := by
  rw [List.filter_flatMap, List.filter_flatMap]
  induction hperm with
  | nil => rfl
  | cons a _ ih =>
    rw [List.flatMap_cons, List.flatMap_cons, ih (List.pairwise_cons.1 hone).2]
  | swap a b l =>
    obtain ⟨hfirst, -⟩ := List.pairwise_cons.1 hone
    simp only [List.flatMap_cons]
    rcases hfirst b List.mem_cons_self with h | h
    · rw [h, List.nil_append, List.nil_append]
    · rw [h, List.nil_append, List.nil_append]
  | trans _ h ih ih' =>
    rw [ih ((h.pairwise_iff fun h => h.symm).2 hone), ih' hone]

namespace Formula

variable {s s' t t' : FillState} {x : CellRef}

theorem relocations_congr {H H' : History} (h : ∀ x, (H.of x).Alike (H'.of x)) (a : Area)
    (T : Template) : relocations a T H' = relocations a T H := by
  have htargets : H'.targets = H.targets := funext fun x => (h x).targets
  simp only [relocations, relocateCopy, moveFor, htargets, (h _).formulas]

theorem mem_relocations {a : Area} {T : Template} {H : History} {c : CellRef × Except Failure String}
    (h : c ∈ relocations a T H) : ∃ x, a.contains x = true ∧ c.1 ∈ H.targets x := by
  obtain ⟨i, hi, hc⟩ := List.mem_flatMap.1 h
  obtain ⟨r, hr, rfl⟩ := List.mem_map.1 hc
  exact ⟨i.ref, (List.mem_filter.1 hi).2, hr⟩

theorem Overruled.content_eq {moves moves' : List (CellRef × Except Failure String)}
    (h : Overruled moves s t) (h' : Overruled moves' s' t')
    (hmoves : moves'.filter (·.1 == x) = moves.filter (·.1 == x))
    (htakes : s'.Takes x ↔ s.Takes x) (hcontent : s'.book.content x = s.book.content x) :
    t'.book.content x = t.book.content x := by
  have hlast : ∀ l : List (CellRef × Except Failure String),
      l.reverse.find? (·.1 == x) = (l.filter (·.1 == x)).reverse.head? := by
    intro l
    rw [← List.filter_reverse, List.head?_filter]
  have hnone : ∀ {l : List (CellRef × Except Failure String)},
      l.reverse.find? (·.1 == x) = none → ∀ c ∈ l, c.1 ≠ x := by
    intro l hl c hc hcx
    exact List.find?_eq_none.1 hl c (List.mem_reverse.2 hc) (beq_iff_eq.2 hcx)
  have hsame : moves'.reverse.find? (·.1 == x) = moves.reverse.find? (·.1 == x) := by
    rw [hlast, hlast, hmoves]
  by_cases hx : s.Takes x
  · cases hmove : moves.reverse.find? (·.1 == x) with
    | none =>
      rw [h.spared x (.inl (hnone hmove)), h'.spared x (.inl (hnone (hsame.trans hmove))), hcontent]
    | some c =>
      obtain ⟨formula, held, hc, hheld, hshown⟩ := h.moved x c hmove hx
      obtain ⟨formula', held', hc', hheld', hshown'⟩ :=
        h'.moved x c (hsame.trans hmove) (htakes.2 hx)
      rw [hc] at hc'
      cases hc'
      rw [hheld] at hheld'
      cases hheld'
      rw [hshown, hshown']
  · rw [h.spared x (.inr hx), h'.spared x (.inr fun hx' => hx (htakes.1 hx')), hcontent]

end Formula

theorem FillState.Level.takes {T : Template} {V : Value → Prop} {s : FillState} {r : CellRef}
    (h : s.Level T V) : s.Takes r ↔ r.sheet ∈ s.book.titles := by
  have hcovers : ¬ s.book.Covers r := by
    intro hcovers
    obtain ⟨x, hx, hslot⟩ := Option.bind_eq_some_iff.1 hcovers
    have hnone : s.book.look? r = none := by
      rw [Workbook.look?_of_find? hx, Sheet.look?_eq_none]
      exact hslot
    rw [h.bare.free r hnone] at hx
    cases hx
  rw [takes_iff, h.deleted]
  exact ⟨fun ht => ht.2.1, fun ht => ⟨rfl, ht, hcovers⟩⟩

namespace FillOptions

variable {o : FillOptions} {T : Template} {V : Value → Prop} {s s' t t' u u' : FillState}
  {roots : List Area} {l : List Filling} {p : Filling}

theorem Sortable.copies_within (h : o.Sortable T V roots) (hplace : s.context.Unplaced)
    (hhistory : s.history = ∅) (hp : p.1 ∈ roots) (hran : o.Ran T V s t p) {x r : CellRef}
    (hx : p.1.contains x = true) (hr : r ∈ t.history.targets x) : p.2.Holds p.1.start r := by
  obtain ⟨u, v, hu, hsize, hsu, hvt⟩ := hran
  have huplace : u.context.Unplaced := ⟨by rw [hsu.run, hplace.row], by rw [hsu.run, hplace.column]⟩
  obtain ⟨-, -, hcopies⟩ := h.beside hp hsu.right huplace hu
  have hbefore : u.history.targets x = s.history.targets x := (hsu.history x (.inl hx)).targets
  have hafter : t.history.targets x = v.history.targets x := (hvt.history x (.inl hx)).targets
  rw [hafter] at hr
  rw [hsize] at hcopies
  refine (hcopies x r hr).resolve_left fun hold => ?_
  rw [hbefore, hhistory] at hold
  cases hold

theorem Sortable.moves_alone (h : o.Sortable T V roots) (hplace : s.context.Unplaced)
    (hhistory : s.history = ∅) (hroots : ∀ p ∈ l, p.1 ∈ roots) (hran : ∀ p ∈ l, o.Ran T V s t p)
    (hclears : l.Pairwise Filling.Clears) (x : CellRef) :
    l.Pairwise fun p q =>
      (Formula.relocations p.1 T t.history).filter (·.1 == x) = [] ∨
        (Formula.relocations q.1 T t.history).filter (·.1 == x) = [] := by
  have hholds : ∀ p ∈ l, ∀ c ∈ Formula.relocations p.1 T t.history, (c.1 == x) = true →
      p.2.Holds p.1.start x := by
    intro p hp c hc hcx
    obtain ⟨y, hy, hmem⟩ := Formula.mem_relocations hc
    rw [eq_of_beq hcx] at hmem
    exact h.copies_within hplace hhistory (hroots p hp) (hran p hp) hy hmem
  refine hclears.imp_of_mem fun {p q} hp hq hpq => ?_
  simp only [List.filter_eq_nil_iff]
  by_cases hx : p.2.Holds p.1.start x
  · exact .inr fun c hc hcx => hpq.rectangles x hx (hholds q hq c hc hcx)
  · exact .inl fun c hc hcx => hx (hholds p hp c hc hcx)

theorem Sortable.relocated (h : o.Sortable T V roots) (hplace : s.context.Unplaced)
    (hhistory : s.history = ∅) (hran : ∀ p ∈ o.fillings roots s, o.Ran T V s t p)
    (hclears : (o.fillings roots s).Pairwise Filling.Clears) (hl : l.Perm (o.fillings roots s))
    (hall : Parallel T V ⟨fun _ => True, fun _ => True⟩ t t')
    (hr : exec (roots.forM Formula.relocateArea) t = (.ok (), u))
    (hr' : exec ((l.map Prod.fst).forM Formula.relocateArea) t' = (.ok (), u')) (x : CellRef) :
    u'.book.content x = u.book.content x := by
  refine (Formula.relocateAreas_overruled hr).content_eq (Formula.relocateAreas_overruled hr') ?_ ?_ ?_
  · rw [hall.left.template, hall.right.template]
    simp only [Formula.relocations_congr fun x => hall.history x trivial]
    conv => enter [2, 2]; rw [← map_fillings o roots s]
    rw [List.flatMap_map, List.flatMap_map]
    exact filter_flatMap_of_perm hl
      (h.moves_alone hplace hhistory (fun _ => mem_of_mem_fillings) hran hclears x)
  · rw [hall.left.takes, hall.right.takes, hall.titles]
  · rw [Workbook.content_eq_look?, hall.looks x trivial, ← Workbook.content_eq_look?]

theorem lastSteps_same (hwrite : Leads Remarked o.beforeWrite) (hT : s.template.Keyed)
    (htemplate : s'.template = s.template) (hdeleted : s.deleted = []) (hdeleted' : s'.deleted = [])
    (hr : exec o.lastSteps s = (.ok (), t)) (hr' : exec o.lastSteps s' = (.ok (), t'))
    {x : CellRef} (hsame : s'.book.content x = s.book.content x) :
    t'.book.content x = t.book.content x := by
  obtain ⟨-, -, hspares⟩ := lastSteps_spares hwrite hdeleted hT hr
  obtain ⟨-, -, hspares'⟩ := lastSteps_spares hwrite hdeleted' (htemplate ▸ hT) hr'
  have hspare' := hspares' x
  rw [htemplate, hsame] at hspare'
  exact (hspares x).unique hspare'

section Built

variable {name : String} {data : Names} {streams : Streams} {book : Workbook}
  {r : Except Failure (List Area)}

theorem level_built (hmerged : ∀ title ∈ book.titles, book.Unmerged title)
    (hdata : Meaning.AllIn V data.find?)
    (hbuild : exec (o.build { data := data } streams) (o.opened name book) = (r, s)) :
    s.Level s.template V ∧ s.template.Bare := by
  have hbuilt := build_annotated hbuild
  have hbook : s.book = (ofWorkbook book).book := hbuilt.book
  have htitles : s.book.titles = book.titles := by rw [hbook, ofWorkbook_titles]
  have hnone : ∀ {title : String}, title ∉ book.titles → s.book.find? title = none := by
    intro title htitle
    rwa [← htitles, Workbook.mem_titles, Option.not_isSome_iff_eq_none] at htitle
  refine ⟨⟨rfl, hbuilt.deleted, ⟨fun title => ?_, fun x hx => ?_⟩, ?_, ?_, ?_⟩, ?_⟩
  · rw [hbook, ofWorkbook_blocks]
    by_cases htitle : title ∈ book.titles
    · obtain ⟨sheet, hfind, hblocks, -⟩ := hmerged title htitle
      rw [Workbook.blocks_of_find? hfind, hblocks]
    · rw [Workbook.mem_titles, Option.not_isSome_iff_eq_none] at htitle
      rw [Workbook.blocks, htitle]
      rfl
  · by_cases htitle : x.sheet ∈ book.titles
    · obtain ⟨-, hcovers, -⟩ := unmerged_built (hmerged _ htitle) hbuild
      cases hfind : s.book.find? x.sheet with
      | none => rfl
      | some sheet =>
        rw [Workbook.look?_of_find? hfind, Sheet.look?_eq_none] at hx
        exact absurd ((Workbook.slot?_of_find? _ hfind).trans hx) (hcovers x rfl)
    · exact hnone htitle
  · rw [hbuilt.context]
    exact Context.sound_of_data _
  · rw [hbuilt.context]
    exact hdata
  · rw [hbuilt.context]
    intro n v hv
    cases hv
  · intro title snapshot hsnapshot
    by_cases htitle : title ∈ book.titles
    · exact (unmerged_built (hmerged _ htitle) hbuild).2.2 snapshot hsnapshot
    · have hblocks := hbuilt.merged title
      have hmissing : (Template.ofWorkbook (ofWorkbook book).book).sheet? title = none := by
        rw [Template.sheet?_ofWorkbook, ← hbook, hnone htitle]
        rfl
      rw [hsnapshot, show (({ o.opened name book with context := { data := data }, streams := streams } :
        FillState).template.sheet? title) = none from hmissing] at hblocks
      cases hblocks

end Built

/-- Root areas are independent. In a workbook without merged blocks, with areas that have a size and
commands that stay on their sheet and merge nothing, let what expressions come to be told by the names,
and let listeners and updaters have no memory. When the trees of the areas take up different cells of the
template, and the rectangles that their fills report meet neither each other nor the other areas, then
in whatever order the areas are filled, all cells come to show the same. -/
theorem fillAreas_permutes {name : String} {data : Names} {streams : Streams} {book : Workbook}
    {roots' : List Area} {t' : FillState} (hbook : book.Regular)
    (hmerged : ∀ title ∈ book.titles, book.Unmerged title)
    (hbuild : exec (o.build { data := data } streams) (o.opened name book) = (.ok roots, s))
    (hsize : ∀ x ∈ roots.flatMap (Area.walk 0), 0 < x.1.size.width ∧ 0 < x.1.size.height)
    (hroots : ∀ a ∈ roots, a.Uses (Command.Definite o.host V))
    (htexts : o.host.Definite V s.template) (hdata : Meaning.AllIn V data.find?)
    (hV : ∀ i, V (.int i)) (hh : o.host.Memoryless) (hwrite : Leads Remarked o.beforeWrite)
    (huses : roots.Pairwise fun a b => ∀ x, a.Occupies x → ¬ b.Occupies x)
    (hclears : (o.fillings roots s).Pairwise Filling.Clears) (hperm : roots'.Perm roots)
    (hr : exec (o.fillAreas roots) s = (.ok (), t))
    (hr' : exec (o.fillAreas roots') s = (.ok (), t')) (x : CellRef) :
    t'.book.content x = t.book.content x := by
  have hbuilt := build_annotated hbuild
  obtain ⟨hlevel, hbare⟩ := level_built hmerged hdata hbuild
  have hplace : s.context.Unplaced := by
    rw [hbuilt.context]
    exact ⟨rfl, rfl⟩
  have hregular : ∀ a ∈ roots, a.Regular := by
    obtain ⟨_, u, hstart, hbuild⟩ := bind_eq_ok.1 hbuild
    exact buildAreas_regular (fun _ hc => Command.Definite.isPlain hc) hbuild hsize hroots
  have h : o.Sortable s.template V roots := ⟨hh, hbare, htexts, hV, hroots, hregular⟩
  obtain ⟨_, u, hu, hr⟩ := bind_eq_ok.1 hr
  obtain ⟨_, v, hv, hlast⟩ := bind_eq_ok.1 hr
  obtain ⟨_, u', hu', hr'⟩ := bind_eq_ok.1 hr'
  obtain ⟨_, v', hv', hlast'⟩ := bind_eq_ok.1 hr'
  have huses' : (o.fillings roots s).Pairwise fun p q => ∀ x, p.1.Occupies x → ¬ q.1.Occupies x := by
    rwa [← map_fillings o roots s, List.pairwise_map] at huses
  have hapart : (o.fillings roots s).Pairwise fun p q => p.print.Apart q.print :=
    hclears.imp₂ (fun _ _ => Filling.Clears.apart) huses'
  obtain ⟨l, rfl, hl⟩ := exists_fillings_perm o s hperm
  obtain ⟨hran, hall⟩ := h.agree hlevel hplace hapart hl hu hu'
  have hshown := h.relocated hplace hbuilt.history hran hclears hl hall hv hv' x
  have hextends : ∀ {areas : List Area}, Leads Extends (areas.forM Formula.relocateArea) :=
    leads_forM fun a _ => leads_extends_relocateArea a
  have hv := hextends.apply hv
  have hv' := hextends.apply hv'
  have htemplate : v.template = s.template := hv.template.trans hall.left.template
  refine lastSteps_same hwrite ?_ ?_ ?_ ?_ hlast hlast' hshown
  · exact htemplate ▸ hbuilt.keyed (keyed_ofWorkbook hbook)
  · exact (hv'.template.trans hall.right.template).trans htemplate.symm
  · exact hv.deleted.trans hall.left.deleted
  · exact hv'.deleted.trans hall.right.deleted

def summed : Workbook where
  sheets :=
    [(({ title := "S" } : Sheet).setCell ⟨0, 0⟩
        { value := .text "${e}", type := .text
          comment? := some "jx:area(lastCell=\"A1\")\njx:each(items=\"items\" var=\"e\" lastCell=\"A1\")" }
      ).setCell ⟨0, 2⟩
        { value := .text "=SUM(A1)", type := .formula
          comment? := some "jx:area(lastCell=\"C1\")" }]

def lineBlock : RepeatedBlock where
  start := ⟨"S", 0, 0⟩
  width := 1
  head := 0
  body := 1
  foot := 0
  each := Area.columnSpec

def sumArea : Area := { start := ⟨"S", 0, 2⟩, size := ⟨1, 1⟩ }

def isSumArea : Area → Bool
  | ⟨start, size, [], [], true⟩ => start = sumArea.start && size = sumArea.size
  | _ => false

theorem eq_sumArea_of_isSumArea {a : Area} (h : isSumArea a = true) : a = sumArea := by
  unfold isSumArea at h
  split at h
  · simp only [Bool.and_eq_true, decide_eq_true_eq] at h
    obtain ⟨rfl, rfl⟩ := h
    rfl
  · cases h

def numbers : Names := [("items", .list [.int 1, .int 2])]

def summedState : FillState := (exec (build {} { data := numbers } []) (opened {} "summed" summed)).2

def summedRun (roots : List Area) : Except Failure Unit × FillState :=
  exec (fillAreas {} roots) summedState

theorem summed_built : exec (build {} { data := numbers } []) (opened {} "summed" summed) =
    (.ok [lineBlock.root, sumArea], summedState) := by
  have h : (exec (build {} { data := numbers } []) (opened {} "summed" summed)).1.toOption.map
      (fun roots => roots.map fun a => (lineBlock.isRoot a, isSumArea a)) =
        some [(true, false), (false, true)] := by
    decide +kernel
  obtain ⟨roots, hroots, hshape⟩ := Option.map_eq_some_iff.1 h
  obtain ⟨a, rest, rfl, ha, hrest⟩ := List.map_eq_cons_iff.1 hshape
  obtain ⟨b, rfl, hb⟩ := List.map_eq_singleton_iff.1 hrest
  rw [RepeatedBlock.eq_root_of_isRoot (congrArg Prod.fst ha),
    eq_sumArea_of_isSumArea (congrArg Prod.snd hb)] at hroots
  exact eq_ok_of_toOption hroots

theorem columnSpec_definite : Command.Definite {} Area.IsPlain (.each Area.columnSpec) := by
  have hamong : ∀ {m : Meaning}, m.AllIn Area.IsPlain → m.Among Area.IsPlain :=
    fun hm n v _ _ => hm n v
  refine ⟨rfl, ?_, fun m hm st items u hr => (Area.columnSpec_items (hamong hm) hr).2⟩
  intro m hm st st' items items' u u' hr hr'
  have hitems := (Area.columnSpec_items (hamong hm) hr).1 st'
  rw [Area.columnSpec_resolveIn, hitems] at hr'
  cases hr'
  rfl

theorem summed_definite : ({} : FillHost).Definite Area.IsPlain summedState.template := by
  intro r info text hinfo htext
  have htexts : (summedState.template.cells.filterMap fun i =>
      ({} : FillHost).expressionText? i.source) = ["${e}"] := by
    decide +kernel
  have hmem : text ∈ ["${e}"] := by
    rw [← htexts]
    exact List.mem_filterMap.2 ⟨info, Template.mem_cells_of_cell? hinfo, htext⟩
  rw [List.mem_singleton.1 hmem]
  have hsingle : Segment.single? .standard "${e}".toList = some ['e'] := by decide +kernel
  have hname : Expr.compile (Text.stripText "e") = .ok (.name "e") := rfl
  have heval : ∀ m : Meaning, ({} : Evaluator).evaluateText .standard m "${e}" =
      pure (({} : Evaluator).named "e" m) := by
    intro m
    have hwhole : ({} : Evaluator).evaluate m "e" = pure (({} : Evaluator).named "e" m) :=
      Evaluator.evaluate_name _ (by decide +kernel) hname (by decide) m
    rw [Evaluator.evaluateText, hsingle]
    dsimp only
    rw [show String.ofList ['e'] = "e" from rfl, hwhole]
  intro m _ st st' v v' u u' hv hv'
  dsimp only at hv hv'
  rw [heval] at hv hv'
  cases hv
  cases hv'
  rfl

theorem memoryless_default : ({} : FillHost).Memoryless where
  before _ _ _ := leads_pure _
  after _ _ _ := leads_pure _
  update _ _ _ := leads_pure _
  allows l origin target s s' allowed allowed' t t' _ _ h h' := by
    cases h
    cases h'
    rfl
  makes n info info' r s s' out out' t t' _ _ hinfo h h' := by
    cases h
    cases h'
    exact ⟨(congrArg CellInfo.value hinfo :), (congrArg CellInfo.formula? hinfo :)⟩

theorem line_occupies {x : CellRef} (h : lineBlock.root.Occupies x) : x.col = 0 := by
  rcases h with h | h
  · have hin := (lineBlock.root.contains_iff x).1 h
    have hleft := hin.left
    have hright := hin.right
    simp only [RepeatedBlock.root, lineBlock] at hleft hright
    omega
  · have hall : ∀ x ∈ lineBlock.root.origins, x.col = 0 := by decide +kernel
    exact hall x h

theorem sum_occupies {x : CellRef} (h : sumArea.Occupies x) : x.col = 2 := by
  rcases h with h | h
  · have hin := (sumArea.contains_iff x).1 h
    have hleft := hin.left
    have hright := hin.right
    simp only [sumArea] at hleft hright
    omega
  · have hall : ∀ x ∈ sumArea.origins, x.col = 2 := by decide +kernel
    exact hall x h

theorem line_clears_sum : Filling.Clears (lineBlock.root, ⟨1, 2⟩) (sumArea, ⟨1, 1⟩) where
  rectangles x hx hx' := by
    have hright := hx.right
    have hleft := hx'.left
    simp only [RepeatedBlock.root, lineBlock, sumArea] at hleft hright
    omega
  left x hx := by
    refine eq_false_of_ne_true fun hx' => ?_
    have hright := hx.right
    rw [sum_occupies (.inl hx')] at hright
    simp [RepeatedBlock.root, lineBlock] at hright
  right x hx := by
    refine eq_false_of_ne_true fun hx' => ?_
    have hleft := hx.left
    rw [line_occupies (.inl hx')] at hleft
    simp [sumArea] at hleft

theorem summed_permutes :
    exec (build {} { data := numbers } []) (opened {} "summed" summed) =
        (.ok [lineBlock.root, sumArea], summedState) ∧
      (fillings {} [lineBlock.root, sumArea] summedState).map Prod.snd = [⟨1, 2⟩, ⟨1, 1⟩] ∧
      (summedRun [lineBlock.root, sumArea]).1 = .ok () ∧
      (summedRun [sumArea, lineBlock.root]).1 = .ok () ∧
      ((summedRun [sumArea, lineBlock.root]).2.book.content ⟨"S", 0, 2⟩).value.text? =
        some "=SUM(A1:A2)" ∧
      ∀ x, (summedRun [sumArea, lineBlock.root]).2.book.content x =
        (summedRun [lineBlock.root, sumArea]).2.book.content x := by
  have hsizes : (fillings {} [lineBlock.root, sumArea] summedState).map Prod.snd =
      [⟨1, 2⟩, ⟨1, 1⟩] := by
    decide +kernel
  have hfillings : fillings {} [lineBlock.root, sumArea] summedState =
      [(lineBlock.root, ⟨1, 2⟩), (sumArea, ⟨1, 1⟩)] := by
    simp only [fillings, List.map_cons, List.map_nil, List.cons.injEq, and_true] at hsizes ⊢
    exact ⟨Prod.ext rfl hsizes.1, Prod.ext rfl hsizes.2⟩
  have hok : (summedRun [lineBlock.root, sumArea]).1 = .ok () := by decide +kernel
  have hok' : (summedRun [sumArea, lineBlock.root]).1 = .ok () := by decide +kernel
  have hregular : summed.Regular := by
    refine ⟨by decide, fun x hx b hb => ?_⟩
    rw [List.mem_singleton.1 hx] at hb
    cases hb
  have hmerged : ∀ title ∈ summed.titles, summed.Unmerged title := by
    intro title htitle
    rw [List.mem_singleton.1 htitle]
    refine ⟨_, rfl, rfl, fun p h => ?_⟩
    rw [Sheet.covered_setCell, Sheet.covered_setCell] at h
    obtain ⟨-, -, h⟩ := h
    cases h
  have hdata : Meaning.AllIn Area.IsPlain numbers.find? := by
    intro n v hv
    simp only [numbers, Names.find?, List.lookup_cons, List.lookup_nil] at hv
    split at hv
    · cases hv
      exact .inr ⟨[1, 2], rfl⟩
    · cases hv
  have hroots : ∀ a ∈ [lineBlock.root, sumArea], a.Uses (Command.Definite {} Area.IsPlain) := by
    rw [List.forall_mem_cons, List.forall_mem_singleton]
    exact ⟨⟨columnSpec_definite, ⟨trivial, trivial⟩, trivial⟩, trivial⟩
  have huses : [lineBlock.root, sumArea].Pairwise fun a b => ∀ x, a.Occupies x → ¬ b.Occupies x := by
    refine List.pairwise_pair.2 fun x hx hx' => ?_
    have := line_occupies hx
    rw [sum_occupies hx'] at this
    cases this
  refine ⟨summed_built, hsizes, hok, hok', by decide +kernel, ?_⟩
  exact fillAreas_permutes hregular hmerged summed_built (by decide +kernel) hroots summed_definite
    hdata (fun i => .inl ⟨i, rfl⟩) memoryless_default (leads_pure _) huses
    (hfillings ▸ List.pairwise_pair.2 line_clears_sum) (.swap _ _ _)
    (Prod.ext hok rfl) (Prod.ext hok' rfl)

end FillOptions

end SheetTemplate
