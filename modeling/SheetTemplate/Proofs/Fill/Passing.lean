import SheetTemplate.Proofs.Fill.Framing
import SheetTemplate.Proofs.Workbook.Lineup

namespace SheetTemplate

open FillM FillState

namespace Sheet

variable {x y z : Sheet} {p : Pos}

def content (x : Sheet) (p : Pos) : Content := (x.face? p).getD {}

def HoldsFormula (x : Sheet) (p : Pos) : Prop := (x.content p).type = .formula

def Passes (M : Pos → Prop) (x y : Sheet) : Prop :=
  ∀ p, y.HoldsFormula p → y.content p = x.content p ∨ M p

variable {M : Pos → Prop}

theorem Passes.refl (M : Pos → Prop) (x : Sheet) : x.Passes M x := fun _ _ => .inl rfl

theorem Passes.trans (h : x.Passes M y) (h' : y.Passes M z) : x.Passes M z := by
  intro p hz
  rcases h' p hz with hy | hm
  · rw [HoldsFormula, hy] at hz
    rw [hy]
    exact h p hz
  · exact .inr hm

theorem passes_of_content (h : ∀ p, y.content p = x.content p) : x.Passes M y :=
  fun p _ => .inl (h p)

theorem passes_of_face (h : ∀ p, y.face? p = x.face? p) : x.Passes M y :=
  passes_of_content fun p => by rw [content, h, content]

theorem passes_of_blank (h : ∀ p, y.content p = x.content p ∨ y.content p = {}) : x.Passes M y := by
  intro p hp
  rcases h p with h | h
  · exact .inl h
  · rw [HoldsFormula, h] at hp
    cases hp

theorem content_setCell (x : Sheet) (p q : Pos) (c : Cell) :
    (x.setCell p c).content q = if q = p then c.content else x.content q := by
  rw [content, face?_setCell]
  split <;> rfl

theorem passes_setCell (p : Pos) (c : Cell) (hp : M p) : x.Passes M (x.setCell p c) := by
  intro q _
  rw [content_setCell]
  split
  · next h => exact .inr (h ▸ hp)
  · exact .inl rfl

theorem passes_setCell_plain (p : Pos) {c : Cell} (hc : c.content.type ≠ .formula) :
    x.Passes M (x.setCell p c) := by
  intro q hq
  rw [HoldsFormula] at hq
  rw [content_setCell] at hq ⊢
  split
  · next h =>
    rw [if_pos h] at hq
    exact absurd hq hc
  · exact .inl rfl

theorem content_of_face {c : Content} (h : x.face? p = some c) : x.content p = c := by
  rw [content, h]
  rfl

theorem passes_setCell_same {c d : Cell} (hd : x.face? p = some d.content)
    (hc : c.content = d.content) : x.Passes M (x.setCell p c) := by
  apply passes_of_content
  intro q
  rw [content_setCell]
  split
  · next h => rw [h, content_of_face hd, hc]
  · rfl

theorem passes_touch (p : Pos) : x.Passes M (x.touch p) := passes_of_face fun _ => face?_touch

theorem passes_merge? {b : Block} (h : x.merge? b = some y) : x.Passes M y := by
  apply passes_of_blank
  intro q
  rw [content, face?_merge? h]
  split
  · exact .inr rfl
  · exact .inl rfl

theorem passes_unmerge (b : Block) : x.Passes M (x.unmerge b).1 := by
  apply passes_of_blank
  intro q
  rcases slot_removeAll q x.slots b.hidden with h | h
  · exact .inl (congrArg (·.getD {}) (face?_congr (t := (x.unmerge b).1) h))
  · right
    have hface : (x.unmerge b).1.face? q = some {} := by
      rw [face?]
      change ((removeAll x.slots b.hidden).1[q]?.map Slot.face?).getD (some {}) = _
      rw [h]
      rfl
    exact content_of_face hface

theorem content_duplicate (x : Sheet) (title : String) (p : Pos) :
    (x.duplicate title).content p = x.content p := by
  rw [content, content, face?, face?, duplicate, Std.TreeMap.getElem?_map]
  cases x.slots[p]? with
  | none => rfl
  | some slot => cases slot <;> rfl

end Sheet

namespace Workbook

variable {M : CellRef → Prop} {w v u : Workbook} {title : String}

def Passes (M : CellRef → Prop) (w v : Workbook) : Prop :=
  ∀ y ∈ v.sheets, ∃ x ∈ w.sheets, x.title = y.title ∧ x.Passes (fun p => M (.ofPos x.title p)) y

theorem Passes.refl (M : CellRef → Prop) (w : Workbook) : w.Passes M w :=
  fun x hx => ⟨x, hx, rfl, .refl _ x⟩

theorem Passes.trans (h : w.Passes M v) (h' : v.Passes M u) : w.Passes M u := by
  intro z hz
  obtain ⟨y, hy, hyz, hpass'⟩ := h' z hz
  obtain ⟨x, hx, hxy, hpass⟩ := h y hy
  refine ⟨x, hx, hxy.trans hyz, ?_⟩
  rw [← hxy] at hpass'
  exact hpass.trans hpass'

theorem passes_of_subset (h : v.sheets ⊆ w.sheets) : w.Passes M v :=
  fun x hx => ⟨x, h hx, rfl, .refl _ x⟩

theorem mem_change {f : Sheet → Sheet} {l : List Sheet} {y : Sheet}
    (hy : y ∈ modify.change title f l) : y ∈ l ∨ ∃ x ∈ l, x.title = title ∧ y = f x := by
  induction l with
  | nil => exact .inl hy
  | cons x l ih =>
    rw [modify.change] at hy
    split at hy
    · next h =>
      rcases List.mem_cons.1 hy with rfl | hy
      · exact .inr ⟨x, List.mem_cons_self, eq_of_beq h, rfl⟩
      · exact .inl (List.mem_cons_of_mem x hy)
    · rcases List.mem_cons.1 hy with rfl | hy
      · exact .inl List.mem_cons_self
      · rcases ih hy with hy | ⟨z, hz, h⟩
        · exact .inl (List.mem_cons_of_mem x hy)
        · exact .inr ⟨z, List.mem_cons_of_mem x hz, h⟩

theorem passes_modify {f : Sheet → Sheet} (htitle : ∀ x, (f x).title = x.title)
    (hf : ∀ x : Sheet, x.title = title → x.Passes (fun p => M (.ofPos x.title p)) (f x)) :
    w.Passes M (w.modify title f) := by
  intro y hy
  rcases mem_change hy with hy | ⟨x, hx, hx', rfl⟩
  · exact ⟨y, hy, rfl, .refl _ y⟩
  · exact ⟨x, hx, (htitle x).symm, hf x hx'⟩

theorem passes_const {x y : Sheet} (hx : w.find? title = some x) (hy : y.title = x.title)
    (hpass : x.Passes (fun p => M (.ofPos x.title p)) y) : w.Passes M (w.modify title fun _ => y) := by
  intro z hz
  rcases mem_change hz with hz | ⟨_, -, -, rfl⟩
  · exact ⟨z, hz, rfl, .refl _ z⟩
  · exact ⟨x, List.mem_of_find?_eq_some hx, hy.symm, hpass⟩

theorem passes_map {g : Sheet → Sheet} (htitle : ∀ x, (g x).title = x.title)
    (hg : ∀ x : Sheet, x.Passes (fun p => M (.ofPos x.title p)) (g x)) :
    w.Passes M { w with sheets := w.sheets.map g } := by
  intro y hy
  obtain ⟨x, hx, rfl⟩ := List.mem_map.1 hy
  exact ⟨x, hx, (htitle x).symm, hg x⟩

theorem content_of_find? {r : CellRef} {x : Sheet} (h : w.find? r.sheet = some x) :
    w.content r = x.content r.pos := by
  rw [content_eq_face?, face?_of_find? h]
  rfl

theorem content_of_none {r : CellRef} (h : w.find? r.sheet = none) : w.content r = {} := by
  rw [content_eq_face?, face?, h]
  rfl

def Reveals (M : CellRef → Prop) (w v : Workbook) : Prop :=
  ∀ r, (v.content r).type = .formula → v.content r = w.content r ∨ M r

theorem Reveals.trans (h : w.Reveals M v) (h' : v.Reveals M u) : w.Reveals M u := by
  intro r hu
  rcases h' r hu with hv | hm
  · rw [hv] at hu ⊢
    exact h r hu
  · exact .inr hm

theorem reveals_of_find? {g : Sheet → Sheet} (hfind : ∀ t, v.find? t = (w.find? t).map g)
    (hg : ∀ x : Sheet, w.find? x.title = some x → x.Passes (fun p => M (.ofPos x.title p)) (g x)) :
    w.Reveals M v := by
  intro r hr
  cases hx : w.find? r.sheet with
  | none =>
    rw [content_of_none (by rw [hfind, hx]; rfl)] at hr
    cases hr
  | some x =>
    have htitle := w.find?_title hx
    have hv : v.find? r.sheet = some (g x) := by rw [hfind, hx]; rfl
    rw [content_of_find? hv] at hr ⊢
    rw [content_of_find? hx]
    rcases hg x (htitle.symm ▸ hx) r.pos hr with h | h
    · exact .inl h
    · rw [htitle] at h
      exact .inr h

theorem reveals_modify {f : Sheet → Sheet} (htitle : ∀ x, (f x).title = x.title)
    (hf : ∀ x : Sheet, w.find? title = some x → x.Passes (fun p => M (.ofPos x.title p)) (f x)) :
    w.Reveals M (w.modify title f) := by
  apply reveals_of_find? (g := fun x => if x.title = title then f x else x)
  · intro t
    rw [find?_modify w htitle]
    cases hx : w.find? t with
    | none => split <;> rfl
    | some x =>
      simp only [Option.map_some, w.find?_title hx]
      split <;> rfl
  · intro x hx
    split
    · next h => exact hf x (h ▸ hx)
    · exact .refl _ x

end Workbook

namespace FillState

variable {M N : CellRef → Prop} {s t u : FillState} {r : CellRef}

structure Passes (M : CellRef → Prop) (s t : FillState) : Prop where
  template : t.template = s.template
  sheets : s.book.Passes M t.book
  seen : s.book.Reveals M t.book

instance : IsPreorder FillState (Passes M) where
  refl s := ⟨rfl, .refl M s.book, fun _ _ => .inl rfl⟩
  trans _ _ _ h h' :=
    ⟨h'.template.trans h.template, h.sheets.trans h'.sheets, h.seen.trans h'.seen⟩

theorem passes_of_book (htemplate : t.template = s.template) (hbook : t.book = s.book) :
    Passes M s t :=
  ⟨htemplate, hbook ▸ .refl M s.book, hbook ▸ fun _ _ => .inl rfl⟩

theorem passes_onSheet (s : FillState) (title : String) {f : Sheet → Sheet}
    (htitle : ∀ x, (f x).title = x.title)
    (hf : ∀ x : Sheet, x.title = title → x.Passes (fun p => M (.ofPos x.title p)) (f x)) :
    Passes M s (s.onSheet title f) :=
  ⟨rfl, Workbook.passes_modify htitle hf,
    Workbook.reveals_modify htitle fun x hx => hf x (s.book.find?_title hx)⟩

theorem passes_const {title : String} {x y : Sheet} (hx : s.book.find? title = some x)
    (hy : y.title = x.title) (hpass : x.Passes (fun p => M (.ofPos x.title p)) y) :
    Passes M s (s.onSheet title fun _ => y) := by
  refine ⟨rfl, Workbook.passes_const hx hy hpass, ?_⟩
  have hsame : (s.onSheet title fun _ => y).book =
      s.book.modify title fun z => { y with title := z.title } := s.book.modify_const hx hy
  rw [hsame]
  refine Workbook.reveals_modify (fun _ => rfl) fun z hz => ?_
  rw [hx] at hz
  cases hz
  rw [← hy]
  exact hy ▸ hpass

instance : Confined M (Passes M) where
  touch s r := passes_onSheet s r.sheet (fun x => x.touch_title r.pos) fun x _ => x.passes_touch r.pos
  cell s r c hr := by
    refine passes_onSheet s r.sheet (f := fun x => x.setCell r.pos c) (fun _ => rfl) fun x hx => ?_
    apply x.passes_setCell
    rw [hx]
    exact hr
  inert s title f hf := by
    apply passes_onSheet s title hf.title
    intro x _
    exact Sheet.passes_of_face fun p => Sheet.face?_congr (by rw [hf.slots])
  written _ _ := passes_of_book rfl rfl
  log _ _ := passes_of_book rfl rfl

theorem passes_of_evaluated (h : Evaluated s t) : Passes M s t := by
  rw [Evaluated] at h
  rw [h]
  exact passes_of_book rfl rfl

instance (h : FillHost) : h.Asks (Passes M) :=
  ⟨fun text => (h.leads_evaluateText text).mono fun _ _ => passes_of_evaluated⟩

end FillState

namespace FillM

variable {M : CellRef → Prop}

theorem leads_passes_merge (title : String) (b : Block) : Leads (Passes M) (merge title b) := by
  intro s
  cases hsheet : s.sheet? title with
  | none =>
    obtain ⟨log, hlog⟩ := exec_sheet?_none hsheet
    rw [merge, exec_bind, hlog]
    exact passes_of_book rfl rfl
  | some x =>
    rw [merge, exec_bind, exec_sheet? hsheet]
    dsimp only
    split
    · next y hy =>
      exact passes_const (sheet?_eq_some hsheet).2 (x.merge?_title hy) (Sheet.passes_merge? hy)
    · exact refl_of _ s

theorem leads_passes_addImage (r : CellRef) (v : Value) (scaleX scaleY : Float) :
    Leads (Passes M) (addImage r v scaleX scaleY) := by
  unfold addImage
  refine (confined_sheet? M _).bind fun s? => ?_
  cases s? with
  | none => exact leads_pure _
  | some s =>
    dsimp only
    split
    · refine (leads_ofExcept _).bind fun anchor => leads_get.bind fun t => ?_
      refine Leads.bind ?_ fun _ => leads_modify fun u => passes_of_book rfl rfl
      exact leads_modify fun u => passes_onSheet u r.sheet (fun _ => rfl) fun x _ =>
        Sheet.passes_of_face fun p => Sheet.face?_congr rfl
    · exact leads_throw _

theorem leads_passes_unmergeAll (title : String) (sheet : Sheet) (p : Block → Bool) :
    Leads (Passes M) (unmergeAll title sheet p) := by
  refine leads_forM fun b _ => ?_
  intro s
  rw [exec_bind, exec_get]
  dsimp only
  split
  · exact refl_of _ s
  · next x hx =>
    have hpass : Passes M s (s.onSheet title fun _ => (x.unmerge b).1) :=
      passes_const hx rfl (x.passes_unmerge b)
    rw [exec_bind, exec_onSheet]
    dsimp only
    split
    · exact hpass
    · exact hpass

end FillM

end SheetTemplate
