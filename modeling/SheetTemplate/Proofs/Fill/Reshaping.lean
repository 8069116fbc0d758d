import SheetTemplate.Proofs.Fill.Framing

namespace SheetTemplate

open FillM FillState

theorem CellRef.ofPos_pos {r : CellRef} {title : String} (h : r.sheet = title) :
    CellRef.ofPos title r.pos = r := by
  cases r
  subst h
  rfl

theorem Area.contains_ref (a : Area) (p : Pos) :
    a.ref.contains (.ofPos a.start.sheet p) = a.contains (.ofPos a.start.sheet p) := by
  have href : a.ref.contains (.ofPos a.start.sheet p) =
      ((a.start.sheet.isEmpty || a.start.sheet == a.start.sheet) && a.start.row ≤ p.row &&
        p.row ≤ a.start.row + (a.size.height - 1) && a.start.col ≤ p.col &&
          p.col ≤ a.start.col + (a.size.width - 1)) := rfl
  rw [Bool.eq_iff_iff, a.contains_iff, href]
  simp only [beq_self_eq_true, Bool.or_true, Bool.true_and, Bool.and_eq_true, decide_eq_true_eq]
  constructor
  · rintro ⟨⟨⟨htop, hbottom⟩, hleft⟩, hright⟩
    refine ⟨rfl, htop, ?_, hleft, ?_⟩
    all_goals
      dsimp only [CellRef.ofPos]
      omega
  · rintro ⟨-, htop, hbottom, hleft, hright⟩
    dsimp only [CellRef.ofPos] at htop hbottom hleft hright
    omega

def Image.look (i : Image) : String × Float × Float := (i.anchor, i.width, i.height)

def Image.look? (r : CellRef) (v : Value) (scaleX scaleY : Float) : Option (String × Float × Float) :=
  match v, r.name with
  | .picture p, .ok anchor =>
    some (anchor, Number.floatOfInt p.width * scaleX, Number.floatOfInt p.height * scaleY)
  | _, _ => none

namespace FillState

variable {s t u : FillState} {title : String} {b : Block} {x y : Sheet}

structure Pictures (base : String → List Image) (s : FillState) : Prop where
  images : ∀ title,
    ((s.book.images title).filter fun i => !s.ownImages.contains i.id) = base title
  numbered : ∀ title, ∀ i ∈ s.book.images title, i.id < s.nextImage
  own : ∀ n ∈ s.ownImages, n < s.nextImage

structure Kept (s t : FillState) : Prop where
  template : t.template = s.template
  deleted : t.deleted = s.deleted
  titles : t.book.titles = s.book.titles
  tucked : s.book.Tucked → t.book.Tucked
  pictures : ∀ base, Pictures base s → Pictures base t

theorem kept_of_book (htemplate : t.template = s.template) (hdeleted : t.deleted = s.deleted)
    (hbook : t.book = s.book) (hnext : t.nextImage = s.nextImage)
    (hown : t.ownImages = s.ownImages) : Kept s t := by
  refine ⟨htemplate, hdeleted, by rw [hbook], fun hs => by rwa [hbook], fun base hs => ?_⟩
  constructor
  · rw [hbook, hown]
    exact hs.images
  · rw [hbook, hnext]
    exact hs.numbered
  · rw [hown, hnext]
    exact hs.own

theorem Numbers.mem_own_iff (h : Numbers s t) {n : Nat} (hn : n < s.nextImage) :
    n ∈ t.ownImages ↔ n ∈ s.ownImages := by
  refine ⟨fun hown => ?_, fun hown => h.kept hown⟩
  rcases h.added n hown with hown | ⟨hle, -⟩
  · exact hown
  · exact absurd hn (Nat.not_lt.2 hle)

theorem Numbers.own_lt (h : Numbers s t) (hs : ∀ n ∈ s.ownImages, n < s.nextImage) :
    ∀ n ∈ t.ownImages, n < t.nextImage := by
  intro n hn
  rcases h.added n hn with hown | ⟨-, hlt⟩
  · exact Nat.lt_of_lt_of_le (hs n hown) h.next
  · exact hlt

theorem Numbers.filter_images (h : Numbers s t) {images : List Image}
    (himages : ∀ i ∈ images, i.id < s.nextImage) :
    (images.filter fun i => !t.ownImages.contains i.id) =
      images.filter fun i => !s.ownImages.contains i.id := by
  refine List.filter_congr fun i hi => ?_
  rw [Bool.eq_iff_iff]
  simp only [Bool.not_eq_true', List.contains_eq_mem, decide_eq_false_iff_not,
    h.mem_own_iff (himages i hi)]

theorem Abides.kept (h : Abides s t) (htucked : s.book.Tucked → t.book.Tucked)
    (himages : ∀ title, t.book.images title = s.book.images title) : Kept s t := by
  refine ⟨h.template, h.deleted, h.titles, htucked, fun base hs => ?_⟩
  refine ⟨fun title => ?_, fun title i hi => ?_, h.numbers.own_lt hs.own⟩
  · rw [himages, h.numbers.filter_images (hs.numbered title)]
    exact hs.images title
  · rw [himages] at hi
    exact Nat.lt_of_lt_of_le (hs.numbered title i hi) h.numbers.next

instance : IsPreorder FillState Kept where
  refl _ := kept_of_book rfl rfl rfl rfl rfl
  trans _ _ _ h h' := ⟨h'.template.trans h.template, h'.deleted.trans h.deleted,
    h'.titles.trans h.titles, fun hs => h'.tucked (h.tucked hs), fun base hs => h'.pictures base (h.pictures base hs)⟩

structure Replaced (title : String) (y : Sheet) (s t : FillState) : Prop extends Abides s t where
  find : ∀ u, t.book.find? u = if u = title then some y else s.book.find? u

theorem replaced_onSheet (hfind : s.book.find? title = some x) (htitle : y.title = x.title) :
    Replaced title y s (s.onSheet title fun _ => y) := by
  have hf : ∀ z : Sheet, { y with title := z.title }.title = z.title := fun _ => rfl
  have hsame : ({ y with title := x.title } : Sheet) = y := by rw [← htitle]
  constructor
  · exact ⟨rfl, rfl, rfl, rfl, rfl, s.book.titles_const hfind htitle, numbers_of_eq rfl rfl⟩
  · intro u
    rw [onSheet, s.book.modify_const hfind htitle, Workbook.find?_modify _ hf]
    split
    · next hu => rw [hu, hfind, Option.map_some, hsame]
    · rfl

namespace Replaced

variable (h : Replaced title y s t)

include h

theorem face? (r : CellRef) :
    t.book.face? r = if r.sheet = title then y.face? r.pos else s.book.face? r := by
  rw [Workbook.face?, h.find]
  split
  · rfl
  · rfl

theorem blocks (u : String) : t.book.blocks u = if u = title then y.merged else s.book.blocks u := by
  rw [Workbook.blocks, h.find]
  split
  · rfl
  · rfl

theorem images (u : String) : t.book.images u = if u = title then y.images else s.book.images u := by
  rw [Workbook.images, h.find]
  split
  · rfl
  · rfl

end Replaced

structure Merged (title : String) (b : Block) (s t : FillState) : Prop extends Abides s t where
  valid : b.isValid = true
  face : ∀ r, t.book.face? r =
    if r.sheet = title ∧ r.pos ∈ b.hidden then none else s.book.face? r
  blocks : ∀ u, t.book.blocks u = if u = title ∧ (s.book.blocks title).any b.within = false
    then s.book.blocks u ++ [b] else s.book.blocks u
  images : ∀ u, t.book.images u = s.book.images u

theorem merged_of_replaced (hfind : s.book.find? title = some x) (hmerge : x.merge? b = some y)
    (h : Replaced title y s t) : Merged title b s t := by
  refine { h.toAbides with valid := Sheet.valid_merge? hmerge, face := ?_, blocks := ?_, images := ?_ }
  · intro r
    rw [h.face?]
    by_cases hr : r.sheet = title
    · subst hr
      rw [Sheet.face?_merge? hmerge, Workbook.face?_of_find? hfind]
      simp
    · simp [hr]
  · intro u
    rw [h.blocks]
    by_cases hu : u = title
    · subst hu
      rw [Sheet.merged_merge? hmerge, Workbook.blocks_of_find? hfind]
      cases x.merged.any b.within with
      | true => simp
      | false => simp
    · simp [hu]
  · intro u
    rw [h.images]
    split
    · next hu => rw [hu, Sheet.images_merge? hmerge, Workbook.images_of_find? hfind]
    · rfl

namespace Merged

variable (h : Merged title b s t)

include h

theorem subset (u : String) : s.book.blocks u ⊆ t.book.blocks u := by
  rw [h.blocks]
  split
  · exact List.subset_append_left _ _
  · exact List.Subset.refl _

theorem exists_around : ∃ outer ∈ t.book.blocks title, b.within outer = true := by
  rw [h.blocks]
  cases hany : (s.book.blocks title).any b.within with
  | true =>
    rw [if_neg (by simp)]
    exact List.any_eq_true.1 hany
  | false =>
    rw [if_pos ⟨rfl, rfl⟩]
    exact ⟨b, List.mem_append_right _ (List.mem_singleton_self b), b.within_self⟩

theorem tucked (hs : s.book.Tucked) : t.book.Tucked := by
  intro r hr hcovered
  rw [h.face] at hcovered
  by_cases hhidden : r.sheet = title ∧ r.pos ∈ b.hidden
  · obtain ⟨outer, hmem, hwithin⟩ := h.exists_around
    rw [← hhidden.1] at hmem
    exact ⟨outer, hmem, Block.hidden_of_within hwithin hhidden.2⟩
  · rw [if_neg hhidden] at hcovered
    rw [Workbook.find?_isSome_iff h.titles] at hr
    obtain ⟨c, hc, hp⟩ := hs r hr hcovered
    exact ⟨c, h.subset _ hc, hp⟩

theorem respects {areas : List Area} (hs : s.book.Respects areas)
    (hb : ∀ a ∈ areas, b.Respects title a) : t.book.Respects areas := by
  intro u c hc a ha
  rw [h.blocks] at hc
  split at hc
  · next hu =>
    rcases List.mem_append.1 hc with hc | hc
    · exact hs u c hc a ha
    · rw [List.mem_singleton.1 hc, hu.1]
      exact hb a ha
  · exact hs u c hc a ha

theorem respects_self {areas : List Area} (ht : t.book.Respects areas) :
    ∀ a ∈ areas, b.Respects title a := by
  obtain ⟨outer, hmem, hwithin⟩ := h.exists_around
  exact fun a ha => (ht title outer hmem a ha).mono hwithin

end Merged

structure Pictured (title : String) (i : Image) (s t : FillState) : Prop extends Abides s t where
  journal : t.journal = s.journal
  face : ∀ r, t.book.face? r = s.book.face? r
  blocks : ∀ u, t.book.blocks u = s.book.blocks u
  images : ∀ u, t.book.images u =
    if u = title then s.book.images u ++ [i] else s.book.images u
  added : i.id ∈ t.ownImages

theorem pictured_of_replaced {i : Image} (hfind : s.book.find? title = some x)
    (hjournal : t.journal = s.journal) (hadded : i.id ∈ t.ownImages)
    (h : Replaced title { x with images := x.images ++ [i] } s t) : Pictured title i s t := by
  refine { h.toAbides with
    journal := hjournal, face := ?_, blocks := ?_, images := ?_, added := hadded }
  · intro r
    rw [h.face?]
    split
    · next hr =>
      rw [Workbook.face?_of_find? (x := x) (by rw [hr]; exact hfind)]
      rfl
    · rfl
  · intro u
    rw [h.blocks]
    split
    · next hu => rw [hu, Workbook.blocks_of_find? hfind]
    · rfl
  · intro u
    rw [h.images]
    split
    · next hu => rw [hu, Workbook.images_of_find? hfind]
    · rfl

theorem pictured_onSheet {i : Image} {n : Nat} (hfind : s.book.find? title = some x)
    (hid : s.nextImage ≤ i.id) (hn : i.id < n) :
    Pictured title i s
      { s.onSheet title (fun y => { y with images := y.images ++ [i] }) with
        nextImage := n, ownImages := s.ownImages ++ [i.id] } := by
  have htitle : ∀ y : Sheet, { y with images := y.images ++ [i] }.title = y.title := fun _ => rfl
  refine pictured_of_replaced hfind rfl (List.mem_append_right _ (List.mem_singleton_self _))
    ⟨⟨rfl, rfl, rfl, rfl, rfl, ?_, ?_⟩, fun u => ?_⟩
  · exact s.book.titles_modify htitle
  · refine ⟨Nat.le_trans hid (Nat.le_of_lt hn), fun m hm => ?_, List.subset_append_left _ _⟩
    rcases List.mem_append.1 hm with hm | hm
    · exact .inl hm
    · rw [List.mem_singleton.1 hm]
      exact .inr ⟨hid, hn⟩
  · refine (s.book.find?_modify htitle u).trans ?_
    split
    · next hu =>
      rw [hu, hfind]
      rfl
    · rfl

theorem Pictured.tucked {i : Image} (h : Pictured title i s t) (hs : s.book.Tucked) :
    t.book.Tucked := by
  refine hs.mono h.titles (fun r _ hr => ?_) fun u => ?_
  · rwa [← h.face]
  · rw [h.blocks]
    exact List.Subset.refl _

theorem Pictured.pictures {i : Image} (h : Pictured title i s t) {base : String → List Image}
    (hs : Pictures base s) : Pictures base t := by
  have hown := h.numbers.own_lt hs.own
  refine ⟨fun u => ?_, fun u j hj => ?_, hown⟩
  · have hgone : ([i].filter fun i => !t.ownImages.contains i.id) = [] := by simp [h.added]
    rw [h.images, ← hs.images, ← h.numbers.filter_images (hs.numbered u)]
    split
    · rw [List.filter_append, hgone, List.append_nil]
    · rfl
  · rw [h.images] at hj
    have hold : ∀ j ∈ s.book.images u, j.id < t.nextImage := fun j hj =>
      Nat.lt_of_lt_of_le (hs.numbered u j hj) h.numbers.next
    split at hj
    · rcases List.mem_append.1 hj with hj | hj
      · exact hold j hj
      · rw [List.mem_singleton.1 hj]
        exact hown i.id h.added
    · exact hold j hj

structure Unmerged (title : String) (gone : List Block) (s t : FillState) : Prop
    extends Abides s t where
  face : ∀ r, t.book.face? r =
    if r.sheet = title ∧ ∃ b ∈ gone, r.pos ∈ b.hidden then some {} else s.book.face? r
  blocks : ∀ u, t.book.blocks u =
    if u = title then (s.book.blocks u).diff gone else s.book.blocks u
  images : ∀ u, t.book.images u = s.book.images u

theorem unmerged_nil (h : Abides s t) (hbook : t.book = s.book) : Unmerged title [] s t := by
  refine { h with face := ?_, blocks := ?_, images := ?_ }
  all_goals simp [hbook]

theorem Unmerged.cons {gone : List Block} (h : Unmerged title [b] s t)
    (h' : Unmerged title gone t u) : Unmerged title (b :: gone) s u := by
  refine { h.toAbides.trans h'.toAbides with face := ?_, blocks := ?_, images := ?_ }
  · intro r
    rw [h'.face, h.face]
    by_cases hr : r.sheet = title
    · by_cases hb : r.pos ∈ b.hidden
      · simp [hr, hb]
      · simp [hr, hb]
    · simp [hr]
  · intro v
    rw [h'.blocks, h.blocks]
    by_cases hv : v = title
    · simp [hv, List.diff_cons]
    · simp [hv]
  · intro v
    rw [h'.images, h.images]

theorem unmerged_of_replaced (hfind : s.book.find? title = some x)
    (hcomplete : (x.unmerge b).2 = true) (h : Replaced title (x.unmerge b).1 s t) :
    Unmerged title [b] s t := by
  refine { h.toAbides with face := ?_, blocks := ?_, images := ?_ }
  · intro r
    rw [h.face?]
    by_cases hr : r.sheet = title
    · subst hr
      rw [Sheet.face?, Sheet.slot_unmerge hcomplete, Workbook.face?_of_find? hfind, Sheet.face?]
      by_cases hp : r.pos ∈ b.hidden
      · simp [hp]
      · simp [hp]
    · simp [hr]
  · intro v
    rw [h.blocks]
    by_cases hv : v = title
    · subst hv
      rw [Workbook.blocks_of_find? hfind]
      simp [Sheet.unmerge, List.diff_cons]
    · simp [hv]
  · intro v
    rw [h.images]
    split
    · next hv =>
      rw [hv, Workbook.images_of_find? hfind]
      rfl
    · rfl

theorem Unmerged.tucked {gone : List Block} (h : Unmerged title gone s t) (hs : s.book.Tucked) :
    t.book.Tucked := by
  intro r hr hcovered
  rw [Workbook.find?_isSome_iff h.titles] at hr
  rw [h.face] at hcovered
  split at hcovered
  · cases hcovered
  · next hnot =>
    obtain ⟨b, hb, hp⟩ := hs r hr hcovered
    refine ⟨b, ?_, hp⟩
    rw [h.blocks]
    split
    · next hsheet =>
      have hgone : b ∉ gone := fun hmem => hnot ⟨hsheet, b, hmem, hp⟩
      exact List.mem_diff_of_mem hb hgone
    · exact hb

structure Wiped (rs : List CellRef) (s t : FillState) : Prop extends Frames (· ∈ rs) s t where
  wiped : ∀ r ∈ rs, t.book.face? r = (s.book.face? r).map fun _ => {}
  journal : t.journal = (rs.map Write.clear).reverse ++ s.journal

structure Vacated (a : Area) (s t : FillState) : Prop extends Abides s t where
  empty : ∀ r, a.contains r = true → (s.book.find? r.sheet).isSome = true → t.book.face? r = some {}
  face : ∀ r, a.contains r = false → t.book.face? r = s.book.face? r
  blocks : ∀ title, t.book.blocks title =
    (s.book.blocks title).filter fun b => !a.contains (.ofPos title b.first)
  images : ∀ title, t.book.images title = s.book.images title
  cleared : ∀ r, a.contains r = true → (s.book.find? r.sheet).isSome = true → .clear r ∈ t.journal
  grown : Grown (fun r => a.contains r = true) s t

end FillState

theorem List.diff_filter {α : Type} [DecidableEq α] (l : List α) (p : α → Bool) :
    l.diff (l.filter p) = l.filter fun a => !p a := by
  induction l with
  | nil => rfl
  | cons a l ih =>
    by_cases ha : p a = true
    · simp [ha, List.diff_cons, ih]
    · have hmem : a ∉ l.filter p := fun h => ha (List.mem_filter.1 h).2
      simp [ha, List.cons_diff, hmem, ih]

theorem Area.filter_begun_elsewhere (a : Area) {title : String} (h : title ≠ a.start.sheet)
    (blocks : List Block) :
    (blocks.filter fun b => !a.contains (.ofPos title b.first)) = blocks := by
  apply List.filter_eq_self.2
  intro b _
  rw [Bool.not_eq_true', ← Bool.not_eq_true]
  exact fun hin => h ((a.contains_iff _).1 hin).sheet

theorem FillState.Unmerged.blocks_begun {s t : FillState} {a : Area}
    (h : Unmerged a.start.sheet ((s.book.blocks a.start.sheet).filter fun b =>
      a.contains (.ofPos a.start.sheet b.first)) s t) (title : String) :
    t.book.blocks title =
      (s.book.blocks title).filter fun b => !a.contains (.ofPos title b.first) := by
  rw [h.blocks]
  by_cases htitle : title = a.start.sheet
  · subst htitle
    rw [if_pos rfl, List.diff_filter]
  · rw [if_neg htitle, a.filter_begun_elsewhere htitle]

namespace FillM

variable {s t : FillState} {title : String} {b : Block} {x : Sheet}

theorem merge_journal {r : Except Failure Unit} (h : exec (merge title b) s = (r, t)) :
    t.journal = s.journal :=
  ((leads_merge Loose.book title b : Leads (Grown fun _ => False) _).apply h).journal_eq

-- Whether a merge succeeds is told by the sheet alone.
theorem merge_cases {r : Except Failure Unit} (h : exec (merge title b) s = (r, t)) :
    (Abides s t ∧ t.book = s.book ∧ (r = .ok () → s.sheet? title = none)) ∨
      (r = .ok () ∧ (s.sheet? title).isSome = true ∧ Merged title b s t) := by
  rw [merge, exec_bind] at h
  cases hsheet : s.sheet? title with
  | none =>
    obtain ⟨log, hlog⟩ := exec_sheet?_none hsheet
    rw [hlog] at h
    cases h
    exact .inl ⟨abides_of_book rfl rfl rfl rfl rfl rfl rfl rfl, rfl, fun _ => rfl⟩
  | some x =>
    rw [exec_sheet? hsheet] at h
    dsimp only at h
    cases hmerge : x.merge? b with
    | none =>
      rw [hmerge] at h
      cases h
      refine .inl ⟨abides_of_book rfl rfl rfl rfl rfl rfl rfl rfl, rfl, fun h => ?_⟩
      cases h
    | some y =>
      rw [hmerge] at h
      cases h
      have hfind := (sheet?_eq_some hsheet).2
      have hreplaced := replaced_onSheet hfind (x.merge?_title hmerge)
      exact .inr ⟨rfl, rfl, merged_of_replaced hfind hmerge hreplaced⟩

theorem unmergeAll_ok {p : Block → Bool} (hfind : s.book.find? title = some x)
    (h : exec (unmergeAll title x p) s = (.ok (), t)) :
    Unmerged title (x.merged.filter p) s t := by
  rw [unmergeAll] at h
  generalize x.merged.filter p = gone at h
  induction gone generalizing s x with
  | nil =>
    cases h
    exact unmerged_nil (abides_of_book rfl rfl rfl rfl rfl rfl rfl rfl) rfl
  | cons b rest ih =>
    obtain ⟨_, u, hfirst, hrest⟩ := bind_eq_ok.1 h
    obtain ⟨_, v, hget, hfirst⟩ := bind_eq_ok.1 hfirst
    cases hget
    rw [hfind] at hfirst
    obtain ⟨_, w, hput, hfirst⟩ := bind_eq_ok.1 hfirst
    have hreplaced : Replaced title (x.unmerge b).1 s w := by
      cases hput
      exact replaced_onSheet hfind rfl
    cases hcomplete : (x.unmerge b).2 with
    | false =>
      rw [show (Sheet.removeAll x.slots b.hidden).2 = false from hcomplete] at hfirst
      cases hfirst
    | true =>
      rw [show (Sheet.removeAll x.slots b.hidden).2 = true from hcomplete] at hfirst
      cases hfirst
      have hnext := ih (by rw [hreplaced.find, if_pos rfl]) hrest
      exact (unmerged_of_replaced hfind hcomplete hreplaced).cons hnext

theorem clearCell_journal {r : CellRef} (h : exec (clearCell r) s = (.ok (), t)) :
    t.journal = .clear r :: s.journal := by
  obtain ⟨_, u, hrecord, h⟩ := bind_eq_ok.1 h
  cases hrecord
  obtain ⟨x?, v, hsheet, h⟩ := bind_eq_ok.1 h
  have hv : v.journal = .clear r :: s.journal :=
    ((leads_sheet? r.sheet : Leads (Grown fun _ => False) _).apply hsheet).journal_eq
  rw [← hv]
  cases x? with
  | none =>
    cases h
    rfl
  | some x =>
    dsimp only at h
    split at h
    · cases h
      rfl
    · cases h
      rfl

theorem clearCells_wiped {rs : List CellRef} (hd : s.deleted = [])
    (h : exec (rs.forM clearCell) s = (.ok (), t)) : Wiped rs s t := by
  induction rs generalizing s with
  | nil =>
    cases h
    exact { refl_of (Frames (· ∈ [])) _ with
      wiped := fun r hr => absurd hr List.not_mem_nil
      journal := rfl }
  | cons r rest ih =>
    obtain ⟨_, u, hfirst, hrest⟩ := bind_eq_ok.1 h
    have hclear : Leads (Frames (· = r)) (clearCell r) :=
      confined_clearCell (P := (· = r)) rfl (frames_write rfl)
    have hframes := hclear.apply hfirst
    have hwiped := ih (hframes.deleted.trans hd) hrest
    have hfirst' : Frames (· ∈ r :: rest) s u := by
      apply hframes.mono
      rintro _ rfl
      exact List.mem_cons_self
    have hrest' : Frames (· ∈ r :: rest) u t :=
      hwiped.toFrames.mono fun y hy => List.mem_cons_of_mem r hy
    refine { trans_of (Frames (· ∈ r :: rest)) hfirst' hrest' with wiped := ?_, journal := ?_ }
    · intro y hy
      have hu : u.book.face? y = if y = r then (s.book.face? r).map fun _ => {} else s.book.face? y := by
        by_cases hyr : y = r
        · rw [if_pos hyr, hyr, clearCell_face hd hfirst]
        · rw [if_neg hyr, hframes.face y hyr]
      by_cases hmem : y ∈ rest
      · rw [hwiped.wiped y hmem, hu]
        split
        · next hyr =>
          rw [hyr, Option.map_map]
          rfl
        · rfl
      · have hyr : y = r := (List.mem_cons.1 hy).resolve_right hmem
        rw [hwiped.face y hmem, hu, if_pos hyr, hyr]
    · rw [hwiped.journal, clearCell_journal hfirst]
      simp

theorem yields_kept_unmergeAll {p : Block → Bool} (hfind : s.book.find? title = some x)
    (h : exec (unmergeAll title x p) s = (.ok (), t)) : Kept s t := by
  have hunmerged := unmergeAll_ok hfind h
  exact hunmerged.toAbides.kept hunmerged.tucked hunmerged.images

theorem leads_kept_clearCell (r : CellRef) : Leads Kept (clearCell r) := by
  have hclear : Leads (Frames (· = r)) (clearCell r) :=
    confined_clearCell (P := (· = r)) rfl (frames_write rfl)
  exact hclear.mono fun _ _ hframes => hframes.toAbides.kept hframes.tucked hframes.images

theorem yields_kept_clearArea (a : AreaRef) : Yields Kept (clearArea a) := by
  intro s _ t h
  obtain ⟨x?, u, hsheet, h⟩ := bind_eq_ok.1 h
  cases hx : s.sheet? a.sheet with
  | none =>
    obtain ⟨log, hlog⟩ := exec_sheet?_none hx
    rw [hlog] at hsheet
    cases hsheet
    cases h
    exact kept_of_book rfl rfl rfl rfl rfl
  | some x =>
    rw [exec_sheet? hx] at hsheet
    cases hsheet
    obtain ⟨_, v, hunmerge, h⟩ := bind_eq_ok.1 h
    have hcells : Leads Kept ((Block.rectangle a.first.pos a.size).forM fun p =>
        clearCell (.ofPos a.sheet p)) := leads_forM fun p _ => leads_kept_clearCell _
    exact trans_of Kept (yields_kept_unmergeAll (sheet?_eq_some hx).2 hunmerge) (hcells.apply h)

theorem clearArea_stages {a : Area} (hd : s.deleted = [])
    (hfind : s.book.find? a.start.sheet = some x) (h : exec (clearArea a.ref) s = (.ok (), t)) :
    ∃ u, Unmerged a.start.sheet
        (x.merged.filter fun b => a.contains (.ofPos a.start.sheet b.first)) s u ∧
      u.journal = s.journal ∧ Wiped a.cells u t := by
  obtain ⟨x?, u, hsheet, h⟩ := bind_eq_ok.1 h
  have hsheet? : s.sheet? a.start.sheet = some x := (sheet?_of_deleted hd _).trans hfind
  rw [show exec (sheet? a.ref.sheet) s = _ from exec_sheet? hsheet?] at hsheet
  cases hsheet
  obtain ⟨_, u, hunmerge, h⟩ := bind_eq_ok.1 h
  have hunmerged := unmergeAll_ok hfind hunmerge
  simp only [show a.ref.sheet = a.start.sheet from rfl, a.contains_ref] at hunmerged
  have hcells : exec (a.cells.forM clearCell) u = (.ok (), t) := by
    rw [show a.ref.size = a.size from AreaRef.size_ofSize _ _] at h
    rw [Area.cells, ← Size.map_rectangle, List.forM_eq_forM, List.forM_map]
    exact h
  have hjournal : u.journal = s.journal :=
    ((leads_unmergeAll Loose.book _ _ _ : Leads (Grown fun _ => False) _).apply hunmerge).journal_eq
  exact ⟨u, hunmerged, hjournal, clearCells_wiped (hunmerged.deleted.trans hd) hcells⟩

theorem clearArea_of_none {a : Area} (hd : s.deleted = [])
    (hfind : s.book.find? a.start.sheet = none) (h : exec (clearArea a.ref) s = (.ok (), t)) :
    ∃ log, t = { s with log := log } := by
  obtain ⟨x?, u, hsheet, h⟩ := bind_eq_ok.1 h
  obtain ⟨log, hlog⟩ := exec_sheet?_none ((sheet?_of_deleted hd a.start.sheet).trans hfind)
  rw [show exec (sheet? a.ref.sheet) s = _ from hlog] at hsheet
  cases hsheet
  cases h
  exact ⟨log, rfl⟩

theorem vacated_of_missing {a : Area} (hfind : s.book.find? a.start.sheet = none)
    (log : List LogEntry) : Vacated a s { s with log := log } := by
  have hmissing : ∀ {r : CellRef}, a.contains r = true → s.book.find? r.sheet = none := fun hr => by
    rw [((a.contains_iff _).1 hr).sheet, hfind]
  have hnone : ∀ {r : CellRef}, a.contains r = true → ¬(s.book.find? r.sheet).isSome = true :=
    fun hr => by rw [hmissing hr]; exact Bool.false_ne_true
  have habides : Abides s { s with log := log } := abides_of_book rfl rfl rfl rfl rfl rfl rfl rfl
  refine { habides with
    empty := fun _ hr hfound => (hnone hr hfound).elim
    face := fun _ _ => rfl
    blocks := fun title => ?_
    images := fun _ => rfl
    cleared := fun _ hr hfound => (hnone hr hfound).elim
    grown := grown_of_eq rfl }
  by_cases htitle : title = a.start.sheet
  · rw [Workbook.blocks, htitle, hfind]
    rfl
  · exact (a.filter_begun_elsewhere htitle _).symm

theorem clearArea_vacated {a : Area} (hd : s.deleted = []) (hs : s.book.Tucked)
    (ha : s.book.Respects [a]) (h : exec (clearArea a.ref) s = (.ok (), t)) : Vacated a s t := by
  cases hfind : s.book.find? a.start.sheet with
  | none =>
    obtain ⟨log, rfl⟩ := clearArea_of_none hd hfind h
    exact vacated_of_missing hfind log
  | some x =>
    obtain ⟨v, hunmerged, hjournal, hwiped⟩ := clearArea_stages hd hfind h
    rw [← Workbook.blocks_of_find? hfind] at hunmerged
    have hmem : ∀ r, r ∈ a.cells ↔ a.contains r = true := fun r =>
      Size.mem_cellsFrom.trans (a.contains_iff r).symm
    have hborder : ∀ {title : String} {b : Block} {r : CellRef}, b ∈ s.book.blocks title →
        r.sheet = title → r.pos ∈ b.hidden →
        a.contains (.ofPos title b.first) = a.contains r := by
      rintro title b r hb rfl hp
      rw [(ha _ b hb a (List.mem_singleton_self a)).contains_first (Block.mem_hidden.1 hp).1,
        CellRef.ofPos_pos rfl]
    refine ⟨hunmerged.toAbides.trans hwiped.toAbides, ?_, ?_, ?_, ?_, ?_, ?_⟩
    · intro r hr hfound
      rw [hwiped.wiped r ((hmem r).2 hr)]
      -- What would cover the cell lies within the area, and so was taken away.
      cases hface : v.book.face? r with
      | some c => rfl
      | none =>
        rw [← Workbook.find?_isSome_iff hunmerged.titles] at hfound
        obtain ⟨b, hb, hp⟩ := hunmerged.tucked hs r hfound hface
        rw [hunmerged.blocks_begun, List.mem_filter] at hb
        obtain ⟨hb, hfirst⟩ := hb
        rw [hborder hb rfl hp, hr] at hfirst
        cases hfirst
    · intro r hr
      have hnot : r ∉ a.cells := by
        rw [hmem, hr]
        exact Bool.false_ne_true
      rw [hwiped.face r hnot, hunmerged.face, if_neg]
      rintro ⟨hsheet, b, hb, hp⟩
      rw [List.mem_filter] at hb
      obtain ⟨hb, hfirst⟩ := hb
      rw [hborder hb hsheet hp, hr] at hfirst
      cases hfirst
    · intro title
      rw [hwiped.blocks, hunmerged.blocks_begun]
    · intro title
      rw [hwiped.images, hunmerged.images]
    · intro r hr _
      rw [hwiped.journal, List.mem_append, List.mem_reverse]
      exact .inl (List.mem_map_of_mem ((hmem r).2 hr))
    · have hgrown := hwiped.grown.mono fun r hr => (hmem r).1 hr
      rwa [Grown, hjournal] at hgrown

end FillM

end SheetTemplate
