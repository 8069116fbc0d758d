import SheetTemplate.Proofs.Fill.Shown
import SheetTemplate.Proofs.Workbook.Faces

namespace SheetTemplate

open FillM

namespace FillState

structure Numbers (s t : FillState) : Prop where
  next : s.nextImage ≤ t.nextImage
  added : ∀ n, n ∈ t.ownImages → n ∈ s.ownImages ∨ s.nextImage ≤ n ∧ n < t.nextImage
  kept : s.ownImages ⊆ t.ownImages

structure Abides (s t : FillState) : Prop where
  template : t.template = s.template
  history : t.history = s.history
  context : t.context = s.context
  streams : t.streams = s.streams
  deleted : t.deleted = s.deleted
  titles : t.book.titles = s.book.titles
  numbers : Numbers s t

structure Frames (P : CellRef → Prop) (s t : FillState) : Prop extends Abides s t where
  grown : Grown P s t
  face : ∀ r, ¬ P r → t.book.face? r = s.book.face? r
  covers : ∀ r, t.book.face? r = none → s.book.face? r = none
  blocks : ∀ title, t.book.blocks title = s.book.blocks title
  images : ∀ title, t.book.images title = s.book.images title

variable {P Q : CellRef → Prop} {s t u : FillState}

theorem numbers_of_eq (hnext : t.nextImage = s.nextImage) (hown : t.ownImages = s.ownImages) :
    Numbers s t := by
  refine ⟨Nat.le_of_eq hnext.symm, fun n hn => .inl (hown ▸ hn), ?_⟩
  rw [hown]
  exact List.Subset.refl _

theorem Numbers.trans (h : Numbers s t) (h' : Numbers t u) : Numbers s u := by
  refine ⟨Nat.le_trans h.next h'.next, fun n hn => ?_, List.Subset.trans h.kept h'.kept⟩
  rcases h'.added n hn with hn | ⟨hle, hlt⟩
  · exact (h.added n hn).imp_right fun hnew => ⟨hnew.1, Nat.lt_of_lt_of_le hnew.2 h'.next⟩
  · exact .inr ⟨Nat.le_trans h.next hle, hlt⟩

theorem Abides.trans (h : Abides s t) (h' : Abides t u) : Abides s u :=
  ⟨h'.template.trans h.template, h'.history.trans h.history, h'.context.trans h.context,
    h'.streams.trans h.streams, h'.deleted.trans h.deleted, h'.titles.trans h.titles,
    h.numbers.trans h'.numbers⟩

theorem abides_of_book (htemplate : t.template = s.template) (hhistory : t.history = s.history)
    (hcontext : t.context = s.context) (hstreams : t.streams = s.streams)
    (hdeleted : t.deleted = s.deleted) (hbook : t.book = s.book)
    (hnext : t.nextImage = s.nextImage) (hown : t.ownImages = s.ownImages) : Abides s t :=
  ⟨htemplate, hhistory, hcontext, hstreams, hdeleted, by rw [hbook], numbers_of_eq hnext hown⟩

theorem Abides.frames (h : Abides s t) (hbook : t.book = s.book) (hgrown : Grown P s t) :
    Frames P s t := by
  refine { h with grown := hgrown, face := ?_, covers := ?_, blocks := ?_, images := ?_ }
  all_goals rw [hbook]
  · exact fun _ _ => rfl
  · exact fun _ h => h
  · exact fun _ => rfl
  · exact fun _ => rfl

theorem frames_of_eq (h : Abides s t) (hbook : t.book = s.book) (hjournal : t.journal = s.journal) :
    Frames P s t :=
  h.frames hbook (grown_of_eq hjournal)

theorem Frames.mono (h : Frames P s t) (hPQ : ∀ r, P r → Q r) : Frames Q s t :=
  { h with
    grown := h.grown.mono hPQ
    face := fun r hr => h.face r fun hp => hr (hPQ r hp) }

instance : IsPreorder FillState (Frames P) where
  refl _ := frames_of_eq (abides_of_book rfl rfl rfl rfl rfl rfl rfl rfl) rfl rfl
  trans _ _ _ h h' :=
    { h.toAbides.trans h'.toAbides with
      grown := trans_of (Grown P) h.grown h'.grown
      face := fun r hr => (h'.face r hr).trans (h.face r hr)
      covers := fun r hr => h.covers r (h'.covers r hr)
      blocks := fun title => (h'.blocks title).trans (h.blocks title)
      images := fun title => (h'.images title).trans (h.images title) }

theorem Frames.tucked (h : Frames P s t) (hs : s.book.Tucked) : t.book.Tucked :=
  hs.mono h.titles (fun r _ => h.covers r) fun title => (h.blocks title).symm ▸ List.Subset.refl _

section OnSheet

variable {title : String} {f : Sheet → Sheet}

theorem abides_onSheet (htitle : ∀ x, (f x).title = x.title) : Abides s (s.onSheet title f) :=
  ⟨rfl, rfl, rfl, rfl, rfl, s.book.titles_modify htitle, numbers_of_eq rfl rfl⟩

theorem frames_onSheet (htitle : ∀ x, (f x).title = x.title)
    (hface : ∀ x p, ¬ P (.ofPos title p) → (f x).face? p = x.face? p)
    (hcovers : ∀ x p, (f x).face? p = none → x.face? p = none)
    (hmerged : ∀ x, (f x).merged = x.merged) (himages : ∀ x, (f x).images = x.images) :
    Frames P s (s.onSheet title f) := by
  cases hfind : s.book.find? title with
  | none => exact frames_of_eq (abides_onSheet htitle) (s.book.modify_of_none hfind) rfl
  | some x =>
    have hofPos : ∀ r : CellRef, r.sheet = title → CellRef.ofPos title r.pos = r := by
      rintro ⟨sheet, row, col⟩ rfl
      rfl
    have hat := fun {r : CellRef} (hr : r.sheet = title) =>
      s.book.face?_of_find? (r := r) (x := x) (by rw [hr]; exact hfind)
    refine { abides_onSheet htitle with
      grown := grown_of_eq rfl, face := ?_, covers := ?_, blocks := ?_, images := ?_ }
    · intro r hr
      rw [onSheet, Workbook.face?_modify htitle hfind]
      split
      · next hsheet =>
        rw [hat hsheet]
        exact hface x r.pos (by rwa [hofPos r hsheet])
      · rfl
    · intro r hr
      rw [onSheet, Workbook.face?_modify htitle hfind] at hr
      split at hr
      · next hsheet =>
        rw [hat hsheet]
        exact hcovers x r.pos hr
      · exact hr
    · intro u
      rw [onSheet, Workbook.blocks_modify htitle hfind]
      split
      · next hu => rw [hu, Workbook.blocks_of_find? hfind, hmerged]
      · rfl
    · intro u
      rw [onSheet, Workbook.images_modify htitle hfind]
      split
      · next hu => rw [hu, Workbook.images_of_find? hfind, himages]
      · rfl

end OnSheet

instance : Confined P (Frames P) where
  touch s r := by
    refine frames_onSheet (fun x => x.touch_title r.pos) ?_ ?_ (fun x => x.touch_merged r.pos)
      fun x => x.touch_images r.pos
    · exact fun x p _ => Sheet.face?_touch
    · intro x p hp
      rwa [Sheet.face?_touch] at hp
  cell s r c hr := by
    refine frames_onSheet (fun _ => rfl) ?_ ?_ (fun _ => rfl) fun _ => rfl
    · intro x p hp
      rw [Sheet.face?_setCell, if_neg]
      rintro rfl
      exact hp hr
    · intro x p hp
      rw [Sheet.face?_setCell] at hp
      split at hp
      · cases hp
      · exact hp
  inert s title f hf := by
    refine frames_onSheet hf.title (fun x p _ => ?_) (fun x p hp => ?_) hf.merged hf.images
    · exact Sheet.face?_congr (by rw [hf.slots])
    · rwa [Sheet.face?_congr (s := x) (by rw [hf.slots])] at hp
  written _ _ := frames_of_eq (abides_of_book rfl rfl rfl rfl rfl rfl rfl rfl) rfl rfl
  log _ _ := frames_of_eq (abides_of_book rfl rfl rfl rfl rfl rfl rfl rfl) rfl rfl

theorem frames_write {w : Write} (hw : P w.target) (s : FillState) :
    Frames P s { s with journal := w :: s.journal } :=
  Abides.frames (abides_of_book rfl rfl rfl rfl rfl rfl rfl rfl) rfl (grown_record hw s)

theorem face?_setCell (s : FillState) (r : CellRef) (c : Cell) :
    (s.onSheet r.sheet fun x => x.setCell r.pos c).book.face? r =
      if (s.book.find? r.sheet).isSome then some c.content else none := by
  cases hfind : s.book.find? r.sheet with
  | none =>
    rw [onSheet, s.book.modify_of_none hfind, Workbook.face?, hfind]
    rfl
  | some x =>
    have htitle : ∀ y : Sheet, (y.setCell r.pos c).title = y.title := fun _ => rfl
    rw [onSheet, Workbook.face?_modify htitle hfind, if_pos rfl, Sheet.face?_setCell, if_pos rfl]
    rfl

theorem sheet?_of_deleted (h : s.deleted = []) (title : String) :
    s.sheet? title = s.book.find? title := by
  rw [sheet?, h]
  rfl

end FillState

open FillState

def Content.info (c : Content) (r : CellRef) : CellInfo :=
  .ofOutput r { value := c.value, type := c.type }

structure CellInfo.Matches (i j : CellInfo) : Prop where
  value : j.value = i.value
  formula? : j.formula? = i.formula?
  kind : j.kind = i.kind

theorem CellInfo.matches_ofOutput (r : CellRef) (c : Cell) :
    (c.content.info r).Matches (.ofOutput r c) := by
  have hsame : ∀ d : Cell, c.value = d.value → c.formula? = d.formula? →
      (CellInfo.ofOutput r d).Matches (.ofOutput r c) := by
    intro d hvalue hformula
    simp only [CellInfo.ofOutput, hformula, hvalue]
    cases d.formula? with
    | none => exact ⟨rfl, rfl, rfl⟩
    | some f => exact ⟨rfl, rfl, rfl⟩
  unfold Content.info
  cases hvalue : c.value with
  | null =>
    have hcontent : c.content = {} := by rw [Cell.content, hvalue]
    rw [hcontent]
    exact hsame _ hvalue (by rw [Cell.formula?, hvalue]; rfl)
  | _ =>
    have hcontent : c.content = ⟨c.value, c.type⟩ := by rw [Cell.content, hvalue]
    rw [hcontent]
    exact hsame _ rfl rfl

theorem CellInfo.Matches.trans {i j k : CellInfo} (h : i.Matches j) (h' : i.Matches k) :
    j.Matches k :=
  ⟨h'.value.trans h.value.symm, h'.formula?.trans h.formula?.symm, h'.kind.trans h.kind.symm⟩

namespace Cell

variable {c c' d d' : Cell} {v : Value}

structure Alike (c d : Cell) : Prop where
  value : d.value = c.value
  type : d.type = c.type

theorem Alike.content (h : c.Alike d) : d.content = c.content := by
  rw [Cell.content, h.value, h.type, Cell.content]

-- What a cell held before a write is not to be seen afterwards.
theorem put?_alike (h : c.put? v = some d) (h' : c'.put? v = some d') : d.Alike d' := by
  cases v with
  | text s =>
    obtain ⟨held, hheld, rfl⟩ := Option.map_eq_some_iff.1 h
    obtain ⟨held', hheld', rfl⟩ := Option.map_eq_some_iff.1 h'
    rw [hheld] at hheld'
    cases hheld'
    exact ⟨rfl, rfl⟩
  | _ =>
    cases h
    cases h'
    exact ⟨rfl, rfl⟩

theorem setLink?_alike {url : String} (hc : c.Alike c') (h : c.setLink? url = some d)
    (h' : c'.setLink? url = some d') : d.Alike d' := by
  cases hvalue : c.value with
  | null =>
    simp only [setLink?, hvalue] at h
    simp only [setLink?, hc.value.trans hvalue] at h'
    by_cases hurl : url.isEmpty = true
    · rw [if_pos hurl] at h h'
      cases h
      cases h'
      exact ⟨rfl, hc.type⟩
    · rw [if_neg hurl] at h h'
      exact put?_alike h h'
  | _ =>
    simp only [setLink?, hvalue] at h
    simp only [setLink?, hc.value.trans hvalue] at h'
    cases h
    cases h'
    exact ⟨rfl, hc.type⟩

theorem write?_alike (h : c.write? v = some d) (h' : c'.write? v = some d') : d.Alike d' := by
  unfold write? at h h'
  cases hstored : v.stored with
  | link url display =>
    rw [hstored] at h h'
    obtain ⟨x, hx, h⟩ := Option.bind_eq_some_iff.1 h
    obtain ⟨x', hx', h'⟩ := Option.bind_eq_some_iff.1 h'
    exact setLink?_alike (put?_alike hx hx') h h'
  | text s =>
    rw [hstored] at h h'
    obtain ⟨x, hx, rfl⟩ := Option.map_eq_some_iff.1 h
    obtain ⟨x', hx', rfl⟩ := Option.map_eq_some_iff.1 h'
    have hx := put?_alike hx hx'
    split
    · exact ⟨hx.value, rfl⟩
    · exact hx
  | _ =>
    rw [hstored] at h h'
    exact put?_alike h h'

end Cell

theorem Workbook.find?_of_face? {w : Workbook} {r : CellRef} {c : Content}
    (h : w.face? r = some c) : (w.find? r.sheet).isSome = true := by
  obtain ⟨s, hs, -⟩ := Option.bind_eq_some_iff.1 h
  rw [hs]
  rfl

namespace FillM

variable {s t : FillState} {r : CellRef}

theorem open?_face {c? : Option Cell} (hd : s.deleted = []) (h : exec (open? r) s = (.ok c?, t)) :
    s.book.face? r = c?.map Cell.content := by
  rcases open?_eq_ok h with ⟨log, hnone, rfl, -⟩ | ⟨x, hsome, -, hc, -⟩
  · rw [sheet?_of_deleted hd] at hnone
    rw [Workbook.face?, hnone]
    rfl
  · rw [sheet?_of_deleted hd] at hsome
    rw [Workbook.face?_of_find? hsome, ← Sheet.face?_touch (p := r.pos), hc]
    cases hcell : (x.touch r.pos).cell? r.pos with
    | some c => exact Sheet.face?_of_cell? hcell
    | none =>
      rw [Sheet.cell?_touch] at hcell
      rw [Sheet.face?_touch, Sheet.face?]
      cases hslot : x.slots[r.pos]? with
      | none =>
        rw [hslot] at hcell
        cases hcell
      | some slot =>
        rw [hslot] at hcell
        cases slot with
        | cell c => cases hcell
        | covered => rfl

theorem putCell_face {c : Cell} (hfind : (s.book.find? r.sheet).isSome = true)
    (h : exec (putCell r c) s = (.ok (), t)) : t.book.face? r = some c.content := by
  rw [exec_putCell] at h
  cases h
  rw [face?_setCell, if_pos hfind]

theorem putOr_face {old c : Cell} {c? : Option Cell}
    (hfind : (s.book.find? r.sheet).isSome = true)
    (h : exec (putOr r old c?) s = (.ok c, t)) : c? = some c ∧ t.book.face? r = some c.content := by
  obtain ⟨hc, rfl⟩ := putOr_eq_ok h
  exact ⟨hc, by rw [face?_setCell, if_pos hfind]⟩

theorem open?_cases {k : Cell → FillM Unit} (hd : s.deleted = [])
    (h : exec (do
      match ← open? r with
      | none => return
      | some c => k c) s = (.ok (), t)) :
    (s.book.face? r = none ∧ Frames (fun _ => False) s t) ∨
      ∃ c u, s.book.face? r = some c.content ∧ Frames (fun _ => False) s u ∧
        u.book.face? r = some c.content ∧ exec (k c) u = (.ok (), t) := by
  obtain ⟨c?, u, hopen, h⟩ := bind_eq_ok.1 h
  have hface := open?_face hd hopen
  have hframes : Frames (fun _ => False) s u := (confined_open? (fun _ => False) r).apply hopen
  cases c? with
  | none =>
    cases h
    exact .inl ⟨hface, hframes⟩
  | some c =>
    refine .inr ⟨c, u, hface, hframes, ?_, h⟩
    rw [hframes.face r id, hface]
    rfl

theorem write_face {w : Write} {k : Cell → FillM Unit} {Q : Cell → Prop} (hd : s.deleted = [])
    (hk : ∀ c u v, (u.book.find? r.sheet).isSome = true → exec (k c) u = (.ok (), v) →
      v.journal = u.journal ∧ ∃ d, Q d ∧ v.book.face? r = some d.content)
    (h : exec (do
      record w
      match ← open? r with
      | none => return
      | some c => k c) s = (.ok (), t)) : w ∈ t.journal ∧
      ((s.book.face? r = none ∧ t.book.face? r = none) ∨
        ∃ c d, s.book.face? r = some c ∧ Q d ∧ t.book.face? r = some d.content) := by
  obtain ⟨_, u, hrecord, h⟩ := bind_eq_ok.1 h
  have hu : u = { s with journal := w :: s.journal } := by
    cases hrecord
    rfl
  have hw : w ∈ u.journal := hu ▸ List.mem_cons_self
  have hface : u.book.face? r = s.book.face? r := by rw [hu]
  rcases open?_cases (by rw [hu]; exact hd) h with ⟨hnone, hframes⟩ | ⟨c, x, hc, hframes, hx, h⟩
  · refine ⟨hframes.grown.mem hw, .inl ⟨hface ▸ hnone, ?_⟩⟩
    rw [hframes.face r id, hnone]
  · obtain ⟨hjournal, d, hd, ht⟩ := hk c x t (Workbook.find?_of_face? hx) h
    exact ⟨hjournal ▸ hframes.grown.mem hw, .inr ⟨_, d, hface ▸ hc, hd, ht⟩⟩

theorem discard_putOr_face {old : Cell} {c? : Option Cell}
    (hfind : (s.book.find? r.sheet).isSome = true)
    (h : exec (discard (putOr r old c?)) s = (.ok (), t)) :
    t.journal = s.journal ∧ ∃ d, c? = some d ∧ t.book.face? r = some d.content := by
  obtain ⟨d, hput⟩ := discard_eq_ok h
  obtain ⟨hd, hface⟩ := putOr_face hfind hput
  obtain ⟨-, rfl⟩ := putOr_eq_ok hput
  exact ⟨rfl, d, hd, hface⟩

theorem setValue_face {v : Value} {font? : Option Font} (hd : s.deleted = [])
    (h : exec (setValue r v font?) s = (.ok (), t)) : .value r v ∈ t.journal ∧
      ((s.book.face? r = none ∧ t.book.face? r = none) ∨
        ∃ c d, s.book.face? r = some c ∧ (∃ old : Cell, old.write? v = some d) ∧
          t.book.face? r = some d.content) := by
  refine write_face (Q := fun d => ∃ old : Cell, old.write? v = some d) hd (fun c u x hfind h => ?_) h
  obtain ⟨_, y, hwritten, h⟩ := bind_eq_ok.1 h
  cases hwritten
  obtain ⟨hjournal, d, hd, hface⟩ :=
    discard_putOr_face (s := { u with written := r :: u.written }) hfind h
  exact ⟨hjournal, d, ⟨_, hd⟩, hface⟩

theorem setFormula_face {formula : String} (hd : s.deleted = [])
    (h : exec (setFormula r formula) s = (.ok (), t)) : .formula r formula ∈ t.journal ∧
      ((s.book.face? r = none ∧ t.book.face? r = none) ∨
        ∃ c d, s.book.face? r = some c ∧
          (∃ old : Cell, old.put? (.text (formulaText formula)) = some d) ∧
            t.book.face? r = some d.content) := by
  refine write_face (Q := fun d => ∃ old : Cell, old.put? (.text (formulaText formula)) = some d) hd
    (fun c u x hfind h => ?_) h
  obtain ⟨hjournal, d, hd, hface⟩ := discard_putOr_face hfind h
  exact ⟨hjournal, d, ⟨c, hd⟩, hface⟩

theorem clearCell_face (hd : s.deleted = []) (h : exec (clearCell r) s = (.ok (), t)) :
    t.book.face? r = (s.book.face? r).map fun _ => {} := by
  obtain ⟨_, u, hrecord, h⟩ := bind_eq_ok.1 h
  cases hrecord
  obtain ⟨x?, v, hsheet, h⟩ := bind_eq_ok.1 h
  have hsheet? : ({ s with journal := .clear r :: s.journal } : FillState).sheet? r.sheet =
      s.book.find? r.sheet := sheet?_of_deleted hd _
  cases hfind : s.book.find? r.sheet with
  | none =>
    obtain ⟨log, hlog⟩ := exec_sheet?_none (hsheet?.trans hfind)
    rw [hlog] at hsheet
    cases hsheet
    cases h
    rw [Workbook.face?, hfind]
    rfl
  | some x =>
    rw [exec_sheet? (hsheet?.trans hfind)] at hsheet
    cases hsheet
    dsimp only at h
    rw [Workbook.face?_of_find? hfind]
    cases hcell : x.cell? r.pos with
    | none =>
      rw [hcell] at h
      cases h
      rw [Workbook.face?_of_find? hfind]
      rcases Sheet.face?_of_none hcell with hface | hface
      · rw [hface]
        rfl
      · rw [hface]
        rfl
    | some c =>
      rw [hcell] at h
      rw [putCell_face (by rw [hfind]; rfl) h, Sheet.face?_of_cell? hcell]
      rfl

theorem outputCell_matches {info : CellInfo} (hd : s.deleted = [])
    (h : exec (outputCell r) s = (.ok info, t)) :
    (((s.book.face? r).getD {}).info r).Matches info := by
  have hblank : ((({} : Content)).info r).Matches { ref := r } := ⟨rfl, rfl, rfl⟩
  obtain ⟨x?, v, hsheet, h⟩ := bind_eq_ok.1 h
  have hsheet? := sheet?_of_deleted hd r.sheet
  cases hfind : s.book.find? r.sheet with
  | none =>
    obtain ⟨log, hlog⟩ := exec_sheet?_none (hsheet?.trans hfind)
    rw [hlog] at hsheet
    cases hsheet
    cases h
    rw [Workbook.face?, hfind]
    exact hblank
  | some x =>
    rw [exec_sheet? (hsheet?.trans hfind)] at hsheet
    cases hsheet
    dsimp only at h
    rw [Workbook.face?_of_find? hfind]
    cases hcell : x.cell? r.pos with
    | none =>
      rw [hcell] at h
      cases h
      rcases Sheet.face?_of_none hcell with hface | hface
      · rw [hface]
        exact hblank
      · rw [hface]
        exact hblank
    | some c =>
      rw [hcell] at h
      cases h
      rw [Sheet.face?_of_cell? hcell]
      exact CellInfo.matches_ofOutput r c

end FillM

end SheetTemplate
