import SheetTemplate.Proofs.Fill.Extending
import SheetTemplate.Proofs.Workbook.Looks

namespace SheetTemplate

open FillM FillState

namespace Cell

variable {c c' d d' : Cell} {v : Value}

theorem settled_eq_iff : d.settled = c.settled ↔
    d.value = c.value ∧ d.type = c.type ∧ d.font = c.font ∧ d.link? = c.link? ∧
      d.comment? = c.comment? := by
  simp only [settled, mk.injEq, Option.some.injEq]

theorem settled_withFont (h : d.settled = c.settled) (font? : Option Font) :
    { d with font? := font?.or d.font? }.settled = { c with font? := font?.or c.font? }.settled := by
  obtain ⟨hvalue, htype, hfont, hlink, hcomment⟩ := settled_eq_iff.1 h
  refine settled_eq_iff.2 ⟨hvalue, htype, ?_, hlink, hcomment⟩
  cases font? with
  | none => exact hfont
  | some f => rfl

theorem settled_put? (h : c'.settled = c.settled) (hd : c.put? v = some d)
    (hd' : c'.put? v = some d') : d'.settled = d.settled := by
  obtain ⟨-, -, hfont, hlink, hcomment⟩ := settled_eq_iff.1 h
  have halike := put?_alike hd hd'
  suffices d'.font = d.font ∧ d'.link? = d.link? ∧ d'.comment? = d.comment? from
    settled_eq_iff.2 ⟨halike.value, halike.type, this⟩
  cases v with
  | text s =>
    obtain ⟨held, -, rfl⟩ := Option.map_eq_some_iff.1 hd
    obtain ⟨held', -, rfl⟩ := Option.map_eq_some_iff.1 hd'
    exact ⟨hfont, hlink, hcomment⟩
  | _ =>
    cases hd
    cases hd'
    refine ⟨?_, hlink, hcomment⟩
    simp only [font]
    split
    · exact hfont
    · exact hfont

theorem settled_setLink? {url : String} (h : c'.settled = c.settled) (hd : c.setLink? url = some d)
    (hd' : c'.setLink? url = some d') : d'.settled = d.settled := by
  obtain ⟨value, type, font?, link?, comment?⟩ := c
  obtain ⟨value', type', font?', link?', comment?'⟩ := c'
  obtain ⟨rfl, rfl, hfont, -, rfl⟩ := settled_eq_iff.1 h
  have hlinked : (⟨value', type', font?', some url, comment?'⟩ : Cell).settled =
      (⟨value', type', font?, some url, comment?'⟩ : Cell).settled :=
    settled_eq_iff.2 ⟨rfl, rfl, hfont, rfl, rfl⟩
  cases value' with
  | null =>
    simp only [setLink?] at hd hd'
    split at hd
    · next hurl =>
      rw [if_pos hurl] at hd'
      cases hd
      cases hd'
      exact hlinked
    · next hurl =>
      rw [if_neg hurl] at hd'
      exact settled_put? hlinked hd hd'
  | _ =>
    cases hd
    cases hd'
    exact hlinked

theorem settled_write? {v' : Value} (h : c'.settled = c.settled) (hv : v'.stored = v.stored)
    (hd : c.write? v = some d) (hd' : c'.write? v' = some d') : d'.settled = d.settled := by
  unfold write? at hd hd'
  rw [hv] at hd'
  cases hstored : v.stored with
  | link url display =>
    rw [hstored] at hd hd'
    obtain ⟨x, hx, hd⟩ := Option.bind_eq_some_iff.1 hd
    obtain ⟨x', hx', hd'⟩ := Option.bind_eq_some_iff.1 hd'
    exact settled_setLink? (settled_put? h hx hx') hd hd'
  | text s =>
    rw [hstored] at hd hd'
    obtain ⟨x, hx, rfl⟩ := Option.map_eq_some_iff.1 hd
    obtain ⟨x', hx', rfl⟩ := Option.map_eq_some_iff.1 hd'
    have hsame := settled_put? h hx hx'
    split
    · obtain ⟨hvalue, -, hrest⟩ := settled_eq_iff.1 hsame
      exact settled_eq_iff.2 ⟨hvalue, rfl, hrest⟩
    · exact hsame
  | _ =>
    rw [hstored] at hd hd'
    exact settled_put? h hd hd'

end Cell

def CellInfo.settled (i : CellInfo) : CellInfo := { i with font? := some (i.font?.getD {}) }

theorem CellInfo.settled_ofOutput (r : CellRef) (c : Cell) :
    (ofOutput r c.settled).settled = (ofOutput r c).settled := by
  have hformula : c.settled.formula? = c.formula? := rfl
  unfold ofOutput
  rw [hformula]
  cases c.formula? with
  | none => rfl
  | some f => rfl

theorem Slot.look?_content (slot : Slot) : (slot.look?.map Cell.content).getD {} = slot.content := by
  cases slot with
  | cell c => rfl
  | covered => rfl

theorem Workbook.content_eq_look? (w : Workbook) (r : CellRef) :
    w.content r = ((w.look? r).map Cell.content).getD {} := by
  rw [content, slot?, look?]
  cases w.find? r.sheet with
  | none => rfl
  | some s =>
    rw [Option.bind_some, Option.bind_some, Sheet.look?]
    cases s.slots[r.pos]? with
    | none => rfl
    | some slot => exact (Slot.look?_content slot).symm

theorem Workbook.find?_of_look? {w : Workbook} {r : CellRef} {c : Cell} (h : w.look? r = some c) :
    (w.find? r.sheet).isSome = true := by
  obtain ⟨s, hs, -⟩ := Option.bind_eq_some_iff.1 h
  rw [hs]
  rfl

namespace FillState

structure Touches (P : CellRef → Prop) (s t : FillState) : Prop where
  template : t.template = s.template
  history : t.history = s.history
  context : t.context = s.context
  deleted : t.deleted = s.deleted
  titles : t.book.titles = s.book.titles
  blocks : ∀ title, t.book.blocks title = s.book.blocks title
  free : ∀ r, t.book.look? r = none → s.book.look? r = none
  looks : ∀ r, ¬ P r → t.book.look? r = s.book.look? r

variable {P Q : CellRef → Prop} {s t : FillState} {title : String} {f : Sheet → Sheet}

theorem touches_of_book (htemplate : t.template = s.template) (hhistory : t.history = s.history)
    (hcontext : t.context = s.context) (hdeleted : t.deleted = s.deleted) (hbook : t.book = s.book) :
    Touches P s t := by
  refine ⟨htemplate, hhistory, hcontext, hdeleted, ?_, ?_, ?_, ?_⟩
  all_goals rw [hbook]
  · exact fun _ => rfl
  · exact fun _ h => h
  · exact fun _ _ => rfl

theorem touches_of_remarked (h : Remarked s t) : Touches P s t := by
  rw [Remarked] at h
  rw [h]
  exact touches_of_book rfl rfl rfl rfl rfl

theorem touches_write (s : FillState) (w : Write) :
    Touches P s { s with journal := w :: s.journal } := touches_of_book rfl rfl rfl rfl rfl

theorem Touches.mono (h : Touches P s t) (hPQ : ∀ r, P r → Q r) : Touches Q s t :=
  { h with looks := fun r hr => h.looks r fun hp => hr (hPQ r hp) }

instance : IsPreorder FillState (Touches P) where
  refl _ := touches_of_book rfl rfl rfl rfl rfl
  trans _ _ _ h h' :=
    { template := h'.template.trans h.template
      history := h'.history.trans h.history
      context := h'.context.trans h.context
      deleted := h'.deleted.trans h.deleted
      titles := h'.titles.trans h.titles
      blocks := fun title => (h'.blocks title).trans (h.blocks title)
      free := fun r hr => h.free r (h'.free r hr)
      looks := fun r hr => (h'.looks r hr).trans (h.looks r hr) }

theorem touches_onSheet (htitle : ∀ x, (f x).title = x.title) (hmerged : ∀ x, (f x).merged = x.merged)
    (hfree : ∀ x p, (f x).look? p = none → x.look? p = none)
    (hlook : ∀ x p, ¬ P (.ofPos title p) → (f x).look? p = x.look? p) :
    Touches P s (s.onSheet title f) := by
  have htitles : (s.onSheet title f).book.titles = s.book.titles := s.book.titles_modify htitle
  cases hfind : s.book.find? title with
  | none => exact touches_of_book rfl rfl rfl rfl (s.book.modify_of_none hfind)
  | some x =>
    have hat := fun {r : CellRef} (hr : r.sheet = title) =>
      Workbook.look?_of_find? (w := s.book) (r := r) (x := x) (by rw [hr]; exact hfind)
    refine ⟨rfl, rfl, rfl, rfl, htitles, fun u => ?_, fun r hr => ?_, fun r hr => ?_⟩
    · rw [onSheet, Workbook.blocks_modify htitle hfind]
      split
      · next hu => rw [hu, Workbook.blocks_of_find? hfind, hmerged]
      · rfl
    · rw [onSheet, Workbook.look?_modify htitle hfind] at hr
      split at hr
      · next hsheet =>
        rw [hat hsheet]
        exact hfree x r.pos hr
      · exact hr
    · rw [onSheet, Workbook.look?_modify htitle hfind]
      split
      · next hsheet =>
        rw [hat hsheet]
        exact hlook x r.pos (by rwa [CellRef.ofPos_pos hsheet])
      · rfl

instance : Confined P (Touches P) where
  touch s r := by
    refine touches_onSheet (fun x => x.touch_title r.pos) (fun x => x.touch_merged r.pos) ?_ ?_
    · intro x p hp
      rwa [Sheet.look?_touch] at hp
    · exact fun x p _ => Sheet.look?_touch
  cell s r c hr := by
    refine touches_onSheet (fun _ => rfl) (fun _ => rfl) (fun x p hp => ?_) fun x p hp => ?_
    · rw [Sheet.look?_setCell] at hp
      split at hp
      · cases hp
      · exact hp
    · rw [Sheet.look?_setCell, if_neg]
      rintro rfl
      exact hp hr
  inert s title f hf := by
    refine touches_onSheet hf.title hf.merged (fun x p hp => ?_) fun x p _ => ?_
    · rwa [Sheet.look?_congr (s := x) (by rw [hf.slots])] at hp
    · exact Sheet.look?_congr (by rw [hf.slots])
  written _ _ := touches_of_book rfl rfl rfl rfl rfl
  log _ _ := touches_of_book rfl rfl rfl rfl rfl

theorem look?_setCell (s : FillState) (r : CellRef) (c : Cell) :
    (s.onSheet r.sheet fun x => x.setCell r.pos c).book.look? r =
      if (s.book.find? r.sheet).isSome then some c.settled else none := by
  cases hfind : s.book.find? r.sheet with
  | none =>
    rw [onSheet, s.book.modify_of_none hfind, Workbook.look?, hfind]
    rfl
  | some x =>
    have htitle : ∀ y : Sheet, (y.setCell r.pos c).title = y.title := fun _ => rfl
    rw [onSheet, Workbook.look?_modify htitle hfind, if_pos rfl, Sheet.look?_setCell, if_pos rfl]
    rfl

end FillState

namespace FillM

variable {P : CellRef → Prop} {s t : FillState} {r : CellRef}

theorem leads_touches_addImage (r : CellRef) (v : Value) (scaleX scaleY : Float) :
    Leads (Touches P) (addImage r v scaleX scaleY) := by
  refine (confined_sheet? P _).bind fun sheet? => ?_
  cases sheet? with
  | none => exact leads_pure _
  | some sheet =>
    dsimp only
    split
    · refine (leads_ofExcept _).bind fun anchor => leads_get.bind fun s => Leads.bind ?_ fun _ => ?_
      · exact leads_modify fun t =>
          touches_onSheet (fun _ => rfl) (fun _ => rfl) (fun _ _ h => h) fun _ _ _ => rfl
      · exact leads_modify fun t => touches_of_book rfl rfl rfl rfl rfl
    · exact leads_throw _

theorem open?_look {c? : Option Cell} (hd : s.deleted = []) (h : exec (open? r) s = (.ok c?, t)) :
    s.book.look? r = c?.map Cell.settled := by
  rcases open?_eq_ok h with ⟨log, hnone, rfl, -⟩ | ⟨x, hsome, -, hc, -⟩
  · rw [sheet?_of_deleted hd] at hnone
    rw [Workbook.look?, hnone]
    rfl
  · rw [sheet?_of_deleted hd] at hsome
    rw [Workbook.look?_of_find? hsome, ← Sheet.look?_touch (p := r.pos), hc]
    cases hcell : (x.touch r.pos).cell? r.pos with
    | some c => exact Sheet.look?_of_cell? hcell
    | none =>
      have hslot := hcell
      rw [Sheet.cell?_touch] at hslot
      rw [Option.map_none, Sheet.look?_eq_none, Sheet.slot_touch, if_pos rfl]
      cases hx : x.slots[r.pos]? with
      | none =>
        rw [hx] at hslot
        cases hslot
      | some slot =>
        rw [hx] at hslot
        cases slot with
        | cell c => cases hslot
        | covered => rfl

theorem putCell_look {c : Cell} (hfind : (s.book.find? r.sheet).isSome = true)
    (h : exec (putCell r c) s = (.ok (), t)) : t.book.look? r = some c.settled := by
  rw [exec_putCell] at h
  cases h
  rw [look?_setCell, if_pos hfind]

theorem putOr_look {old c : Cell} {c? : Option Cell}
    (hfind : (s.book.find? r.sheet).isSome = true)
    (h : exec (putOr r old c?) s = (.ok c, t)) :
    c? = some c ∧ t.book.look? r = some c.settled := by
  obtain ⟨hc, rfl⟩ := putOr_eq_ok h
  exact ⟨hc, by rw [look?_setCell, if_pos hfind]⟩

theorem clearCell_look (hd : s.deleted = []) (h : exec (clearCell r) s = (.ok (), t)) :
    t.book.look? r = (s.book.look? r).map Cell.clear := by
  obtain ⟨_, u, hrecord, h⟩ := bind_eq_ok.1 h
  cases hrecord
  obtain ⟨x?, v, hsheet, h⟩ := bind_eq_ok.1 h
  have hsheet? : ({ s with journal := .clear r :: s.journal } : FillState).sheet? r.sheet =
      s.book.find? r.sheet := sheet?_of_deleted hd _
  cases hfind : s.book.find? r.sheet with
  | none =>
    obtain ⟨log, hlog⟩ := exec_sheet?_none (hsheet?.trans hfind)
    rw [hlog] at hsheet
    cases hsheet
    cases h
    rw [Workbook.look?, hfind]
    rfl
  | some x =>
    rw [exec_sheet? (hsheet?.trans hfind)] at hsheet
    cases hsheet
    dsimp only at h
    rw [Workbook.look?_of_find? hfind]
    cases hcell : x.cell? r.pos with
    | none =>
      rw [hcell] at h
      cases h
      rw [Workbook.look?_of_find? hfind, Sheet.look?]
      rcases (x.cell?_eq_none r.pos).1 hcell with hslot | hslot
      · rw [hslot]
        rfl
      · rw [hslot]
        rfl
    | some c =>
      rw [hcell] at h
      rw [putCell_look (by rw [hfind]; rfl) h, Sheet.look?_of_cell? hcell]
      rfl

theorem outputCell_settled {info : CellInfo} (hd : s.deleted = [])
    (h : exec (outputCell r) s = (.ok info, t)) :
    info.settled = (CellInfo.ofOutput r ((s.book.look? r).getD {})).settled := by
  obtain ⟨x?, v, hsheet, h⟩ := bind_eq_ok.1 h
  have hsheet? := sheet?_of_deleted hd r.sheet
  cases hfind : s.book.find? r.sheet with
  | none =>
    obtain ⟨log, hlog⟩ := exec_sheet?_none (hsheet?.trans hfind)
    rw [hlog] at hsheet
    cases hsheet
    cases h
    rw [Workbook.look?, hfind]
    rfl
  | some x =>
    rw [exec_sheet? (hsheet?.trans hfind)] at hsheet
    cases hsheet
    dsimp only at h
    rw [Workbook.look?_of_find? hfind]
    cases hcell : x.cell? r.pos with
    | none =>
      rw [hcell] at h
      cases h
      rw [Sheet.look?]
      rcases (x.cell?_eq_none r.pos).1 hcell with hslot | hslot
      · rw [hslot]
        rfl
      · rw [hslot]
        rfl
    | some c =>
      rw [hcell] at h
      cases h
      rw [Sheet.look?_of_cell? hcell]
      exact (CellInfo.settled_ofOutput r c).symm

end FillM

end SheetTemplate
