import SheetTemplate.Proofs.Command.Asking
import SheetTemplate.Proofs.Fill.Agreeing
import SheetTemplate.Proofs.Fill.Extending

namespace SheetTemplate

open FillM FillState

structure Renewal where
  roots : List Area
  template : Template
  fresh : Workbook
  cleared : Workbook

def Outside (areas : List Area) (r : CellRef) : Prop := ∀ a ∈ areas, a.contains r = false

def Block.beginsOutside (areas : List Area) (title : String) (b : Block) : Bool :=
  areas.all fun a => !a.contains (.ofPos title b.first)

namespace FillState

def Targets (s : FillState) (r : CellRef) : Prop := ∃ w ∈ s.journal, w.target = r

structure Apart (later : List Area) (s : FillState) : Prop where
  copies : ∀ origin target, .copy origin target ∈ s.journal →
    Outside later target ∨ ¬ s.template.Hides target
  blocks : s.book.Respects later

end FillState

structure Renewal.Meets (w : Renewal) (later : List Area) (s : FillState) (r : CellRef)
    (f f' : Option Content) : Prop where
  covered : Outside later r ∨ ¬ w.template.Hides r → (f' = none ↔ f = none)
  written : Outside later r → s.Targets r → f' = f
  unwritten : Outside later r → ¬ s.Targets r → f ≠ none →
    Outside w.roots r ∧ w.fresh.face? r = f ∧ w.cleared.face? r = f'

structure FillState.Aligned (w : Renewal) (later : List Area) (blind : CellRef → Prop)
    (s s' : FillState) : Prop where
  template : s.template = w.template
  template' : s'.template = w.template
  history : s'.history = s.history
  context : s'.context = s.context
  streams : s'.streams = s.streams
  deleted : s.deleted = []
  deleted' : s'.deleted = []
  titles : s'.book.titles = s.book.titles
  faces : ∀ r, ¬ blind r → w.Meets later s r (s.book.face? r) (s'.book.face? r)
  blocks : ∀ title, (s'.book.blocks title).filter (Block.beginsOutside later title) =
    (s.book.blocks title).filter (Block.beginsOutside later title)
  images : ∀ title, (s'.book.images title).map Image.look = (s.book.images title).map Image.look
  respects : s'.book.Respects later
  tucked : s.book.Tucked
  tucked' : s'.book.Tucked

namespace Renewal.Meets

variable {w : Renewal} {later : List Area} {s t : FillState} {r : CellRef} {f f' : Option Content}

theorem congr (h : w.Meets later s r f f') (hst : t.Targets r ↔ s.Targets r) :
    w.Meets later t r f f' :=
  ⟨h.covered, fun hr ht => h.written hr (hst.1 ht), fun hr ht => h.unwritten hr fun hs => ht (hst.2 hs)⟩

theorem of_eq (hs : s.Targets r) (h : f' = f) : w.Meets later s r f f' := by
  subst h
  exact ⟨fun _ => Iff.rfl, fun _ _ => rfl, fun _ hnot => absurd hs hnot⟩

theorem of_none : w.Meets later s r none none :=
  ⟨fun _ => Iff.rfl, fun _ _ => rfl, fun _ _ hne => absurd rfl hne⟩

theorem of_later (hr : ¬ Outside later r) (h : ¬ w.template.Hides r → (f' = none ↔ f = none)) :
    w.Meets later s r f f' :=
  ⟨fun hor => h (hor.resolve_left hr), fun hout => absurd hout hr, fun hout => absurd hout hr⟩

theorem eq_or (h : w.Meets later s r f f') (hr : Outside later r) :
    f' = f ∨ ¬ s.Targets r ∧
      Outside w.roots r ∧ w.fresh.face? r = f ∧ w.cleared.face? r = f' := by
  by_cases hs : s.Targets r
  · exact .inl (h.written hr hs)
  · by_cases hf : f = none
    · rw [hf]
      exact .inl ((h.covered (.inl hr)).2 hf)
    · exact .inr ⟨hs, h.unwritten hr hs hf⟩

end Renewal.Meets

namespace FillState

variable {w : Renewal} {later : List Area} {blind blind' P : CellRef → Prop} {s s' t t' : FillState}

theorem Targets.mono {r : CellRef} (hs : s.Targets r) (h : ∀ v ∈ s.journal, v ∈ t.journal) :
    t.Targets r := by
  obtain ⟨v, hv, hr⟩ := hs
  exact ⟨v, h v hv, hr⟩

theorem targets_of_grown {r : CellRef} (h : Grown P s t) (hr : ¬ P r) : t.Targets r ↔ s.Targets r := by
  obtain ⟨new, hjournal, hnew⟩ := h
  constructor
  · rintro ⟨v, hv, rfl⟩
    rw [hjournal, List.mem_append] at hv
    rcases hv with hv | hv
    · exact absurd (hnew v hv) hr
    · exact ⟨v, hv, rfl⟩
  · rintro ⟨v, hv, rfl⟩
    exact ⟨v, hjournal ▸ List.mem_append_right _ hv, rfl⟩

theorem targets_congr {r : CellRef} (h : t.journal = s.journal) : t.Targets r ↔ s.Targets r := by
  rw [Targets, h, Targets]

theorem Extends.spoils (h : Extends s t) : Spoils (Apart later) s t := by
  intro ht
  refine ⟨fun origin target hs => h.template ▸ ht.copies origin target (h.journal _ hs), ?_⟩
  exact fun title b hb => ht.blocks title b (h.blocks title hb)

theorem Aligned.frames (h : Aligned w later blind s s') (hs : Frames P s t) (hs' : Frames P s' t')
    (hP : ∀ r, P r → blind r) : Aligned w later blind t t' := by
  constructor
  case template => rw [hs.template, h.template]
  case template' => rw [hs'.template, h.template']
  case history => rw [hs'.history, h.history, hs.history]
  case context => rw [hs'.context, h.context, hs.context]
  case streams => rw [hs'.streams, h.streams, hs.streams]
  case deleted => rw [hs.deleted, h.deleted]
  case deleted' => rw [hs'.deleted, h.deleted']
  case titles => rw [hs'.titles, h.titles, hs.titles]
  case faces =>
    intro r hblind
    have hnot : ¬ P r := fun hp => hblind (hP r hp)
    rw [hs.face r hnot, hs'.face r hnot]
    exact (h.faces r hblind).congr (targets_of_grown hs.grown hnot)
  case blocks =>
    intro title
    rw [hs'.blocks, h.blocks, hs.blocks]
  case images =>
    intro title
    rw [hs'.images, h.images, hs.images]
  case respects =>
    intro title b hb
    rw [hs'.blocks] at hb
    exact h.respects title b hb
  case tucked => exact hs.tucked h.tucked
  case tucked' => exact hs'.tucked h.tucked'

theorem Aligned.settle (h : Aligned w later blind s s') (hbook : t.book = s.book)
    (hbook' : t'.book = s'.book) (hjournal : t.journal = s.journal)
    (htemplate : t.template = s.template) (htemplate' : t'.template = s'.template)
    (hdeleted : t.deleted = s.deleted) (hdeleted' : t'.deleted = s'.deleted)
    (hhistory : t'.history = t.history) (hcontext : t'.context = t.context)
    (hstreams : t'.streams = t.streams) : Aligned w later blind t t' where
  template := htemplate.trans h.template
  template' := htemplate'.trans h.template'
  history := hhistory
  context := hcontext
  streams := hstreams
  deleted := hdeleted.trans h.deleted
  deleted' := hdeleted'.trans h.deleted'
  titles := by rw [hbook', h.titles, hbook]
  faces r hblind := by
    rw [hbook, hbook']
    exact (h.faces r hblind).congr (targets_congr hjournal)
  blocks title := by rw [hbook', h.blocks, hbook]
  images title := by rw [hbook', h.images, hbook]
  respects := hbook' ▸ h.respects
  tucked := hbook ▸ h.tucked
  tucked' := hbook' ▸ h.tucked'

theorem Aligned.blinded (h : Aligned w later blind s s') (hblind : ∀ r, blind r → blind' r) :
    Aligned w later blind' s s' :=
  { h with faces := fun r hnot => h.faces r fun hr => hnot (hblind r hr) }

theorem Aligned.met {x : CellRef} (h : Aligned w later (· = x) s s')
    (hx : w.Meets later s x (s.book.face? x) (s'.book.face? x)) :
    Aligned w later (fun _ => False) s s' := by
  refine { h with faces := fun r _ => ?_ }
  by_cases hrx : r = x
  · rwa [hrx]
  · exact h.faces r hrx

theorem Aligned.find?_isSome (h : Aligned w later blind s s') (title : String) :
    (s'.book.find? title).isSome = (s.book.find? title).isSome :=
  Workbook.find?_isSome_iff h.titles title

section Merge

variable {title : String} {b : Block}

theorem beginsOutside_of_within {book : Workbook} {outer : Block} (hbook : book.Respects later)
    (houter : outer ∈ book.blocks title) (hvalid : b.isValid = true) (hwithin : b.within outer = true)
    (hb : b.beginsOutside later title = true) : outer.beginsOutside later title = true := by
  have hfirst : b.Has b.first := by
    simp only [Block.isValid, Bool.and_eq_true, decide_eq_true_eq] at hvalid
    constructor
    all_goals omega
  have hhas := Block.has_of_within hwithin hfirst
  rw [Block.beginsOutside, List.all_eq_true] at hb ⊢
  intro a ha
  rw [(hbook title outer houter a ha).contains_first hhas]
  exact hb a ha

theorem Merged.filter_blocks (h : Merged title b s t) (hs : s.book.Respects later) (u : String) :
    (t.book.blocks u).filter (Block.beginsOutside later u) =
      if u = title ∧ b.beginsOutside later title = true ∧
          ((s.book.blocks u).filter (Block.beginsOutside later u)).any b.within = false then
        (s.book.blocks u).filter (Block.beginsOutside later u) ++ [b]
      else (s.book.blocks u).filter (Block.beginsOutside later u) := by
  rw [h.blocks]
  by_cases hu : u = title
  · subst hu
    cases hb : b.beginsOutside later u with
    | false =>
      by_cases hany : (s.book.blocks u).any b.within = false
      · simp [hany, hb]
      · simp [hany]
    | true =>
      have hany : ((s.book.blocks u).filter (Block.beginsOutside later u)).any b.within =
          (s.book.blocks u).any b.within := by
        rw [Bool.eq_iff_iff, List.any_eq_true, List.any_eq_true]
        constructor
        · rintro ⟨outer, houter, hwithin⟩
          exact ⟨outer, (List.mem_filter.1 houter).1, hwithin⟩
        · rintro ⟨outer, houter, hwithin⟩
          have hout := beginsOutside_of_within hs houter h.valid hwithin hb
          exact ⟨outer, List.mem_filter.2 ⟨houter, hout⟩, hwithin⟩
      rw [hany]
      by_cases hnone : (s.book.blocks u).any b.within = false
      · simp [hnone, hb]
      · simp [hnone]
  · simp [hu]

theorem Aligned.merge (h : Aligned w later blind s s') (ht : t.book.Respects later)
    (hr : exec (FillM.merge title b) s = (.ok (), t))
    (hr' : exec (FillM.merge title b) s' = (.ok (), t')) : Aligned w later blind t t' := by
  have hjournal := merge_journal hr
  have hjournal' := merge_journal hr'
  have hfind := h.find?_isSome title
  have hsheet : s.sheet? title = s.book.find? title := sheet?_of_deleted h.deleted title
  have hsheet' : s'.sheet? title = s'.book.find? title := sheet?_of_deleted h.deleted' title
  rcases merge_cases hr with ⟨habides, hbook, hnone⟩ | ⟨-, hsome, hmerged⟩
  · rcases merge_cases hr' with ⟨habides', hbook', -⟩ | ⟨-, hsome', -⟩
    · exact h.frames (frames_of_eq (P := fun _ => False) habides hbook hjournal)
        (frames_of_eq habides' hbook' hjournal') fun _ => False.elim
    · rw [hsheet', hfind, ← hsheet, hnone rfl] at hsome'
      cases hsome'
  · rcases merge_cases hr' with ⟨-, -, hnone'⟩ | ⟨-, -, hmerged'⟩
    · rw [hsheet, ← hfind, ← hsheet', hnone' rfl] at hsome
      cases hsome
    · have hs : s.book.Respects later := fun u x hx => ht u x (hmerged.subset u hx)
      constructor
      case template => rw [hmerged.template, h.template]
      case template' => rw [hmerged'.template, h.template']
      case history => rw [hmerged'.history, h.history, hmerged.history]
      case context => rw [hmerged'.context, h.context, hmerged.context]
      case streams => rw [hmerged'.streams, h.streams, hmerged.streams]
      case deleted => rw [hmerged.deleted, h.deleted]
      case deleted' => rw [hmerged'.deleted, h.deleted']
      case titles => rw [hmerged'.titles, h.titles, hmerged.titles]
      case faces =>
        intro r hblind
        rw [hmerged.face, hmerged'.face]
        split
        · exact .of_none
        · exact (h.faces r hblind).congr (targets_congr hjournal)
      case blocks =>
        intro u
        rw [hmerged.filter_blocks hs, hmerged'.filter_blocks h.respects, h.blocks]
      case images =>
        intro u
        rw [hmerged'.images, h.images, hmerged.images]
      case respects => exact hmerged'.respects h.respects (hmerged.respects_self ht)
      case tucked => exact hmerged.tucked h.tucked
      case tucked' => exact hmerged'.tucked h.tucked'

end Merge

theorem Aligned.pictured {title : String} {i i' : Image} (h : Aligned w later blind s s')
    (hs : Pictured title i s t) (hs' : Pictured title i' s' t') (hlook : i'.look = i.look) :
    Aligned w later blind t t' := by
  constructor
  case template => rw [hs.template, h.template]
  case template' => rw [hs'.template, h.template']
  case history => rw [hs'.history, h.history, hs.history]
  case context => rw [hs'.context, h.context, hs.context]
  case streams => rw [hs'.streams, h.streams, hs.streams]
  case deleted => rw [hs.deleted, h.deleted]
  case deleted' => rw [hs'.deleted, h.deleted']
  case titles => rw [hs'.titles, h.titles, hs.titles]
  case faces =>
    intro r hblind
    rw [hs.face, hs'.face]
    exact (h.faces r hblind).congr (targets_congr hs.journal)
  case blocks =>
    intro u
    rw [hs'.blocks, h.blocks, hs.blocks]
  case images =>
    intro u
    rw [hs'.images, hs.images]
    by_cases hu : u = title
    · simp [hu, h.images, hlook]
    · simp [hu, h.images]
  case respects =>
    intro u b hb
    rw [hs'.blocks] at hb
    exact h.respects u b hb
  case tucked => exact hs.tucked h.tucked
  case tucked' => exact hs'.tucked h.tucked'

theorem Aligned.vacated {a : Area} (h : Aligned w (a :: later) (fun _ => False) s s')
    (hs : Vacated a s t) (hs' : Vacated a s' t') (hkept : Kept s t) (hkept' : Kept s' t') :
    Aligned w later (fun _ => False) t t' := by
  have hcons : ∀ title : String, Block.beginsOutside (a :: later) title =
      fun b => Block.beginsOutside later title b && !a.contains (.ofPos title b.first) := by
    intro title
    funext b
    rw [Block.beginsOutside, List.all_cons, Bool.and_comm]
    rfl
  constructor
  case template => rw [hs.template, h.template]
  case template' => rw [hs'.template, h.template']
  case history => rw [hs'.history, h.history, hs.history]
  case context => rw [hs'.context, h.context, hs.context]
  case streams => rw [hs'.streams, h.streams, hs.streams]
  case deleted => rw [hs.deleted, h.deleted]
  case deleted' => rw [hs'.deleted, h.deleted']
  case titles => rw [hs'.titles, h.titles, hs.titles]
  case faces =>
    intro r _
    cases hin : a.contains r with
    | true =>
      -- A cell of the area is empty in both fills now, unless it has no sheet.
      cases hfind : (s.book.find? r.sheet).isSome with
      | true =>
        have hfind' : (s'.book.find? r.sheet).isSome = true := by rw [h.find?_isSome, hfind]
        rw [hs.empty r hin hfind, hs'.empty r hin hfind']
        exact .of_eq ⟨_, hs.cleared r hin hfind, rfl⟩ rfl
      | false =>
        have hnone : ∀ u : FillState, u.book.titles = s.book.titles → u.book.face? r = none := by
          intro u hu
          have hsome := Workbook.find?_isSome_iff hu r.sheet
          rw [hfind, Option.isSome_eq_false_iff, Option.isNone_iff_eq_none] at hsome
          rw [Workbook.face?, hsome]
          rfl
        rw [hnone t hs.titles, hnone t' (hs'.titles.trans h.titles)]
        exact .of_none
    | false =>
      -- Outside the area nothing is different.
      rw [hs.face r hin, hs'.face r hin]
      have hmeets := (h.faces r id).congr (t := t) (targets_of_grown hs.grown (by
        rw [hin]
        exact Bool.false_ne_true))
      have hcons' : Outside later r → Outside (a :: later) r := by
        intro hr x hx
        rcases List.mem_cons.1 hx with rfl | hx
        · exact hin
        · exact hr x hx
      exact ⟨fun hr => hmeets.covered (hr.imp_left hcons'), fun hr => hmeets.written (hcons' hr),
        fun hr => hmeets.unwritten (hcons' hr)⟩
  case blocks =>
    intro title
    have hblocks := h.blocks title
    rw [hcons, ← List.filter_filter, ← List.filter_filter] at hblocks
    rwa [hs.blocks, hs'.blocks]
  case images =>
    intro title
    rw [hs'.images, h.images, hs.images]
  case respects =>
    intro title b hb x hx
    rw [hs'.blocks, List.mem_filter] at hb
    exact h.respects title b hb.1 x (List.mem_cons_of_mem a hx)
  case tucked => exact hkept.tucked h.tucked
  case tucked' => exact hkept'.tucked h.tucked'

end FillState

end SheetTemplate
