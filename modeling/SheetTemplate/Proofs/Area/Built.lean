import SheetTemplate.Fill.Run
import SheetTemplate.Proofs.Fill.Agreeing
import SheetTemplate.Proofs.Fill.Standing

namespace SheetTemplate

open FillM FillState

structure FillState.Annotated (s t : FillState) : Prop where
  book : t.book = s.book
  history : t.history = s.history
  journal : t.journal = s.journal
  deleted : t.deleted = s.deleted
  context : t.context = s.context
  streams : t.streams = s.streams
  nextImage : t.nextImage = s.nextImage
  ownImages : t.ownImages = s.ownImages
  populated : ∀ r, (t.template.cell? r).isSome = (s.template.cell? r).isSome
  merged : ∀ title, (t.template.sheet? title).map (·.merged) =
    (s.template.sheet? title).map (·.merged)
  keyed : s.template.Keyed → t.template.Keyed

namespace FillState

variable {s t : FillState}

theorem annotated_of_log (s : FillState) (log : List LogEntry) :
    Annotated s { s with log := log } :=
  ⟨rfl, rfl, rfl, rfl, rfl, rfl, rfl, rfl, fun _ => rfl, fun _ => rfl, id⟩

instance : IsPreorder FillState Annotated where
  refl s := annotated_of_log s s.log
  trans _ _ _ h h' :=
    ⟨h'.book.trans h.book, h'.history.trans h.history, h'.journal.trans h.journal,
      h'.deleted.trans h.deleted, h'.context.trans h.context, h'.streams.trans h.streams,
      h'.nextImage.trans h.nextImage, h'.ownImages.trans h.ownImages,
      fun r => (h'.populated r).trans (h.populated r), fun r => (h'.merged r).trans (h.merged r),
      fun hkeyed => h'.keyed (h.keyed hkeyed)⟩

theorem Annotated.sound (h : Annotated s t) (hs : s.Sound) : t.Sound := by
  intro r info hinfo
  have hpopulated := h.populated r
  rw [hinfo] at hpopulated
  obtain ⟨i, hi⟩ := Option.isSome_iff_exists.1 hpopulated.symm
  obtain ⟨hsheet, hcovers, hhides⟩ := hs r i hi
  refine ⟨?_, ?_, ?_⟩
  · rwa [sheet?_isSome, h.deleted, h.book, ← sheet?_isSome]
  · rwa [h.book]
  · rwa [Template.hides_congr (h.merged r.sheet)]

end FillState

namespace FillM

theorem leads_annotated_log (level : LogLevel) (source text : String) :
    Leads Annotated (log level source text) :=
  leads_modify fun s => annotated_of_log s _

theorem leads_keepParams (r : CellRef) (params : CellParams) :
    Leads Annotated (keepParams r params) := by
  intro s
  rw [keepParams, exec_modify]
  refine ⟨rfl, rfl, rfl, rfl, rfl, rfl, rfl, rfl, fun x => ?_,
    fun x => Template.merged_modify _ _ _, fun hT => ?_⟩
  · simp only [Template.cell?_modify]
    split
    · rw [Option.isSome_map]
    · rfl
  · exact hT.modify r fun _ => rfl

theorem leads_foldlM {α β : Type} {R : FillState → FillState → Prop} [IsPreorder FillState R]
    {f : β → α → FillM β} (hf : ∀ b a, Leads R (f b a)) (l : List α) (b : β) :
    Leads R (l.foldlM f b) := by
  induction l generalizing b with
  | nil => exact leads_pure _
  | cons a l ih => exact (hf b a).bind fun b => ih b

theorem leads_readDirective (r : Registry) (p : Plan) (d : Directive) :
    Leads Annotated (readDirective r p d) := by
  unfold readDirective
  extract_lets jp
  have hjp : ∀ last, Leads Annotated (jp last) := by
    intro last
    refine (leads_ofExcept _).bind fun size => ?_
    split
    · exact leads_pure _
    · refine (leads_ofExcept _).bind fun command? => ?_
      split
      · exact (leads_modify fun s => annotated_of_log s _).bind fun _ => leads_pure _
      · exact leads_pure _
  split
  · exact (leads_pure _).bind hjp
  · exact (leads_throw _).bind hjp

theorem leads_readComment (r : Registry) (p : Plan) (i : CellInfo) :
    Leads Annotated (readComment r p i) := by
  unfold readComment
  refine (leads_ofExcept _).bind fun found => ?_
  obtain ⟨directives, params?⟩ := found
  have hread := fun l : List Directive => leads_foldlM (leads_readDirective r) l p
  cases params? with
  | none => exact (leads_pure _).bind hread
  | some params => exact (leads_keepParams _ _).bind fun _ => hread directives

theorem leads_bindEntry (p : Plan) (entry : CommandEntry × Nat) :
    Leads Annotated (bindEntry p entry) := by
  unfold bindEntry
  dsimp only
  split
  · exact (leads_annotated_log _ _ _).bind fun _ => leads_pure _
  · exact (leads_annotated_log _ _ _).bind fun _ => leads_pure _

theorem leads_buildAreas (r : Registry) (listeners : List Nat) :
    Leads Annotated (buildAreas r listeners) := by
  refine leads_get.bind fun s => ?_
  dsimp only
  split
  · exact leads_throw _
  · refine (leads_foldlM (leads_readComment r) _ _).bind fun p => ?_
    split
    · exact leads_throw _
    · refine (leads_foldlM leads_bindEntry _ _).bind fun p => ?_
      exact (leads_annotated_log _ _ _).bind fun _ => leads_pure _

def Congruent (s s' : FillState) : Prop := s'.template = s.template

abbrev Repeats {α : Type} (m : FillM α) : Prop := Agree (fun _ => True) Congruent Eq m m

theorem Repeats.then {α β : Type} {m : FillM α} {f : α → FillM β} (hm : Repeats m)
    (hf : ∀ a, Repeats (f a)) : Repeats (m >>= f) := by
  refine Agree.bind hm ?_ fun _ => leads_spoils_true _
  rintro a _ rfl
  exact hf a

theorem repeats_pure {α : Type} (a : α) : Repeats (pure a) := agree_pure rfl

theorem repeats_throw {α : Type} (f : Failure) : Repeats (throw f : FillM α) := agree_throw f _

theorem repeats_ofExcept {α : Type} (r : Except Failure α) : Repeats (ofExcept r) := by
  cases r with
  | ok a => exact repeats_pure a
  | error f => exact repeats_throw f

theorem repeats_modify {f : FillState → FillState}
    (hf : ∀ s s', Congruent s s' → Congruent (f s) (f s')) : Repeats (modify f) := by
  intro s s' _ _ t t' h hr hr' _
  cases hr
  cases hr'
  exact ⟨hf s s' h, rfl⟩

theorem repeats_log (level : LogLevel) (source text : String) : Repeats (log level source text) :=
  repeats_modify fun _ _ h => h

theorem repeats_foldlM {α β : Type} {f : β → α → FillM β} (hf : ∀ b a, Repeats (f b a))
    (l : List α) (b : β) : Repeats (l.foldlM f b) := by
  induction l generalizing b with
  | nil => exact repeats_pure b
  | cons a l ih => exact (hf b a).then fun b => ih b

theorem repeats_readDirective (r : Registry) (p : Plan) (d : Directive) :
    Repeats (readDirective r p d) := by
  unfold readDirective
  extract_lets jp
  have hjp : ∀ last, Repeats (jp last) := by
    intro last
    refine (repeats_ofExcept _).then fun size => ?_
    split
    · exact repeats_pure _
    · refine (repeats_ofExcept _).then fun command? => ?_
      split
      · refine Repeats.then (repeats_modify fun s s' h => ?_) fun _ => repeats_pure _
        exact h
      · exact repeats_pure _
  split
  · exact (repeats_pure _).then hjp
  · exact (repeats_throw _).then hjp

theorem repeats_readComment (r : Registry) (p : Plan) (i : CellInfo) :
    Repeats (readComment r p i) := by
  unfold readComment
  refine (repeats_ofExcept _).then fun found => ?_
  obtain ⟨directives, params?⟩ := found
  have hread : ∀ _ : Unit, Repeats (directives.foldlM (readDirective r) p) := fun _ =>
    repeats_foldlM (repeats_readDirective r) _ _
  cases params? with
  | none => exact (repeats_pure ()).then hread
  | some params =>
    refine Repeats.then (repeats_modify fun s s' h => ?_) hread
    rw [Congruent] at h ⊢
    rw [h]

theorem repeats_bindEntry (p : Plan) (entry : CommandEntry × Nat) : Repeats (bindEntry p entry) := by
  unfold bindEntry
  dsimp only
  split
  · exact (repeats_log _ _ _).then fun _ => repeats_pure _
  · exact (repeats_log _ _ _).then fun _ => repeats_pure _

theorem repeats_buildAreas (r : Registry) (listeners : List Nat) :
    Repeats (buildAreas r listeners) := by
  have hbuild : ∀ commented : List CellInfo, Repeats (do
      if commented.isEmpty then throw (.ofCause .noComments)
      else
        let p ← commented.foldlM (readComment r) { roots := [], entries := [] }
        if p.roots.isEmpty then throw (.ofCause .noRoots)
        else
          let p := { p with entries := p.entries.mergeSort CommandEntry.before }
          let p ← p.entries.zipIdx.foldlM bindEntry p
          log .info "builder" ("Built " ++ Number.showInt p.roots.length ++ " root areas with " ++
            Number.showInt p.entries.length ++ " commands")
          return p.forest listeners) := by
    intro commented
    split
    · exact repeats_throw _
    · refine (repeats_foldlM (repeats_readComment r) _ _).then fun p => ?_
      split
      · exact repeats_throw _
      · refine (repeats_foldlM repeats_bindEntry _ _).then fun p => ?_
        exact (repeats_log _ _ _).then fun _ => repeats_pure _
  intro s s' a a' t t' h hr hr' _
  obtain ⟨_, u, hget, hr⟩ := bind_eq_ok.1 hr
  obtain ⟨_, u', hget', hr'⟩ := bind_eq_ok.1 hr'
  cases hget
  cases hget'
  rw [h] at hr'
  exact (hbuild _).ends h hr hr'

end FillM

end SheetTemplate
