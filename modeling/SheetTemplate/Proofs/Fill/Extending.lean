import SheetTemplate.Proofs.Area.Steps
import SheetTemplate.Proofs.Fill.Reshaping
import SheetTemplate.Proofs.Fill.Shown

namespace SheetTemplate

open FillM FillState

namespace FillState

structure Extends (s t : FillState) : Prop extends Kept s t where
  journal : ∀ w ∈ s.journal, w ∈ t.journal
  blocks : ∀ title, s.book.blocks title ⊆ t.book.blocks title

def Remarked (s t : FillState) : Prop := t = { s with log := t.log, notes := t.notes }

variable {s t : FillState}

theorem extends_of_book (hjournal : ∀ w ∈ s.journal, w ∈ t.journal)
    (htemplate : t.template = s.template) (hdeleted : t.deleted = s.deleted)
    (hbook : t.book = s.book) (hnext : t.nextImage = s.nextImage)
    (hown : t.ownImages = s.ownImages) : Extends s t := by
  refine { kept_of_book htemplate hdeleted hbook hnext hown with journal := hjournal, blocks := fun title => ?_ }
  rw [hbook]
  exact List.Subset.refl _

instance : IsPreorder FillState Extends where
  refl _ := extends_of_book (fun _ h => h) rfl rfl rfl rfl rfl
  trans _ _ _ h h' :=
    { trans_of Kept h.toKept h'.toKept with
      journal := fun w hw => h'.journal w (h.journal w hw)
      blocks := fun title => List.Subset.trans (h.blocks title) (h'.blocks title) }

theorem extends_onSheet (s : FillState) (title : String) {f : Sheet → Sheet} (hf : Sheet.Tame f)
    (himages : ∀ x, (f x).images = x.images) : Extends s (s.onSheet title f) := by
  cases hfind : s.book.find? title with
  | none => exact extends_of_book (fun _ h => h) rfl rfl (s.book.modify_of_none hfind) rfl rfl
  | some x =>
    have htitles : (s.onSheet title f).book.titles = s.book.titles := s.book.titles_modify hf.title
    have hblocks : ∀ u, s.book.blocks u ⊆ (s.onSheet title f).book.blocks u := by
      intro u
      rw [onSheet, Workbook.blocks_modify hf.title hfind]
      split
      · next hu => rw [hu, Workbook.blocks_of_find? hfind, hf.merged]; exact List.Subset.refl _
      · exact List.Subset.refl _
    have himages : ∀ u, (s.onSheet title f).book.images u = s.book.images u := by
      intro u
      rw [onSheet, Workbook.images_modify hf.title hfind]
      split
      · next hu => rw [hu, Workbook.images_of_find? hfind, himages]
      · rfl
    have habides : Abides s (s.onSheet title f) := abides_onSheet hf.title
    refine { habides.kept (fun hs => hs.mono htitles ?_ hblocks) himages with
      journal := fun _ h => h, blocks := hblocks }
    intro r _ hr
    rw [onSheet, Workbook.face?_modify hf.title hfind] at hr
    split at hr
    · next hsheet =>
      rw [Workbook.face?_of_find? (x := x) (by rw [hsheet]; exact hfind), Sheet.face?_eq_none]
      exact hf.covered x _ (Sheet.face?_eq_none.1 hr)
    · exact hr

theorem Merged.extends {title : String} {b : Block} (h : Merged title b s t)
    (hjournal : t.journal = s.journal) : Extends s t :=
  { h.toAbides.kept h.tucked h.images with
    journal := fun _ hw => hjournal ▸ hw
    blocks := h.subset }

theorem Frames.extends {P : CellRef → Prop} (h : Frames P s t) : Extends s t :=
  { h.toAbides.kept h.tucked h.images with
    journal := fun _ hw => h.grown.mem hw
    blocks := fun title => h.blocks title ▸ List.Subset.refl _ }

theorem Pictured.extends {title : String} {i : Image} (h : Pictured title i s t) : Extends s t where
  template := h.template
  deleted := h.deleted
  titles := h.titles
  tucked := h.tucked
  pictures _ := h.pictures
  journal _ hw := h.journal ▸ hw
  blocks title := h.blocks title ▸ List.Subset.refl _

instance : Confined (fun _ => True) Extends where
  touch s r := extends_onSheet s r.sheet (Sheet.tame_touch r.pos) fun x => x.touch_images r.pos
  cell s r c _ := extends_onSheet s r.sheet (Sheet.tame_setCell r.pos c) fun _ => rfl
  inert s title _ hf := extends_onSheet s title hf.tame hf.images
  written _ _ := extends_of_book (fun _ h => h) rfl rfl rfl rfl rfl
  log _ _ := extends_of_book (fun _ h => h) rfl rfl rfl rfl rfl

theorem extends_write (s : FillState) (w : Write) :
    Extends s { s with journal := w :: s.journal } :=
  extends_of_book (fun _ hv => List.mem_cons_of_mem w hv) rfl rfl rfl rfl rfl

theorem frames_of_remarked {P : CellRef → Prop} (h : Remarked s t) : Frames P s t := by
  rw [Remarked] at h
  rw [h]
  exact frames_of_eq (abides_of_book rfl rfl rfl rfl rfl rfl rfl rfl) rfl rfl

theorem Remarked.extends (h : Remarked s t) : Extends s t := by
  rw [Remarked] at h
  rw [h]
  exact extends_of_book (fun _ h => h) rfl rfl rfl rfl rfl

theorem extends_of_evaluated (h : Evaluated s t) : Extends s t := by
  rw [Evaluated] at h
  rw [h]
  exact extends_of_book (fun _ h => h) rfl rfl rfl rfl rfl

instance : IsPreorder FillState Remarked where
  refl _ := rfl
  trans s t u := by
    intro hst htu
    rw [Remarked] at *
    rw [htu, hst]

end FillState

namespace FillM

theorem leads_extends_merge (title : String) (b : Block) : Leads Extends (merge title b) := by
  intro s
  rcases hr : exec (merge title b) s with ⟨r, t⟩
  have hjournal := merge_journal hr
  rcases merge_cases hr with ⟨habides, hbook, -⟩ | ⟨-, -, hmerged⟩
  · have hframes : Frames (fun _ => False) s t := frames_of_eq habides hbook hjournal
    exact hframes.extends
  · exact hmerged.extends hjournal

-- Whether a picture can be added is told by the sheet, the cell and the value alone.
theorem addImage_cases {s t : FillState} {r : CellRef} {v : Value} {scaleX scaleY : Float}
    {result : Except Failure Unit} (h : exec (addImage r v scaleX scaleY) s = (result, t)) :
    (Remarked s t ∧ (result = .ok () → s.sheet? r.sheet = none)) ∨
      ((s.sheet? r.sheet).isSome = true ∧
        ∃ i, Image.look? r v scaleX scaleY = some i.look ∧ Pictured r.sheet i s t) := by
  unfold addImage at h
  rw [exec_bind] at h
  cases hsheet : s.sheet? r.sheet with
  | none =>
    obtain ⟨log, hlog⟩ := exec_sheet?_none hsheet
    rw [hlog] at h
    cases h
    exact .inl ⟨rfl, fun _ => rfl⟩
  | some x =>
    rw [exec_sheet? hsheet] at h
    dsimp only at h
    split at h
    · next p =>
      rw [exec_bind, exec_ofExcept] at h
      cases hname : r.name with
      | error e =>
        rw [hname] at h
        cases h
        exact .inl ⟨rfl, fun h => (nomatch h)⟩
      | ok anchor =>
        rw [hname] at h
        cases h
        refine .inr ⟨rfl, _, ?_, pictured_onSheet (sheet?_eq_some hsheet).2 (Nat.le_refl _)
          (Nat.lt_succ_self _)⟩
        simp only [Image.look?, hname]
        rfl
    · cases h
      exact .inl ⟨rfl, fun h => (nomatch h)⟩

theorem leads_extends_addImage (r : CellRef) (v : Value) (scaleX scaleY : Float) :
    Leads Extends (addImage r v scaleX scaleY) := by
  intro s
  rcases hr : exec (addImage r v scaleX scaleY) s with ⟨result, t⟩
  rcases addImage_cases hr with ⟨hremarked, -⟩ | ⟨-, i, -, hpictured⟩
  · exact hremarked.extends
  · exact hpictured.extends

end FillM

instance (h : FillHost) : h.Asks Extends :=
  ⟨fun text => (h.leads_evaluateText text).mono fun _ _ => extends_of_evaluated⟩

/-- Listeners and updaters that have no memory: what they answer is told by the names of the moment
and by what they are asked, and all they leave behind is remarks. -/
structure FillHost.Stateless (h : FillHost) : Prop where
  before : ∀ l origin target, Leads Remarked (h.before l origin target)
  after : ∀ l origin target, Leads Remarked (h.after l origin target)
  update : ∀ n info r, Leads Remarked (h.update n info r)
  allows : ∀ l origin target s s' allowed allowed' t t', s'.context = s.context →
    exec (h.before l origin target) s = (.ok allowed, t) →
      exec (h.before l origin target) s' = (.ok allowed', t') → allowed' = allowed
  makes : ∀ n info info' r s s' out out' t t', s'.context = s.context → info.Matches info' →
    exec (h.update n info r) s = (.ok out, t) → exec (h.update n info' r) s' = (.ok out', t') →
      out.Matches out'

def Command.Stays (updates : Prop) : Command → Prop
  | .each e => e.multisheet? = none
  | .updateCell _ => updates
  | .hosted _ => False
  | _ => True

theorem FillHost.steps_of_extends {h : FillHost} {P : Command → Prop}
    (hbefore : ∀ l origin target, Leads Remarked (h.before l origin target))
    (hafter : ∀ l origin target, Leads Remarked (h.after l origin target))
    (hupdate : ∀ n info r, Leads Remarked (h.update n info r))
    (hsheet : ∀ e, P (.each e) → e.multisheet? = none) (hhosted : ∀ c, ¬ P (.hosted c))
    {R : FillState → FillState → Prop} [IsPreorder FillState R] (hR : ∀ s t, Extends s t → R s t) :
    h.Steps P R := by
  have : Confined (fun _ => True) R :=
    { touch := fun s r => hR _ _ (Confined.touch (fun _ => True) s r)
      cell := fun s r c hr => hR _ _ (Confined.cell (P := fun _ => True) s r c hr)
      inert := fun s title f hf => hR _ _ (Confined.inert (fun _ => True) s title f hf)
      written := fun s x => hR _ _ (Confined.written (fun _ => True) s x)
      log := fun s x => hR _ _ (Confined.log (fun _ => True) s x) }
  have hremark : ∀ {α : Type} {m : FillM α}, Leads Remarked m → Leads R m := fun hm =>
    hm.mono fun s t hst => hR s t hst.extends
  have hevaluate : ∀ {α : Type} {m : FillM α}, Leads Evaluated m → Leads R m := fun hm =>
    hm.mono fun s t hst => hR s t (extends_of_evaluated hst)
  have hcontext : ∀ s x, R s { s with context := x } := fun s x =>
    hR _ _ (extends_of_book (fun _ h => h) rfl rfl rfl rfl rfl)
  have hmerge : ∀ title b, Leads R (merge title b) := fun title b =>
    (leads_extends_merge title b).mono hR
  have hnote : ∀ origin f s, R s (FillHost.note origin f s) := fun origin f s =>
    hR _ _ (extends_of_book (fun _ h => h) rfl rfl rfl rfl rfl)
  have : h.Asks R := ⟨fun text => hevaluate (h.leads_evaluateText text)⟩
  apply FillHost.steps_of_confined
  case hask => exact fun m => hevaluate (leads_names.bind fun _ => leads_evaluated_eval _)
  case heval => exact fun m => hevaluate (leads_evaluated_eval m)
  case hbind => exact fun name index? item index m hm => hm.binding hcontext _ _ _ _
  case hplace => exact fun r => hevaluate (leads_onContext _)
  case hcopy =>
    intro origin target
    exact h.leads_copy hmerge _ _ _ (fun s => hR _ _ (extends_write s _)) (hnote origin)
  case hjournal => exact fun s w => hR _ _ (extends_write s w)
  case hmerge => exact hmerge
  case himage => exact fun r v x y => (leads_extends_addImage r v x y).mono hR
  case hbefore => exact fun l origin target => hremark (hbefore l origin target)
  case hafter => exact fun l origin target => hremark (hafter l origin target)
  case hupdate => exact fun n info r => hremark (hupdate n info r)
  case hsheets => exact fun e he hne => absurd (hsheet e he) hne
  case hhosted => exact fun c hc => absurd hc (hhosted c)

theorem FillHost.Stateless.steps {h : FillHost} (hh : h.Stateless) {updates : Prop}
    {R : FillState → FillState → Prop} [IsPreorder FillState R] (hR : ∀ s t, Extends s t → R s t) :
    h.Steps (Command.Stays updates) R :=
  steps_of_extends hh.before hh.after hh.update (fun _ he => he) (fun _ hc => hc) hR

namespace Workbook

variable {w : Workbook}

theorem face?_map {f : Sheet → Sheet} (htitle : ∀ s, (f s).title = s.title) (r : CellRef) :
    face? { w with sheets := w.sheets.map f } r = (w.find? r.sheet).bind fun s => (f s).face? r.pos := by
  rw [face?, w.find?_map htitle]
  cases w.find? r.sheet <;> rfl

theorem blocks_map {f : Sheet → Sheet} (htitle : ∀ s, (f s).title = s.title)
    (hmerged : ∀ s, (f s).merged = s.merged) (title : String) :
    blocks { w with sheets := w.sheets.map f } title = w.blocks title := by
  rw [blocks, w.find?_map htitle, blocks]
  cases w.find? title with
  | none => rfl
  | some s => exact hmerged s

theorem images_map {f : Sheet → Sheet} {p : Image → Bool} (htitle : ∀ s, (f s).title = s.title)
    (himages : ∀ s, (f s).images = s.images.filter p) (title : String) :
    images { w with sheets := w.sheets.map f } title = (w.images title).filter p := by
  rw [images, w.find?_map htitle, images]
  cases w.find? title with
  | none => rfl
  | some s => exact himages s

theorem titles_map {f : Sheet → Sheet} (htitle : ∀ s, (f s).title = s.title) :
    titles { w with sheets := w.sheets.map f } = w.titles := by
  rw [titles, List.map_map, titles]
  exact List.map_congr_left fun s _ => htitle s

end Workbook

theorem Sheet.foldl_touch_images (s : Sheet) (ps : List Pos) :
    (ps.foldl touch s).images = s.images := by
  induction ps generalizing s with
  | nil => rfl
  | cons p ps ih => rw [List.foldl_cons, ih, touch_images]

def Sheet.without (own : List Nat) (s : Sheet) : Sheet :=
  { s with images := s.images.filter fun i => !own.contains i.id }

theorem Sheet.without_title (own : List Nat) (s : Sheet) : (s.without own).title = s.title := rfl

theorem Sheet.without_merged (own : List Nat) (s : Sheet) : (s.without own).merged = s.merged := rfl

theorem Sheet.without_images (own : List Nat) (s : Sheet) :
    (s.without own).images = s.images.filter fun i => !own.contains i.id := rfl

namespace FillM

theorem stripSheet_merged (mark : List Char) (s : Sheet) : (stripSheet mark s).merged = s.merged :=
  s.filled_merged

theorem stripSheet_images (mark : List Char) (s : Sheet) : (stripSheet mark s).images = s.images :=
  s.foldl_touch_images _

theorem stripSheet_face? (mark : List Char) (s : Sheet) (p : Pos) :
    (stripSheet mark s).face? p = s.face? p := by
  have hslot : ∀ slot, (stripSlot mark slot).face? = slot.face? := by
    intro slot
    cases slot with
    | covered => rfl
    | cell c => exact congrArg some (content_stripSlot mark (.cell c))
  rw [← Sheet.face?_filled (s := s), Sheet.face?, stripSheet, Std.TreeMap.getElem?_map, Sheet.face?]
  cases s.filled.slots[p]? with
  | none => rfl
  | some slot => exact hslot slot

theorem leads_frames_removeComments (P : CellRef → Prop) (mark : List Char) :
    Leads (Frames P) (removeComments mark) := by
  refine leads_modify fun s => ?_
  have himages : ∀ x, (stripSheet mark x).images = x.images.filter fun _ => true := by
    intro x
    rw [stripSheet_images, List.filter_true]
  have hface : ∀ r, Workbook.face? { s.book with sheets := s.book.sheets.map (stripSheet mark) } r =
      s.book.face? r := by
    intro r
    rw [Workbook.face?_map (stripSheet_title mark)]
    cases hx : s.book.find? r.sheet with
    | none =>
      rw [Workbook.face?, hx]
      rfl
    | some x =>
      rw [Workbook.face?_of_find? hx]
      exact stripSheet_face? mark x r.pos
  constructor
  case toAbides =>
    refine ⟨rfl, rfl, rfl, rfl, rfl, ?_, numbers_of_eq rfl rfl⟩
    exact Workbook.titles_map (stripSheet_title mark)
  case grown => exact grown_of_eq rfl
  case face => exact fun r _ => hface r
  case covers => exact fun r hr => (hface r).symm.trans hr
  case blocks => exact fun title => Workbook.blocks_map (stripSheet_title mark) (stripSheet_merged mark) title
  case images =>
    intro title
    refine (Workbook.images_map (stripSheet_title mark) himages title).trans ?_
    rw [List.filter_true]

theorem clearTargets_kept {s t : FillState} (h : exec clearTargets s = (.ok (), t)) :
    Kept s t ∧ ∀ base, Pictures base s → ∀ title, t.book.images title = base title := by
  obtain ⟨_, _, hget, h⟩ := bind_eq_ok.1 h
  cases hget
  obtain ⟨_, u, hcells, h⟩ := bind_eq_ok.1 h
  have hkept : Kept s u := by
    refine yields_forM (fun r _ s _ t h => ?_) s () u hcells
    obtain ⟨x?, u, hsheet, h⟩ := bind_eq_ok.1 h
    cases hx : s.sheet? r.sheet with
    | none =>
      obtain ⟨log, hlog⟩ := exec_sheet?_none hx
      rw [hlog] at hsheet
      cases hsheet
      cases h
      exact kept_of_book rfl rfl rfl rfl rfl
    | some x =>
      rw [exec_sheet? hx] at hsheet
      cases hsheet
      obtain ⟨_, v, hunmerge, h⟩ := bind_eq_ok.1 h
      have hkept := yields_kept_unmergeAll (sheet?_eq_some hx).2 hunmerge
      exact trans_of Kept hkept ((leads_kept_clearCell r).apply h)
  -- The pictures that the fill added are taken away last.
  have hbook : t.book = { u.book with sheets := u.book.sheets.map (.without u.ownImages) } := by
    cases h
    rfl
  have himages : ∀ title, t.book.images title =
      (u.book.images title).filter fun i => !u.ownImages.contains i.id := by
    intro title
    rw [hbook, Workbook.images_map (Sheet.without_title _) (Sheet.without_images _)]
  refine ⟨trans_of Kept hkept ?_, fun base hs title => ?_⟩
  case refine_2 => exact (himages title).trans ((hkept.pictures base hs).images title)
  have htitles : t.book.titles = u.book.titles := by
    rw [hbook, Workbook.titles_map (Sheet.without_title _)]
  constructor
  case template =>
    cases h
    rfl
  case deleted =>
    cases h
    rfl
  case titles => exact htitles
  case tucked =>
    refine fun hu => hu.mono htitles (fun r _ hr => ?_) fun title => ?_
    · rwa [hbook, Workbook.face?_map (Sheet.without_title _)] at hr
    · rw [hbook, Workbook.blocks_map (Sheet.without_title _) (Sheet.without_merged _)]
      exact List.Subset.refl _
  case pictures =>
    intro base hu
    have hown : t.ownImages = [] := by
      cases h
      rfl
    have hnext : t.nextImage = u.nextImage := by
      cases h
      rfl
    refine ⟨fun title => ?_, fun title i hi => ?_, fun n hn => ?_⟩
    · rw [himages, hown, ← hu.images]
      simp
    · rw [himages] at hi
      rw [hnext]
      exact hu.numbered title i (List.mem_of_mem_filter hi)
    · rw [hown] at hn
      cases hn

end FillM

namespace FillOptions

variable {o : FillOptions} {updates : Prop}

theorem leads_extends_replay (hh : o.host.Stateless) {area : Area}
    (ha : area.Uses (Command.Stays updates)) (target : CellRef) :
    Leads Extends (area.replay o.host target) :=
  (hh.steps fun _ _ h => h).replay ha target

theorem leads_extends_relocateArea (area : Area) : Leads Extends (Formula.relocateArea area) := by
  refine leads_get.bind fun s => Leads.bind ?_ fun _ => leads_log _ _ _
  refine leads_forM fun c _ => (leads_ofExcept _).bind fun _ => ?_
  exact leads_setFormula _ _ fun s => extends_write s _

theorem leads_clearTemplate {R : FillState → FillState → Prop} [Confined (fun _ => True) R]
    (hclear : ∀ r (s : FillState), R s { s with journal := .clear r :: s.journal }) (o : FillOptions) :
    Leads R o.clearTemplate := by
  unfold clearTemplate
  split
  · refine leads_get.bind fun s => leads_forM fun info _ => ?_
    unfold clearUnused
    split
    · exact leads_pure _
    · refine (leads_outputCell _).bind fun output => ?_
      split
      · split
        · exact leads_clearCell _ (hclear _)
        · exact leads_pure _
      · exact leads_pure _
  · exact leads_pure _

theorem yields_kept_fillArea (hh : o.host.Stateless) {area : Area}
    (ha : area.Uses (Command.Stays updates)) : Yields Kept (o.fillArea area) := by
  have hreplay : Leads Kept (FillM.ensuring (area.replay o.host area.start) fun s =>
      { s with
        context := (s.context.removeRun Context.rowName).removeRun Context.columnName }) := by
    intro s
    rw [exec_ensuring]
    refine trans_of Kept (leads_extends_replay hh ha area.start s).toKept ?_
    exact kept_of_book rfl rfl rfl rfl rfl
  refine (yields_kept_clearArea _).bind fun _ => (hreplay.bind fun size => ?_).yields
  exact leads_modify fun s => kept_of_book rfl rfl rfl rfl rfl

theorem leads_frames_markRecalculation (P : CellRef → Prop) (o : FillOptions) :
    Leads (Frames P) o.markRecalculation := by
  unfold markRecalculation
  split
  · refine leads_modify fun s => ?_
    have habides : Abides s { s with book := { s.book with recalculates := true } } :=
      ⟨rfl, rfl, rfl, rfl, rfl, rfl, numbers_of_eq rfl rfl⟩
    exact { habides with
      grown := grown_of_eq rfl
      face := fun _ _ => rfl
      covers := fun _ h => h
      blocks := fun _ => rfl
      images := fun _ => rfl }
  · exact leads_pure _

theorem leads_frames_finish (P : CellRef → Prop) (hwrite : Leads Remarked o.beforeWrite) :
    Leads (Frames P) (do removeComments Directive.mark; o.markRecalculation; o.beforeWrite) := by
  refine (leads_frames_removeComments P _).bind fun _ => ?_
  refine (o.leads_frames_markRecalculation P).bind fun _ => ?_
  exact hwrite.mono fun _ _ => frames_of_remarked

theorem yields_kept_fillAreas (hh : o.host.Stateless) {roots : List Area}
    (hroots : ∀ a ∈ roots, a.Uses (Command.Stays updates))
    (hwrite : Leads Remarked o.beforeWrite) : Yields Kept (o.fillAreas roots) := by
  have hkept : ∀ {α : Type} {m : FillM α}, Leads Extends m → Yields Kept m := fun hm =>
    (hm.mono fun _ _ h => h.toKept).yields
  refine (yields_forM fun a ha => yields_kept_fillArea hh (hroots a ha)).bind fun _ => ?_
  refine (yields_forM fun a _ => hkept (leads_extends_relocateArea a)).bind fun _ => ?_
  refine (hkept (o.leads_clearTemplate fun r s => extends_write s _)).bind fun _ => ?_
  exact hkept ((leads_frames_finish (fun _ => False) hwrite).mono fun _ _ h => h.extends)

end FillOptions

end SheetTemplate
