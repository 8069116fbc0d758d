import SheetTemplate.Proofs.Fill.Rendering

namespace SheetTemplate

open FillM FillState

abbrev Piece := CellCopy × Option Rendered

def Meaning.after (m : Meaning) (copies : List CellCopy) : Meaning :=
  copies.foldl (fun m c => m.placed c.target) m

def Piece.shown (p : Piece) : Content := (p.2.map Rendered.shown).getD {}

namespace FillHost

variable (h : FillHost) (T : Template)

def renderCell (names : Meaning) (origin : CellRef) : EvalM (Option Rendered) :=
  match T.cell? origin with
  | none => return none
  | some info => return some (← h.render names info)

def renderAll (names : Meaning) : List CellCopy → EvalM (List Piece)
  | [] => return []
  | c :: rest => do
    let out ← renderCell h T (names.placed c.target) c.origin
    let pieces ← renderAll names rest
    return (c, out) :: pieces

variable {h T}

theorem renderAll_eq_ok {names : Meaning} {copies : List CellCopy} {pieces : List Piece}
    {st st' : Streams} (hr : (h.renderAll T names copies).run st = (.ok pieces, st')) :
    pieces.map (·.1) = copies := by
  induction copies generalizing pieces st with
  | nil =>
    cases hr
    rfl
  | cons c rest ih =>
    obtain ⟨out, u, -, hr⟩ := EvalM.bind_eq_ok.1 hr
    obtain ⟨others, v, hothers, hpieces⟩ := EvalM.bind_eq_ok.1 hr
    cases hpieces
    rw [List.map_cons, ih hothers]

theorem renderAll_congr {m m' : Meaning} (hm : Meaning.Near m m') (copies : List CellCopy) :
    h.renderAll T m' copies = h.renderAll T m copies := by
  induction copies with
  | nil => rfl
  | cons c rest ih => rw [renderAll, renderAll, hm.placed_eq, ih]

end FillHost

structure CellCopy.Fits (title : String) (c : CellCopy) : Prop where
  origin : c.origin.sheet = title
  target : c.target.sheet = title
  admits : Sheet.admits c.target.pos = true
  named : (Column.name c.target.col).toOption.isSome = true

namespace FillState

structure Open (T : Template) (title : String) (s : FillState) : Prop where
  template : s.template = T
  sheet : (s.sheet? title).isSome = true
  free : ∀ r, r.sheet = title → ¬ s.book.Covers r
  unmerged : ∀ snapshot, T.sheet? title = some snapshot → snapshot.merged = []
  context : s.context.Sound

structure Laid (T : Template) (pieces : List Piece) (s t : FillState) : Prop where
  shown : ∀ p ∈ pieces, t.book.content p.1.target = p.shown
  kept : ∀ x, (∀ p ∈ pieces, p.1.target ≠ x) → t.book.content x = s.book.content x
  targets : ∀ x, t.history.targets x = s.history.targets x ++
    (pieces.filter fun p => p.1.origin == x && p.2.isSome).map (·.1.target)
  formula : ∀ p ∈ pieces, ∀ text, p.2 = some (.formula text) →
    formulaOf T t.history p.1.origin p.1.target = some text
  lookups : ∀ x y, (∀ p ∈ pieces, p.1.target ≠ y) →
    (t.history.of x).formulas.lookup y = (s.history.of x).formulas.lookup y

variable {T : Template} {title : String} {s t u : FillState} {ps qs : List Piece}

theorem Open.mono (hs : s.Open T title) (h : Settled s t) (hcontext : t.context.Sound) :
    t.Open T title := by
  refine ⟨h.template.trans hs.template, ?_, fun r hr hcovers => ?_, hs.unmerged, hcontext⟩
  · have hsheet := hs.sheet
    rw [sheet?_isSome] at hsheet ⊢
    rwa [h.deleted, h.titles]
  · rcases h.covers r hcovers with hold | ⟨snapshot, hsnapshot, b, hb, -⟩
    · exact hs.free r hr hold
    · rw [hs.template, hr] at hsnapshot
      rw [hs.unmerged snapshot hsnapshot] at hb
      cases hb

theorem laid_nil (T : Template) (s : FillState) : Laid T [] s s :=
  ⟨fun _ h => (nomatch h), fun _ _ => rfl, fun _ => (List.append_nil _).symm, fun _ h => (nomatch h),
    fun _ _ _ => rfl⟩

theorem Laid.append (hst : Laid T ps s t) (htu : Laid T qs t u)
    (hdisjoint : ∀ p ∈ ps, ∀ q ∈ qs, q.1.target ≠ p.1.target) : Laid T (ps ++ qs) s u := by
  refine ⟨fun p hp => ?_, fun x hx => ?_, fun x => ?_, fun p hp text htext => ?_, fun x y hy => ?_⟩
  · rcases List.mem_append.1 hp with hp | hp
    · rw [htu.kept _ (hdisjoint p hp), hst.shown p hp]
    · exact htu.shown p hp
  · rw [htu.kept x fun q hq => hx q (List.mem_append_right _ hq),
      hst.kept x fun p hp => hx p (List.mem_append_left _ hp)]
  · rw [htu.targets, hst.targets, List.filter_append, List.map_append, List.append_assoc]
  · rcases List.mem_append.1 hp with hp | hp
    · rw [formulaOf, htu.lookups _ _ (hdisjoint p hp)]
      exact hst.formula p hp text htext
    · exact htu.formula p hp text htext
  · rw [htu.lookups x y fun q hq => hy q (List.mem_append_right _ hq),
      hst.lookups x y fun p hp => hy p (List.mem_append_left _ hp)]

structure Copied (T : Template) (pieces : List Piece) (st : Streams) (s t : FillState) : Prop where
  settled : Settled s t
  laid : Laid T pieces s t
  streams : t.streams = st
  sound : t.context.Sound
  near : Context.Near s.context t.context

theorem Copied.append {st st' : Streams} (hst : Copied T ps st s t) (htu : Copied T qs st' t u)
    (hdisjoint : ∀ p ∈ ps, ∀ q ∈ qs, q.1.target ≠ p.1.target) : Copied T (ps ++ qs) st' s u :=
  ⟨trans_of Settled hst.settled htu.settled, hst.laid.append htu.laid hdisjoint, htu.streams,
    htu.sound, hst.near.trans htu.near⟩

theorem Copied.log {st : Streams} (h : Copied T ps st s t) (log : List LogEntry) :
    Copied T ps st s { t with log := log } := by
  obtain ⟨⟨htemplate, hdeleted, htitles, hcovers⟩, hlaid, hstreams, hsound, hnear⟩ := h
  refine ⟨⟨htemplate, hdeleted, htitles, hcovers⟩, ?_, hstreams, hsound, hnear⟩
  exact ⟨hlaid.shown, hlaid.kept, hlaid.targets, hlaid.formula, hlaid.lookups⟩

theorem Copied.close {st : Streams} {c d : Context} (h : Copied T ps st { s with context := c } t)
    (hd : d.Sound) (hnear : Context.Near s.context d) :
    Copied T ps st s { t with context := d } := by
  obtain ⟨⟨htemplate, hdeleted, htitles, hcovers⟩, hlaid, hstreams, -, -⟩ := h
  refine ⟨⟨htemplate, hdeleted, htitles, hcovers⟩, ?_, hstreams, hd, hnear⟩
  exact ⟨hlaid.shown, hlaid.kept, hlaid.targets, hlaid.formula, hlaid.lookups⟩

end FillState

structure FillState.Resized (s t : FillState) : Prop where
  state : t = { s with book := t.book }
  settled : Settled s t
  content : ∀ x, t.book.content x = s.book.content x

instance : IsPreorder FillState Resized where
  refl s := ⟨rfl, refl_of Settled s, fun _ => rfl⟩
  trans _ _ _ h h' := by
    refine ⟨?_, trans_of Settled h.settled h'.settled, fun x => (h'.content x).trans (h.content x)⟩
    rw [h'.state, h.state]

theorem FillState.resized_onSheet (s : FillState) {title : String} {f : Sheet → Sheet}
    (htitle : ∀ s, (f s).title = s.title) (hmerged : ∀ s, (f s).merged = s.merged)
    (hslots : ∀ s, (f s).slots = s.slots) : Resized s (s.onSheet title f) := by
  refine ⟨rfl, settled_onSheet s title (Sheet.tame_of_slots htitle hmerged hslots), fun x => ?_⟩
  rw [FillState.onSheet, Workbook.content, Workbook.slot?_modify _ htitle, Workbook.content]
  split
  · next hx =>
    subst hx
    simp only [hslots]
    rfl
  · rfl

namespace FillHost

variable {h : FillHost} {T : Template} {title : String} {c : CellCopy} {s t : FillState}
  {out : Option Rendered} {st : Streams}

theorem copyBlock_unmerged {origin : CellRef} (target : CellRef)
    (hs : ∀ snapshot, s.template.sheet? origin.sheet = some snapshot → snapshot.merged = []) :
    exec (copyBlock origin target) s = (.ok (), s) := by
  have hnone : ((s.template.sheet? origin.sheet).bind fun x => x.block? origin.pos) = none := by
    cases hsheet : s.template.sheet? origin.sheet with
    | none => rfl
    | some snapshot =>
      rw [Option.bind_some, SheetSnapshot.block?, hs snapshot hsheet]
      rfl
  rw [copyBlock, exec_bind, exec_get]
  simp only [hnone]
  rfl

theorem copyWidth_ok (hc : (Column.name c.target.col).toOption.isSome = true)
    (sheet : SheetSnapshot) (s : FillState) :
    ∃ t, exec (copyWidth c.origin c.target sheet) s = (.ok (), t) ∧ Resized s t := by
  unfold copyWidth
  cases sheet.width? c.origin.col with
  | none => exact ⟨s, rfl, refl_of Resized s⟩
  | some width =>
    have hname : ∃ name, Column.name c.target.col = .ok name := by
      cases hn : Column.name c.target.col with
      | error f =>
        rw [hn] at hc
        cases hc
      | ok name => exact ⟨name, rfl⟩
    obtain ⟨name, hname⟩ := hname
    simp only [exec_bind, exec_ofExcept, hname, exec_onSheet]
    exact ⟨_, rfl, s.resized_onSheet (f := fun x => x.setWidth _) (fun _ => rfl)
      (fun _ => rfl) fun _ => rfl⟩

theorem copyHeight_ok (sheet : SheetSnapshot) (s : FillState) :
    ∃ t, exec (copyHeight c.origin c.target sheet) s = (.ok (), t) ∧ Resized s t := by
  unfold copyHeight
  cases sheet.height? c.origin.row with
  | none => exact ⟨s, rfl, refl_of Resized s⟩
  | some height =>
    exact ⟨_, rfl, s.resized_onSheet (f := fun x => x.setHeight _) (fun _ => rfl)
      (fun _ => rfl) fun _ => rfl⟩

theorem copySizes_ok (hc : (Column.name c.target.col).toOption.isSome = true) (s : FillState) :
    ∃ t, exec (copySizes c.origin c.target true) s = (.ok (), t) ∧ Resized s t := by
  unfold copySizes
  rw [exec_bind, exec_get]
  dsimp only
  cases s.template.sheet? c.origin.sheet with
  | none => exact ⟨s, rfl, refl_of Resized s⟩
  | some sheet =>
    obtain ⟨t, ht, hst⟩ := copyWidth_ok hc sheet s
    obtain ⟨u, hu, htu⟩ := copyHeight_ok (c := c) sheet t
    simp only [exec_bind, ht, if_true, hu]
    exact ⟨u, rfl, trans_of Resized hst htu⟩

theorem laid_of_rendering {r : Rendered} {u v : FillState} (hbook : ∀ x, x ≠ c.target →
      u.book.content x = s.book.content x) (hhistory : u.history = s.history)
    (h : u.Rendering T c.origin c.target r st v) :
    Laid T [(c, some r)] s
      { v with history := v.history.modify c.origin fun x => x.addTarget c.target } := by
  have hmodify := fun x => History.of_modify v.history c.origin x fun x => x.addTarget c.target
  refine ⟨fun p hp => ?_, fun x hx => ?_, fun x => ?_, fun p hp text htext => ?_, fun x y hy => ?_⟩
  · rw [List.mem_singleton.1 hp]
    exact (h.content c.target).trans (if_pos rfl)
  · have hne := hx _ (List.mem_singleton_self _)
    rw [h.content x, if_neg fun h => hne h.symm]
    exact hbook x fun h => hne h.symm
  · have htargets := h.targets x
    rw [hhistory] at htargets
    rw [History.targets, hmodify]
    by_cases hx : x = c.origin
    · subst hx
      rw [if_pos rfl, Copies.addTarget, ← htargets]
      simp [History.targets]
    · rw [if_neg hx, ← htargets, List.filter_cons_of_neg]
      · simp [History.targets]
      · simp [Ne.symm hx]
  · rw [List.mem_singleton.1 hp] at htext ⊢
    cases htext
    rw [← h.formula text rfl, formulaOf, formulaOf, hmodify, if_pos rfl]
    rfl
  · have hne := hy _ (List.mem_singleton_self _)
    have hlookups := h.lookups x y fun h => hne h.symm
    rw [hhistory] at hlookups
    rw [hmodify, ← hlookups]
    split
    · next hx => rw [hx, Copies.addTarget]
    · rfl

theorem open?_target (hs : s.Open T title) (hc : c.Fits title) :
    ∃ d u, exec (open? c.target) s = (.ok (some d), u) ∧ s.book.content c.target = d.content ∧
      u = s.onSheet c.target.sheet fun s => s.touch c.target.pos := by
  have hsome := hs.sheet
  rw [← hc.target] at hsome
  obtain ⟨sheet, hsheet⟩ := Option.isSome_iff_exists.1 hsome
  have hfree := free_of_not_covers hsheet (hs.free c.target hc.target)
  have hopen := exec_open? hsheet hc.admits
  rw [sheet.cell?_touch_of_free _ hfree] at hopen
  refine ⟨_, _, hopen, ?_, rfl⟩
  rw [Workbook.content, Workbook.slot?_of_find? _ (sheet?_eq_some hsheet).2, Sheet.cell?]
  cases hslot : sheet.slots[c.target.pos]? with
  | none => rfl
  | some slot =>
    cases slot with
    | cell d => rfl
    | covered => exact absurd hslot hfree

theorem copyNothing_laid {d : Cell} {u : FillState}
    (hsheet : (u.book.find? c.target.sheet).isSome = true)
    (hd : u.book.content c.target = d.content)
    (hbook : ∀ x, u.book.content x = s.book.content x) (hhistory : u.history = s.history) :
    ∃ t, exec (copyNothing c.target d) u = (.ok (), t) ∧ t = { u with book := t.book } ∧
      Laid T [(c, none)] s t := by
  have hlaid : ∀ t : FillState, t.history = u.history →
      (∀ x, t.book.content x = if x = c.target then {} else u.book.content x) →
        Laid T [(c, none)] s t := by
    intro t hsame hcontent
    rw [hhistory] at hsame
    refine ⟨fun p hp => ?_, fun x hx => ?_, fun x => ?_, fun p hp text htext => ?_, fun x y _ => ?_⟩
    · rw [List.mem_singleton.1 hp, hcontent, if_pos rfl]
      rfl
    · rw [hcontent, if_neg fun h => hx _ (List.mem_singleton_self _) h.symm, hbook]
    · rw [hsame, List.filter_cons_of_neg]
      · exact (List.append_nil _).symm
      · simp
    · rw [List.mem_singleton.1 hp] at htext
      cases htext
    · rw [hsame]
  unfold copyNothing
  split
  · next hnull =>
    refine ⟨u, rfl, rfl, hlaid u rfl fun x => ?_⟩
    split
    · next hx =>
      rw [hx, hd, Cell.content, hnull]
    · rfl
  · refine ⟨_, rfl, rfl, hlaid _ rfl fun x => ?_⟩
    exact Workbook.content_setCell _ c.target x hsheet

theorem copyInfo_laid {d : Cell} {info : CellInfo} {r : Rendered} {u : FillState}
    (hs : u.Open T title) (hc : c.Fits title) (hinfo : T.cell? c.origin = some info)
    (hlookup : (u.history.of c.origin).formulas.lookup c.target = none)
    (hbook : ∀ x, u.book.content x = s.book.content x) (hhistory : u.history = s.history)
    (hrender : (h.render u.context.get? info).run u.streams = (.ok r, st)) :
    ∃ t, exec (h.copyInfo c.origin c.target d info true) u = (.ok (), t) ∧ Settled u t ∧
      Laid T [(c, some r)] s t ∧ t.streams = st ∧
      (t.context = u.context ∨ t.context = u.context.keepView) := by
  have hfind : (u.book.find? c.target.sheet).isSome = true := by
    obtain ⟨sheet, hsheet⟩ := Option.isSome_iff_exists.1 hs.sheet
    rw [hc.target, (sheet?_eq_some hsheet).2]
    rfl
  let e : Cell := { d with font? := info.font?.or d.font? }
  let v := u.onSheet c.target.sheet fun s => s.setCell c.target.pos e
  have hput : exec (FillM.putCell c.target e) u = (.ok (), v) := rfl
  -- The font, the sizes, what the cell holds, the block and the note, one after another.
  obtain ⟨w, hsizes, hvw⟩ := copySizes_ok (c := c) hc.named v
  have hw : w.context = v.context ∧ w.streams = v.streams ∧ w.history = v.history := by
    rw [hvw.state]
    exact ⟨rfl, rfl, rfl⟩
  have huv : Settled u v := (leads_putCell _ _).apply hput
  have hfind' : (w.book.find? c.target.sheet).isSome = true := by
    rw [← Workbook.mem_titles, hvw.settled.titles, huv.titles, Workbook.mem_titles]
    exact hfind
  obtain ⟨x, hheld, hrendering⟩ := copyHeld_renders (c := e) (s := w) (T := T)
    (by rw [hw.1]; exact hs.context) hfind' hinfo (by rw [hw.2.2]; exact hlookup)
    (by rw [hw.1, hw.2.1]; exact hrender)
  have hwx : Settled w x := Leads.apply (h.leads_copyHeld _ _ _ _
    (fun _ _ _ _ _ => settled_of_eq rfl rfl rfl) fun _ _ => settled_of_eq rfl rfl rfl) hheld
  have hux := trans_of Settled huv (trans_of Settled hvw.settled hwx)
  have hcontext : x.context = u.context ∨ x.context = u.context.keepView := by
    have hkept := hrendering.context
    rw [hw.1] at hkept
    exact hkept
  have hopen := hs.mono hux (hs.context.of_kept hcontext)
  have hblock : exec (copyBlock c.origin c.target) x = (.ok (), x) := by
    refine copyBlock_unmerged c.target fun snapshot hsnapshot => hs.unmerged snapshot ?_
    rwa [hopen.template, hc.origin] at hsnapshot
  let t := { x with history := x.history.modify c.origin fun x => x.addTarget c.target }
  have hxt : Settled x t := settled_of_eq rfl rfl rfl
  refine ⟨t, ?_, trans_of Settled hux hxt, ?_, hrendering.streams, hcontext⟩
  · exact bind_eq_ok.2 ⟨_, _, hput, bind_eq_ok.2 ⟨_, _, hsizes, bind_eq_ok.2 ⟨_, _, hheld,
      bind_eq_ok.2 ⟨_, _, hblock, rfl⟩⟩⟩⟩
  · refine laid_of_rendering (fun y hy => ?_) (hw.2.2.trans hhistory) hrendering
    rw [hvw.content, ← hbook]
    exact Workbook.content_setCell_of_ne _ _ _ hy

theorem copyOver_laid (hs : s.Open T title) (hc : c.Fits title)
    (hlookup : (s.history.of c.origin).formulas.lookup c.target = none)
    (hrender : (h.renderCell T s.context.get? c.origin).run s.streams = (.ok out, st)) :
    ∃ t, exec (h.copyOver c.origin c.target true) s = (.ok (), t) ∧ Settled s t ∧
      Laid T [(c, out)] s t ∧ t.streams = st ∧
      (t.context = s.context ∨ t.context = s.context.keepView) := by
  obtain ⟨d, u, hopen, hd, hu⟩ := open?_target hs hc
  have hsu : Settled s u := (leads_open? c.target).apply hopen
  have hcontent : ∀ x, u.book.content x = s.book.content x := fun x => by
    rw [hu]
    exact s.book.content_touch c.target x
  have hsheet : (u.book.find? c.target.sheet).isSome = true := by
    rw [hu]
    refine find?_isSome_onSheet (fun s => s.touch_title _) ?_
    rw [hc.target]
    exact hs.sheet
  have htemplate : u.template = T := hsu.template.trans hs.template
  unfold copyOver
  simp only [exec_bind, hopen, exec_get, htemplate]
  cases hinfo : T.cell? c.origin with
  | none =>
    rw [renderCell, hinfo] at hrender
    cases hrender
    obtain ⟨t, ht, heq, hlaid⟩ := copyNothing_laid hsheet ((hcontent _).trans hd) hcontent
      (by rw [hu]; rfl)
    refine ⟨t, ht, trans_of Settled hsu ((leads_copyNothing _ _).apply ht), hlaid, ?_, .inl ?_⟩
    · rw [heq, hu]
      rfl
    · rw [heq, hu]
      rfl
  | some info =>
    rw [renderCell, hinfo] at hrender
    obtain ⟨r, v, hr, hsame⟩ := EvalM.bind_eq_ok.1 hrender
    cases hsame
    have hopened : u.Open T title := hs.mono hsu (by rw [hu]; exact hs.context)
    obtain ⟨t, ht, hut, hlaid, hstreams, hcontext⟩ := copyInfo_laid (d := d) hopened hc hinfo
      (by rw [hu]; exact hlookup) hcontent (by rw [hu]; rfl) (by rw [hu]; exact hr)
    refine ⟨t, ht, trans_of Settled hsu hut, hlaid, hstreams, ?_⟩
    rw [hu] at hcontext
    exact hcontext

end FillHost

namespace Area

variable {h : FillHost} {T : Template} {title : String} {c : CellCopy} {s : FillState}
  {out : Option Rendered} {st : Streams}

theorem copyCell_laid (hs : s.Open T title) (hc : c.Fits title)
    (hlookup : (s.history.of c.origin).formulas.lookup c.target = none)
    (hrender : (h.renderCell T (Meaning.placed s.context.get? c.target) c.origin).run s.streams =
      (.ok out, st)) :
    ∃ t, exec (copyCell h [] c) s = (.ok (), t) ∧ Copied T [(c, out)] st s t ∧
      t.context.get? = Meaning.placed s.context.get? c.target := by
  let u := { s with
    context := s.context.place c.target, journal := .copy c.origin c.target :: s.journal }
  have hu : u.Open T title := hs.mono (settled_of_eq rfl rfl rfl) (hs.context.place c.target)
  obtain ⟨t, ht, hut, hlaid, hstreams, hkept⟩ := FillHost.copyOver_laid (h := h) hu hc hlookup
    (by rw [← Context.get?_place] at hrender; exact hrender)
  have hsu : Settled s u := settled_of_eq rfl rfl rfl
  refine ⟨t, ?_, ⟨trans_of Settled hsu hut, ?_, hstreams, hu.context.of_kept hkept, ?_⟩, ?_⟩
  · exact bind_eq_ok.2 ⟨_, _, rfl, bind_eq_ok.2 ⟨true, _, rfl, bind_eq_ok.2 ⟨_, _,
      bind_eq_ok.2 ⟨_, u, rfl, ht⟩, rfl⟩⟩⟩
  · exact ⟨hlaid.shown, hlaid.kept, hlaid.targets, hlaid.formula, hlaid.lookups⟩
  · exact (Context.near_place s.context c.target).trans (Context.near_of_kept hkept)
  · rw [Context.get?_of_kept hkept]
    exact Context.get?_place _ _

theorem copyAll_laid {f : Frame} (hf : f.listeners = []) {copies : List CellCopy}
    {pieces : List Piece} (hs : s.Open T title) (hfits : ∀ c ∈ copies, c.Fits title)
    (hnodup : (copies.map CellCopy.target).Nodup)
    (hlookup : ∀ c ∈ copies, (s.history.of c.origin).formulas.lookup c.target = none)
    (hrender : (h.renderAll T s.context.get? copies).run s.streams = (.ok pieces, st)) :
    ∃ t, exec (copyAll h f copies) s = (.ok (), t) ∧ Copied T pieces st s t ∧
      t.context.get? = Meaning.after s.context.get? copies := by
  induction copies generalizing s pieces with
  | nil =>
    cases hrender
    exact ⟨s, rfl, ⟨refl_of Settled s, laid_nil T s, rfl, hs.context, .refl _⟩, rfl⟩
  | cons c rest ih =>
    obtain ⟨out, u, hout, hrender⟩ := EvalM.bind_eq_ok.1 hrender
    obtain ⟨others, v, hothers, hpieces⟩ := EvalM.bind_eq_ok.1 hrender
    cases hpieces
    obtain ⟨t, ht, hcopied, hmeaning⟩ := copyCell_laid hs (hfits c List.mem_cons_self)
      (hlookup c List.mem_cons_self) hout
    rw [List.map_cons, List.nodup_cons] at hnodup
    have htarget : ∀ d ∈ rest, d.target ≠ c.target := by
      intro d hd heq
      rw [← heq] at hnodup
      exact hnodup.1 (List.mem_map_of_mem hd)
    have hothers' : (h.renderAll T t.context.get? rest).run t.streams = (.ok others, st) := by
      rw [hcopied.streams, FillHost.renderAll_congr hcopied.near.get?]
      exact hothers
    have hlookup' : ∀ d ∈ rest, (t.history.of d.origin).formulas.lookup d.target = none := by
      intro d hd
      rw [hcopied.laid.lookups, hlookup d (List.mem_cons_of_mem c hd)]
      intro p hp
      rw [List.mem_singleton.1 hp]
      exact fun h => htarget d hd h.symm
    obtain ⟨w, hw, hcopied', hmeaning'⟩ := ih (hs.mono hcopied.settled hcopied.sound)
      (fun d hd => hfits d (List.mem_cons_of_mem c hd)) hnodup.2 hlookup' hothers'
    refine ⟨w, ?_, hcopied.append hcopied' fun p hp q hq => ?_, ?_⟩
    · rw [← hf] at ht
      exact bind_eq_ok.2 ⟨_, _, ht, hw⟩
    · have hmem : q.1 ∈ others.map (·.1) := List.mem_map_of_mem hq
      rw [FillHost.renderAll_eq_ok hothers] at hmem
      rw [List.mem_singleton.1 hp]
      exact htarget q.1 hmem
    · rw [hmeaning', hmeaning]
      rfl

end Area

end SheetTemplate
