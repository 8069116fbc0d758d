import SheetTemplate.Proofs.Fill.Meaning
import SheetTemplate.Proofs.Fill.Passing
import SheetTemplate.Proofs.Fill.Preserving
import SheetTemplate.Proofs.Fill.Reshaping

namespace SheetTemplate

open FillM FillState Text

namespace Cell

variable {c d : Cell} {v : Value} {s : String}

theorem type_of_content (h : c.content.type = .formula) : c.type = .formula := by
  rw [content] at h
  split at h
  · cases h
  · exact h

theorem startsFormula_of_held {held : String} (hheld : heldText? s = some held)
    (h : startsFormula held = true) : startsFormula s = true := by
  rw [heldText?] at hheld
  split at hheld
  · cases hheld
  · cases hheld
    rw [startsFormula, String.toList_ofList] at h
    rw [startsFormula]
    cases hs : s.toList with
    | nil =>
      rw [hs] at h
      exact h
    | cons a cs =>
      rw [hs, longestText, List.take_succ_cons, startsWith, dropPrefix?] at h
      rw [startsWith, dropPrefix?]
      split at h
      · next ha => rw [if_pos ha]; rfl
      · cases h

theorem startsFormula_of_textType (h : textType s = .formula) : startsFormula s = true := by
  rw [textType] at h
  split at h
  · next hs => exact (Bool.and_eq_true_iff.1 hs).1
  · split at h
    · cases h
    · cases h

end Cell

namespace Value

def LinksFormula (v : Value) : Prop :=
  ∃ url shown held, v.stored = .link url shown ∧
    Cell.heldText? (link url shown).shown = some held ∧ Cell.textType held = .formula

theorem typeOf_stored (v : Value) (h : ∀ s, v.stored ≠ .text s) : Cell.typeOf v.stored ≠ .formula := by
  unfold stored at h ⊢
  generalize v.unwrap = u at h ⊢
  cases u with
  | float x =>
    dsimp only
    split
    · simp [Cell.typeOf]
    · simp [Cell.typeOf]
  | _ =>
    first
      | exact (h _ rfl).elim
      | (intro ht; cases ht)

end Value

namespace Cell

variable {c d : Cell} {v : Value}

theorem type_of_setLink? {url : String} (h : c.setLink? url = some d) (hc : c.value ≠ .null) :
    d.type = c.type := by
  cases hv : c.value with
  | null => exact absurd hv hc
  | _ =>
    simp only [setLink?, hv] at h
    cases h
    rfl

theorem write?_formula_iff (h : c.write? v = some d) : d.type = .formula ↔ v.LinksFormula := by
  unfold write? at h
  split at h
  · next url shown hstored =>
    obtain ⟨e, he, h⟩ := Option.bind_eq_some_iff.1 h
    obtain ⟨held, hheld, rfl⟩ := Option.map_eq_some_iff.1 he
    rw [type_of_setLink? h (by intro h; cases h)]
    constructor
    · exact fun ht => ⟨url, shown, held, hstored, hheld, ht⟩
    · rintro ⟨url', shown', held', hstored', hheld', ht⟩
      rw [hstored] at hstored'
      cases hstored'
      rw [hheld] at hheld'
      cases hheld'
      exact ht
  · next s hstored =>
    obtain ⟨e, he, rfl⟩ := Option.map_eq_some_iff.1 h
    obtain ⟨held, hheld, rfl⟩ := Option.map_eq_some_iff.1 he
    constructor
    · intro ht
      split at ht
      · cases ht
      · next hs => exact absurd (startsFormula_of_held hheld (startsFormula_of_textType ht)) hs
    · rintro ⟨url, shown, held', hstored', -⟩
      rw [hstored] at hstored'
      cases hstored'
  · next hlink htext =>
    have htype : typeOf v.stored ≠ .formula := v.typeOf_stored htext
    constructor
    · intro ht
      have : d.type = typeOf v.stored := by
        unfold put? at h
        split at h
        · next s hs => exact absurd hs (htext s)
        · cases h
          rfl
      exact absurd (this.symm.trans ht) htype
    · rintro ⟨url, shown, held, hstored, -⟩
      exact absurd hstored (hlink url shown)

end Cell

namespace CellInfo

def putOver (i : CellInfo) (c : Cell) : Option Cell :=
  (c.put? i.value).bind fun c =>
    match i.link?.filter fun url => !url.isEmpty with
    | some url => c.setLink? url
    | none => some c

def ReadsAsFormula (i : CellInfo) : Prop :=
  ∃ c d, i.putOver c = some d ∧ d.type = .formula

end CellInfo

def FillState.meaning (s : FillState) : Meaning := s.context.keepView.view.find?

/-- A value that is copied from this state is stored as a formula: its expressions now come to a link
whose text reads as one, or it has no expressions and reads as one itself. -/
def FillHost.StoresFormula (h : FillHost) (info : CellInfo) (s : FillState) : Prop :=
  (∃ text v st, h.expressionText? info.value = some text ∧
    (h.evaluator.evaluateText h.marks s.meaning text).run s.streams = (.ok v, st) ∧
      v.LinksFormula) ∨
    h.expressionText? info.value = none ∧ info.ReadsAsFormula

/-- A copy of the template cell from this state brings a formula. -/
def FillHost.CopiesFormula (h : FillHost) (origin : CellRef) (s : FillState) : Prop :=
  ∃ info, s.template.cell? origin = some info ∧ (info.hasFormula = true ∨ h.StoresFormula info s)

/-- What a write brings a formula with, when `earlier` was asked for before. A copy brings what it
stores when it is made; `Visited` tells from which states copies are made. -/
def Write.Brings (h : FillHost) (T : Template) (Visited : CellRef → CellRef → FillState → Prop)
    (earlier : List Write) : Write → Prop
  | .copy origin target => ∃ u, Visited origin target u ∧ u.journal = earlier ∧ h.CopiesFormula origin u
  | .value _ v => v.LinksFormula
  | .formula target _ => ∃ info ∈ T.formulas, .copy info.ref target ∈ earlier
  | .clear _ => False

namespace FillState

structure Deposits (w : Write) (brings : Prop) (s t : FillState) : Prop where
  passes : Passes (fun r => r = w.target ∧ brings) s t
  journal : t.journal = w :: s.journal
  target : (t.book.content w.target).type = .formula → brings ∨ s.sheet? w.target.sheet = none
  absent : s.sheet? w.target.sheet = none → Passes (fun _ => False) s t

variable {s t u : FillState} {w : Write} {r : CellRef} {brings : Prop}

theorem Passes.mono {M N : CellRef → Prop} (h : Passes M s t) (hMN : ∀ r, M r → N r) :
    Passes N s t := by
  refine ⟨h.template, fun y hy => ?_, fun r hr => (h.seen r hr).imp_right (hMN r)⟩
  obtain ⟨x, hx, htitle, hpass⟩ := h.sheets y hy
  exact ⟨x, hx, htitle, fun p hp => (hpass p hp).imp_right (hMN _)⟩

theorem Deposits.mono {p q : Prop} (h : Deposits w p s t) (hpq : p → q) : Deposits w q s t :=
  ⟨h.passes.mono fun _ hr => hr.imp_right hpq, h.journal, fun ht => (h.target ht).imp_left hpq,
    h.absent⟩

theorem Passes.plain {M : CellRef → Prop} (h : Passes (fun _ => False) s t) : Passes M s t :=
  h.mono fun _ => False.elim

theorem Passes.not_formula (h : Passes (fun _ => False) s t)
    (hr : (s.book.content r).type ≠ .formula) : (t.book.content r).type ≠ .formula := by
  intro ht
  rcases h.seen r ht with hsame | hfalse
  · rw [hsame] at ht
    exact hr ht
  · exact hfalse

theorem passes_record (w : Write) (s : FillState) :
    Passes (fun _ => False) s { s with journal := w :: s.journal } :=
  passes_of_book rfl rfl

end FillState

namespace FillM

variable {s t u : FillState} {r : CellRef} {c d old : Cell}

theorem open?_stands {c? : Option Cell} (h : exec (open? r) s = (.ok c?, t)) :
    Passes (fun _ => False) s t ∧
      ((s.sheet? r.sheet = none ∧ c? = none) ∨
        ∃ x, t.book.find? r.sheet = some x ∧ x.face? r.pos = c?.map Cell.content) := by
  have hpass : Passes (fun _ => False) s t := (confined_open? (fun _ => False) r).apply h
  rcases open?_eq_ok h with ⟨log, hnone, rfl, rfl⟩ | ⟨x, hsome, -, hc, rfl⟩
  · exact ⟨hpass, .inl ⟨hnone, rfl⟩⟩
  · refine ⟨hpass, .inr ⟨x.touch r.pos, ?_, ?_⟩⟩
    · rw [FillState.onSheet, Workbook.find?_modify _ fun x => x.touch_title r.pos, if_pos rfl,
        (sheet?_eq_some hsome).2]
      rfl
    · rw [hc]
      cases hcell : (x.touch r.pos).cell? r.pos with
      | some c => exact Sheet.face?_of_cell? hcell
      | none =>
        rcases (Sheet.cell?_eq_none _ _).1 hcell with hslot | hslot
        · rw [Sheet.slot_touch, if_pos rfl] at hslot
          cases hslot
        · exact Sheet.face?_eq_none.2 hslot

theorem passes_putCell {x : Sheet} (hx : s.book.find? r.sheet = some x)
    (hc : c.content.type = .formula → x.face? r.pos = some c.content) :
    Passes (fun _ => False) s (s.onSheet r.sheet fun x => x.setCell r.pos c) := by
  have hconst : s.book.modify r.sheet (fun x => x.setCell r.pos c) =
      s.book.modify r.sheet fun _ => x.setCell r.pos c := s.book.modify_congr hx rfl
  rw [FillState.onSheet, hconst]
  refine passes_const hx rfl ?_
  by_cases hformula : c.content.type = .formula
  · exact Sheet.passes_setCell_same (hc hformula) rfl
  · exact Sheet.passes_setCell_plain r.pos hformula

theorem find?_putCell {x : Sheet} (hx : s.book.find? r.sheet = some x) (c : Cell) :
    (s.onSheet r.sheet fun x => x.setCell r.pos c).book.find? r.sheet =
      some (x.setCell r.pos c) := by
  have htitle : ∀ x : Sheet, (x.setCell r.pos c).title = x.title := fun _ => rfl
  rw [FillState.onSheet, Workbook.find?_modify _ htitle, if_pos rfl, hx]
  rfl

theorem content_putCell {x : Sheet} (hx : s.book.find? r.sheet = some x) (c : Cell) :
    (s.onSheet r.sheet fun x => x.setCell r.pos c).book.content r = c.content := by
  rw [Workbook.content_eq_face?, face?_setCell, hx]
  rfl

theorem putOr_plain {x : Sheet} {c? : Option Cell} (hx : s.book.find? r.sheet = some x)
    (hc : ∀ c ∈ c?, c.type ≠ .formula) (h : exec (putOr r old c?) s = (.ok d, t)) :
    c? = some d ∧ Passes (fun _ => False) s t ∧
      t.book.find? r.sheet = some (x.setCell r.pos d) ∧
      (t.book.content r).type ≠ .formula := by
  obtain ⟨rfl, rfl⟩ := putOr_eq_ok h
  have hplain : d.content.type ≠ .formula := fun ht => hc d rfl (Cell.type_of_content ht)
  refine ⟨rfl, passes_putCell hx fun ht => absurd ht hplain, find?_putCell hx d, ?_⟩
  rwa [content_putCell hx]

end FillM

namespace FillM

variable {s t : FillState} {r : CellRef} {w : Write} {brings : Prop}

theorem record_journal {α : Type} {k : FillM α} {res : Except Failure α}
    (hk : Leads (Grown fun _ => False) k) (h : exec (do record w; k) s = (res, t)) :
    t.journal = w :: s.journal := by
  rw [exec_bind] at h
  exact (hk.apply (s := { s with journal := w :: s.journal }) h).journal_eq

theorem setValue_journal {v : Value} {font? : Option Font}
    (h : exec (setValue r v font?) s = (.ok (), t)) : t.journal = .value r v :: s.journal := by
  refine record_journal ((leads_open? r).bind fun c? => ?_) h
  cases c? with
  | none => exact leads_pure _
  | some c =>
    refine (leads_modify fun s => Storable.written s _).bind fun _ => ?_
    exact leads_discard (leads_putOr r _ _)

theorem setFormula_journal {formula : String}
    (h : exec (setFormula r formula) s = (.ok (), t)) :
    t.journal = .formula r formula :: s.journal := by
  refine record_journal ((leads_open? r).bind fun c? => ?_) h
  cases c? with
  | none => exact leads_pure _
  | some c => exact leads_discard (leads_putOr r _ _)

abbrev opening (w : Write) (k : Cell → FillM Unit) : FillM Unit := do
  record w
  match ← open? w.target with
  | none => return
  | some c => k c

theorem passes_of_absent {k : Cell → FillM Unit} (hsheet : s.sheet? w.target.sheet = none)
    (h : exec (opening w k) s = (.ok (), t)) : Passes (fun _ => False) s t := by
  obtain ⟨_, u, hrecord, h⟩ := bind_eq_ok.1 h
  cases hrecord
  obtain ⟨c?, v, hopen, h⟩ := bind_eq_ok.1 h
  rcases open?_eq_ok hopen with ⟨log, -, rfl, rfl⟩ | ⟨x, hsome, -⟩
  · cases h
    exact passes_of_book rfl rfl
  · cases hsheet.symm.trans hsome

theorem deposits_of_brings {k : Cell → FillM Unit} (hb : brings)
    (hpass : Leads (Passes fun r => r = w.target ∧ brings) (opening w k))
    (hjournal : t.journal = w :: s.journal) (h : exec (opening w k) s = (.ok (), t)) :
    Deposits w brings s t :=
  ⟨hpass.apply h, hjournal, fun _ => .inl hb, fun hsheet => passes_of_absent hsheet h⟩

theorem deposits_plain {k : Cell → FillM Unit} (hjournal : t.journal = w :: s.journal)
    (hk : ∀ c u v x, Abides s u → u.book.find? w.target.sheet = some x →
      x.face? w.target.pos = some c.content → exec (k c) u = (.ok (), v) →
        Passes (fun _ => False) u v ∧ (v.book.content w.target).type ≠ .formula)
    (h : exec (opening w k) s = (.ok (), t)) : Deposits w brings s t := by
  have habsent := fun hsheet => passes_of_absent hsheet h
  obtain ⟨_, u, hrecord, h⟩ := bind_eq_ok.1 h
  cases hrecord
  have hrecord := passes_record w s
  obtain ⟨c?, v, hopen, h⟩ := bind_eq_ok.1 h
  obtain ⟨hopened, hstands⟩ := open?_stands hopen
  have hv := trans_of (Passes fun _ => False) hrecord hopened
  have hframes : Frames (fun _ => False) { s with journal := w :: s.journal } v :=
    (confined_open? (fun _ => False) w.target).apply hopen
  have habides : Abides s v :=
    (abides_of_book rfl rfl rfl rfl rfl rfl rfl rfl : Abides s { s with journal := w :: s.journal }).trans
      hframes.toAbides
  rcases hstands with ⟨hnone, rfl⟩ | ⟨x, hx, hface⟩
  · cases h
    exact ⟨hv.plain, hjournal, fun _ => .inr hnone, habsent⟩
  · cases c? with
    | none =>
      cases h
      refine ⟨hv.plain, hjournal, fun ht => ?_, habsent⟩
      rw [Workbook.content_eq_face?, Workbook.face?_of_find? hx, hface] at ht
      cases ht
    | some c =>
      obtain ⟨hput, hcontent⟩ := hk c v t x habides hx hface h
      exact ⟨(trans_of (Passes fun _ => False) hv hput).plain, hjournal,
        fun ht => absurd ht hcontent, habsent⟩

theorem deposits_setValue {v : Value} {font? : Option Font}
    (h : exec (setValue r v font?) s = (.ok (), t)) : Deposits (.value r v) v.LinksFormula s t := by
  have hjournal := setValue_journal h
  by_cases hv : v.LinksFormula
  · have hpass : Leads (Passes fun x => x = r ∧ v.LinksFormula) (setValue r v font?) :=
      confined_setValue (P := fun x => x = r ∧ v.LinksFormula) ⟨rfl, hv⟩ v font?
        fun s => passes_of_book rfl rfl
    exact deposits_of_brings (w := .value r v) hv hpass hjournal h
  · refine deposits_plain (w := .value r v) hjournal (fun c u x y _ hy hface h => ?_) h
    obtain ⟨_, z, hwritten, h⟩ := bind_eq_ok.1 h
    cases hwritten
    obtain ⟨d, hput⟩ := discard_eq_ok h
    have hplain := fun (d : Cell) (hd : Cell.write? { c with font? := font?.or c.font? } v = some d)
      (ht : d.type = .formula) => hv ((Cell.write?_formula_iff hd).1 ht)
    have hwritten : Passes (fun _ => False) u { u with written := r :: u.written } :=
      passes_of_book rfl rfl
    obtain ⟨-, hpass, -, hcontent⟩ :=
      putOr_plain (s := { u with written := r :: u.written }) hy hplain hput
    exact ⟨trans_of (Passes fun _ => False) hwritten hpass, hcontent⟩

theorem deposits_setFormula {formula : String} (hb : brings)
    (h : exec (setFormula r formula) s = (.ok (), t)) :
    Deposits (.formula r formula) brings s t := by
  have hpass : Leads (Passes fun x => x = r ∧ brings) (setFormula r formula) :=
    confined_setFormula (P := fun x => x = r ∧ brings) ⟨rfl, hb⟩ formula
      fun s => passes_of_book rfl rfl
  exact deposits_of_brings (w := .formula r formula) hb hpass (setFormula_journal h) h

theorem deposits_clearCell (h : exec (clearCell r) s = (.ok (), t)) :
    Deposits (.clear r) False s t := by
  have hjournal := clearCell_journal h
  obtain ⟨_, u, hrecord, h⟩ := bind_eq_ok.1 h
  cases hrecord
  have hrecord := passes_record (.clear r) s
  obtain ⟨x?, v, hsheet, h⟩ := bind_eq_ok.1 h
  cases hx : s.sheet? r.sheet with
  | none =>
    have hv : Passes (fun _ => False) _ v := (confined_sheet? (fun _ => False) _).apply hsheet
    obtain ⟨log, hlog⟩ := exec_sheet?_none (s := { s with journal := .clear r :: s.journal }) hx
    rw [hlog] at hsheet
    cases hsheet
    cases h
    have hpass := trans_of (Passes fun _ => False) hrecord hv
    exact ⟨hpass.plain, hjournal, fun _ => .inr hx, fun _ => hpass⟩
  | some x =>
    rw [exec_sheet? (s := { s with journal := .clear r :: s.journal }) hx] at hsheet
    cases hsheet
    have hfind : ({ s with journal := .clear r :: s.journal } : FillState).book.find? r.sheet =
      some x := (sheet?_eq_some hx).2
    dsimp only at h
    cases hcell : x.cell? r.pos with
    | none =>
      rw [hcell] at h
      cases h
      -- Nothing stands there, and so nothing is to be cleared.
      refine ⟨hrecord.plain, hjournal, fun ht => ?_, fun _ => hrecord⟩
      have ht : (x.content r.pos).type = .formula := Workbook.content_of_find? hfind ▸ ht
      rw [Sheet.content] at ht
      rcases Sheet.face?_of_none hcell with hface | hface
      · rw [hface] at ht
        cases ht
      · rw [hface] at ht
        cases ht
    | some c =>
      rw [hcell] at h
      rw [exec_putCell] at h
      cases h
      have hclear : c.clear.content.type ≠ .formula := by
        intro ht
        cases ht
      have hpass := trans_of (Passes fun _ => False) hrecord
        (passes_putCell hfind fun ht => absurd ht hclear)
      refine ⟨hpass.plain, hjournal, fun ht => ?_, fun _ => hpass⟩
      exact absurd (content_putCell hfind c.clear ▸ ht) hclear

end FillM

namespace Cell

variable {c d : Cell}

theorem put?_value {v : Value} (h : c.put? v = some d) (hd : d.type = .formula) :
    d.value ≠ .null := by
  intro hnull
  cases v with
  | text s =>
    obtain ⟨held, -, rfl⟩ := Option.map_eq_some_iff.1 h
    simp at hnull
  | _ =>
    cases h
    simp_all [typeOf]

theorem setLink?_of_value {url : String} (hc : c.value ≠ .null) :
    c.setLink? url = some { c with link? := some url } := by
  cases hv : c.value with
  | null => exact absurd hv hc
  | _ => simp only [setLink?, hv]

end Cell

-- The value is put before its link, which does not change that it is stored as a formula.
theorem CellInfo.readsAsFormula_of_put? {i : CellInfo} {c d : Cell} (hd : c.put? i.value = some d)
    (ht : d.type = .formula) : i.ReadsAsFormula := by
  have hover : i.putOver c = some (match i.link?.filter fun url => !url.isEmpty with
      | some url => { d with link? := some url }
      | none => d) := by
    rw [CellInfo.putOver, hd, Option.bind_some]
    split
    · exact Cell.setLink?_of_value (Cell.put?_value hd ht)
    · rfl
  refine ⟨c, _, hover, ?_⟩
  split
  · exact ht
  · exact ht

theorem FillM.evaluateText_eq_ok {h : FillHost} {text : String} {v : Value} {s t : FillState}
    (hr : exec (h.evaluateText text) s = (.ok v, t)) :
    (h.evaluator.evaluateText h.marks s.meaning text).run s.streams = (.ok v, t.streams) := by
  obtain ⟨names, u, hnames, heval⟩ := bind_eq_ok.1 hr
  cases hnames
  rw [exec_eval] at heval
  obtain ⟨hok, rfl⟩ := Prod.mk.inj heval
  exact Prod.ext hok rfl

namespace FillHost

variable {h : FillHost} {s t : FillState} {origin target : CellRef} {x : Sheet} {c : Cell}
  {info : CellInfo}

theorem storesFormula_congr (hcontext : t.context = s.context) (hstreams : t.streams = s.streams) :
    h.StoresFormula info t ↔ h.StoresFormula info s := by
  rw [StoresFormula, StoresFormula, FillState.meaning, FillState.meaning, hcontext, hstreams]

theorem evaluated_atCell {text : String} {v : Value}
    (hr : exec (atCell origin (h.evaluateText text)) s = (.ok v, t)) : Evaluated s t :=
  (leads_atCell (h.leads_evaluateText text) origin).apply hr

theorem exists_find?_of_evaluated (hs : Evaluated s t) (hx : s.book.find? target.sheet = some x) :
    t.book.find? target.sheet = some x := by
  rw [Evaluated] at hs
  rw [hs]
  exact hx

theorem copyValue_plain (hx : s.book.find? target.sheet = some x)
    (hplain : ¬ h.StoresFormula info s)
    (hr : exec (h.copyValue origin target c info) s = (.ok (), t)) :
    FillState.Passes (fun _ => False) s t ∧ (t.book.content target).type ≠ .formula := by
  unfold copyValue at hr
  split at hr
  · next text hexpression =>
    obtain ⟨v, u, heval, hr⟩ := bind_eq_ok.1 hr
    obtain ⟨_, _, hnote, hr⟩ := bind_eq_ok.1 hr
    cases hnote
    obtain ⟨d, hput⟩ := discard_eq_ok hr
    have hevaluated := evaluated_atCell heval
    have hx' := exists_find?_of_evaluated hevaluated hx
    have hread : ∀ d ∈ c.write? v, d.type ≠ .formula := by
      intro d hd ht
      have hcomes := evaluateText_eq_ok (mapFailure_eq_ok.1 heval)
      exact hplain (.inl ⟨text, v, _, hexpression, hcomes, (Cell.write?_formula_iff hd).1 ht⟩)
    obtain ⟨-, hpass, -, hcontent⟩ :=
      putOr_plain (s := note origin (fun y => { y with result := v }) u) hx' hread hput
    refine ⟨?_, hcontent⟩
    have hnoted : FillState.Passes (fun _ => False) u (note origin (fun y => { y with result := v }) u) :=
      passes_of_book rfl rfl
    exact trans_of _ (passes_of_evaluated hevaluated) (trans_of _ hnoted hpass)
  · next hexpression =>
    have hread : ¬ info.ReadsAsFormula := fun hread => hplain (.inr ⟨hexpression, hread⟩)
    obtain ⟨d, u, hput, hr⟩ := bind_eq_ok.1 hr
    have hfirst : ∀ e ∈ c.put? info.value, e.type ≠ .formula := fun e he ht =>
      hread (CellInfo.readsAsFormula_of_put? he ht)
    obtain ⟨hd, hpass, hx', hcontent⟩ := putOr_plain hx hfirst hput
    split at hr
    · next url hurl =>
      obtain ⟨e, hput'⟩ := discard_eq_ok hr
      have hsecond : ∀ e ∈ d.setLink? url, e.type ≠ .formula := by
        intro e he ht
        refine hread ⟨c, e, ?_, ht⟩
        rw [CellInfo.putOver, hd, Option.bind_some, hurl]
        exact he
      obtain ⟨-, hpass', -, hcontent'⟩ := putOr_plain hx' hsecond hput'
      exact ⟨trans_of _ hpass hpass', hcontent'⟩
    · cases hr
      exact ⟨hpass, hcontent⟩

theorem copyInfo_plain (hx : s.book.find? target.sheet = some x)
    (hface : x.face? target.pos = some c.content) (hformula : ¬ info.hasFormula = true)
    (hplain : ¬ h.StoresFormula info s)
    (hr : exec (h.copyInfo origin target c info true) s = (.ok (), t)) :
    FillState.Passes (fun _ => False) s t ∧ (t.book.content target).type ≠ .formula := by
  unfold copyInfo at hr
  extract_lets d at hr
  obtain ⟨_, u, hput, hr⟩ := bind_eq_ok.1 hr
  rw [exec_putCell] at hput
  cases hput
  have hsame : d.content = c.content := rfl
  have hput := passes_putCell (c := d) hx fun _ => hsame ▸ hface
  have hfind := find?_putCell hx d
  obtain ⟨_, v, hsizes, hr⟩ := bind_eq_ok.1 hr
  have hsized : FillState.Passes (fun _ => False) _ v :=
    (confined_copySizes (fun _ => False) origin target true).apply hsizes
  have habides : Frames (fun _ => False) _ v :=
    (confined_copySizes (fun _ => False) origin target true).apply hsizes
  have hfind' : ∃ y, v.book.find? target.sheet = some y := by
    rw [← Option.isSome_iff_exists, Workbook.find?_isSome_iff habides.titles, hfind]
    rfl
  obtain ⟨y, hy⟩ := hfind'
  obtain ⟨_, w, hheld, hr⟩ := bind_eq_ok.1 hr
  have hactive : info.activeFormula? = none := by
    rw [CellInfo.hasFormula, Option.isSome_iff_ne_none, not_not] at hformula
    exact hformula
  rw [copyHeld, hactive] at hheld
  have hplain : ¬ h.StoresFormula info v :=
    mt (storesFormula_congr habides.context habides.streams).1 hplain
  obtain ⟨hpass, hcontent⟩ := copyValue_plain hy hplain hheld
  obtain ⟨_, z, hblock, hr⟩ := bind_eq_ok.1 hr
  have hmerged : FillState.Passes (fun _ => False) w z :=
    (leads_copyBlock leads_passes_merge origin target).apply hblock
  cases hr
  refine ⟨?_, hmerged.not_formula hcontent⟩
  have hadded : FillState.Passes (fun _ => False) z
      (note origin (fun c => c.addTarget target) z) := passes_of_book rfl rfl
  exact trans_of _ hput (trans_of _ hsized (trans_of _ hpass (trans_of _ hmerged hadded)))

theorem copyNothing_plain (hx : s.book.find? target.sheet = some x)
    (hface : x.face? target.pos = some c.content)
    (hr : exec (copyNothing target c) s = (.ok (), t)) :
    FillState.Passes (fun _ => False) s t ∧ (t.book.content target).type ≠ .formula := by
  unfold copyNothing at hr
  split at hr
  · next hnull =>
    cases hr
    refine ⟨refl_of _ s, fun ht => ?_⟩
    rw [Workbook.content_of_find? hx, Sheet.content_of_face hface, Cell.content, hnull] at ht
    cases ht
  · rw [exec_putCell] at hr
    cases hr
    refine ⟨passes_putCell hx fun ht => (by cases ht), fun ht => ?_⟩
    rw [content_putCell hx] at ht
    cases ht

theorem deposits_copy (hr : exec (h.copy origin target true) s = (.ok (), t)) :
    Deposits (.copy origin target) (h.CopiesFormula origin s) s t := by
  have hjournal := h.copy_journal hr
  by_cases hb : h.CopiesFormula origin s
  · have hover : Leads (FillState.Passes fun r => r = target ∧ h.CopiesFormula origin s)
        (h.copyOver origin target true) :=
      h.confined_copyOver leads_passes_merge
        (P := fun r => r = target ∧ h.CopiesFormula origin s) ⟨rfl, hb⟩ origin true
        fun _ _ _ => passes_of_book rfl rfl
    have hrecord : Leads (FillState.Passes fun r => r = target ∧ h.CopiesFormula origin s)
        (record (.copy origin target)) := leads_modify fun s => passes_of_book rfl rfl
    exact deposits_of_brings (w := .copy origin target) hb (hrecord.bind fun _ => hover) hjournal hr
  · refine deposits_plain (w := .copy origin target) hjournal (fun c u v x hu hx hface hr => ?_) hr
    obtain ⟨_, _, hget, hr⟩ := bind_eq_ok.1 hr
    cases hget
    rw [hu.template] at hr
    split at hr
    · exact copyNothing_plain hx hface hr
    · next info hinfo =>
      refine copyInfo_plain hx hface (fun hformula => hb ⟨info, hinfo, .inl hformula⟩) ?_ hr
      rw [storesFormula_congr hu.context hu.streams]
      exact fun hstores => hb ⟨info, hinfo, .inr hstores⟩

end FillHost

end SheetTemplate
