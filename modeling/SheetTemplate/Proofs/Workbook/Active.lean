import SheetTemplate.Proofs.Workbook.Lineup

namespace SheetTemplate

open FillM

namespace Workbook

variable {w v : Workbook} {y : Sheet} {p i : Nat}

def VisibleAt (w : Workbook) (i : Nat) : Prop := ∃ x, w.sheets[i]? = some x ∧ x.hidden = false

def Presents (w : Workbook) : Prop := (∃ i, w.VisibleAt i) → w.VisibleAt w.active

def Unseats (w : Workbook) (p : Nat) : Prop :=
  p < w.active ∧ ¬ w.VisibleAt (w.active - 1) ∨ w.active < p ∧ ¬ w.VisibleAt w.active

instance (w : Workbook) (i : Nat) : Decidable (w.VisibleAt i) :=
  decidable_of_iff (∃ x ∈ w.sheets[i]?, x.hidden = false) Iff.rfl

instance (w : Workbook) (p : Nat) : Decidable (w.Unseats p) :=
  inferInstanceAs (Decidable (_ ∨ _))

theorem firstVisible_presents (w : Workbook) : (showActive.firstVisible w).Presents := by
  rw [showActive.firstVisible]
  split
  · next i hi =>
    intro _
    obtain ⟨hlt, hvisible, -⟩ := List.findIdx?_eq_some_iff_getElem.1 hi
    exact ⟨w.sheets[i], List.getElem?_eq_getElem hlt, by simpa using hvisible⟩
  · next hnone =>
    rintro ⟨i, x, hx, hvisible⟩
    have := List.findIdx?_eq_none_iff.1 hnone x (List.mem_of_getElem? hx)
    rw [hvisible] at this
    cases this

theorem showActive_presents (w : Workbook) : w.showActive.Presents := by
  rw [showActive]
  split
  · next x hx =>
    split
    · exact w.firstVisible_presents
    · next hvisible => exact fun _ => ⟨x, hx, Bool.eq_false_iff.2 hvisible⟩
  · exact w.firstVisible_presents

theorem visibleAt_insert (hp : p ≤ w.sheets.length) (hy : y.hidden = false)
    (hsheets : v.sheets = w.sheets.insertIdx p y) :
    v.VisibleAt i ↔ i < p ∧ w.VisibleAt i ∨ i = p ∨ p < i ∧ w.VisibleAt (i - 1) := by
  rw [VisibleAt, hsheets, List.getElem?_insertIdx]
  rcases Nat.lt_trichotomy i p with hlt | heq | hlt
  · rw [if_pos hlt]
    simp only [hlt, Nat.ne_of_lt hlt, Nat.lt_asymm hlt, true_and, false_and, or_false]
    exact Iff.rfl
  · rw [if_neg (by omega), if_pos heq, if_pos (heq ▸ hp)]
    exact iff_of_true ⟨y, rfl, hy⟩ (.inr (.inl heq))
  · rw [if_neg (by omega), if_neg (by omega)]
    simp only [hlt, Nat.ne_of_gt hlt, Nat.lt_asymm hlt, true_and, false_and, false_or]
    exact Iff.rfl

theorem presents_insert_iff (hp : p ≤ w.sheets.length) (hy : y.hidden = false)
    (hsheets : v.sheets = w.sheets.insertIdx p y) (hactive : v.active = w.active) :
    v.Presents ↔ ¬ w.Unseats p := by
  have hpresents : v.Presents ↔ v.VisibleAt w.active := by
    have hplace : v.VisibleAt p := (visibleAt_insert hp hy hsheets).2 (.inr (.inl rfl))
    rw [← hactive]
    exact ⟨fun h => h ⟨p, hplace⟩, fun h _ => h⟩
  rw [hpresents, visibleAt_insert hp hy hsheets, Unseats]
  constructor
  · rintro (⟨hlt, hvisible⟩ | heq | ⟨hlt, hvisible⟩) (⟨hlt', hnot⟩ | ⟨hlt', hnot⟩)
    · omega
    · exact hnot hvisible
    · omega
    · omega
    · exact hnot hvisible
    · omega
  · intro hseated
    rcases Nat.lt_trichotomy w.active p with hlt | heq | hlt
    · exact .inl ⟨hlt, not_not.1 fun hnot => hseated (.inr ⟨hlt, hnot⟩)⟩
    · exact .inr (.inl heq)
    · exact .inr (.inr ⟨hlt, not_not.1 fun hnot => hseated (.inl ⟨hlt, hnot⟩)⟩)

def copyPlace (w : Workbook) (title anchor : String) : Nat :=
  if isTitle title then w.placeAfter anchor else w.sheets.length

theorem active_withCopy (w : Workbook) (x : Sheet) (title anchor : String) :
    (w.withCopy x title anchor).active = w.active := by
  have hnamed : ((w.addCopy x).retitleLast title).active = w.active := by
    rw [retitleLast]
    split
    · rfl
    · rfl
  rw [withCopy, moveLastAfter]
  split
  · exact hnamed
  · exact hnamed

end Workbook

open Workbook

namespace FillM

variable {s : FillState} {origin title : String} {after? : Option String}

theorem copySheet_book (s : FillState) (origin title : String) (after? : Option String) :
    (exec (copySheet origin title after?) s).2.book =
      match s.book.find? origin with
      | none => s.book
      | some x =>
        if isTitle title then s.book.withCopy x title (anchorOf origin after?) else s.book.addCopy x := by
  rw [copySheet, exec_bind, exec_get]
  dsimp only
  cases s.book.find? origin with
  | none => rfl
  | some x =>
    dsimp only
    rw [exec_bind]
    cases htitle : isTitle title with
    | false => rfl
    | true =>
      simp only [onBook, exec_modify, Bool.not_true, Bool.false_eq_true, if_false, if_true,
        exec_bind, exec_get]
      split
      · next hnone =>
        have hstays : ((s.book.addCopy x).retitleLast title).moveLastAfter (anchorOf origin after?) =
            (s.book.addCopy x).retitleLast title := by
          rw [moveLastAfter]
          split
          · next hplace => cases hnone.symm.trans hplace
          · rfl
        exact hstays.symm
      · rfl

theorem copySheet_presents_iff (hs : s.book.Presents) :
    (exec (copySheet origin title after?) s).2.book.Presents ↔
      ((s.book.find? origin).isSome = true →
        ¬ s.book.Unseats (s.book.copyPlace title (anchorOf origin after?))) := by
  have hbook := copySheet_book s origin title after?
  cases hx : s.book.find? origin with
  | none =>
    rw [hx] at hbook
    rw [hbook]
    exact iff_of_true hs nofun
  | some x =>
    rw [hx] at hbook
    rw [hbook, copyPlace]
    simp only [Option.isSome_some, forall_const]
    cases isTitle title with
    | true =>
      exact presents_insert_iff (s.book.placeAfter_le _) rfl (sheets_withCopy rfl _ _)
        (s.book.active_withCopy x title _)
    | false =>
      have hlast : (s.book.addCopy x).sheets = s.book.sheets.insertIdx s.book.sheets.length
          (x.duplicate (passingTitle s.book.titles x.title)) := List.insertIdx_length_self.symm
      exact presents_insert_iff (Nat.le_refl _) rfl hlast rfl

def Settles (s t : FillState) : Prop := t.book = s.book ∨ t.book.Presents

instance : IsPreorder FillState Settles where
  refl _ := .inl rfl
  trans _ _ _ h h' := by
    rcases h' with heq | hp
    · rwa [Settles, heq]
    · exact .inr hp

theorem Settles.presents {t : FillState} (h : Settles s t) (hs : s.book.Presents) :
    t.book.Presents := by
  rcases h with heq | hp
  · rwa [heq]
  · exact hp

theorem settles_setHidden (title : String) (hidden : Bool) :
    Leads Settles (setHidden title hidden) := by
  refine leads_get.bind fun s => ?_
  split
  · exact leads_throw _
  · exact leads_modify fun s => .inr (showActive_presents _)

theorem settles_deleteSheet (title : String) : Leads Settles (deleteSheet title) := by
  refine leads_get.bind fun s => ?_
  split
  · exact leads_pure _
  · exact leads_modify fun s => .inr (showActive_presents _)

theorem settles_retireSheet (title : String) : Leads Settles (retireSheet title) := by
  intro s
  rw [retireSheet, exec_bind, exec_get]
  dsimp only
  split
  · exact refl_of Settles s
  · have hretired : Settles s { s with retired := s.retired ++ [title] } := .inl rfl
    refine trans_of Settles hretired ?_
    split
    · exact refl_of Settles _
    · exact settles_setHidden _ _ _
    · exact settles_deleteSheet _ _

end FillM

inductive SheetOp where
  | copy (origin title : String) (after? : Option String)
  | hide (title : String) (hidden : Bool)
  | delete (title : String)
  | retire (policy : SheetPolicy) (title : String)

namespace SheetOp

def run : SheetOp → FillM Unit
  | copy origin title after? => copySheet origin title after?
  | hide title hidden => setHidden title hidden
  | delete title => deleteSheet title
  | retire policy title => do
    modify fun s => { s with policy := policy }
    retireSheet title

def after (s : FillState) (ops : List SheetOp) : FillState :=
  ops.foldl (fun s op => (exec op.run s).2) s

def Unseats (w : Workbook) : SheetOp → Prop
  | copy origin title after? => (w.find? origin).isSome = true ∧
      w.Unseats (w.copyPlace title (anchorOf origin after?))
  | _ => False

instance (w : Workbook) (op : SheetOp) : Decidable (op.Unseats w) :=
  match op with
  | copy origin title after? =>
    inferInstanceAs (Decidable ((w.find? origin).isSome = true ∧
      w.Unseats (w.copyPlace title (anchorOf origin after?))))
  | hide _ _ | delete _ | retire _ _ => inferInstanceAs (Decidable False)

variable {s : FillState} {ops : List SheetOp} {i : Nat}

theorem presents_run_iff (hs : s.book.Presents) (op : SheetOp) :
    (exec op.run s).2.book.Presents ↔ ¬ op.Unseats s.book := by
  cases op with
  | copy origin title after? => exact (copySheet_presents_iff hs).trans not_and.symm
  | hide title hidden =>
    exact iff_of_true ((settles_setHidden title hidden s).presents hs) not_false
  | delete title => exact iff_of_true ((settles_deleteSheet title s).presents hs) not_false
  | retire policy title =>
    have hsettles : Leads Settles (run (retire policy title)) :=
      (leads_modify fun _ => .inl rfl).bind fun _ => settles_retireSheet title
    exact iff_of_true ((hsettles s).presents hs) not_false

theorem after_take_succ (s : FillState) (hi : i < ops.length) :
    after s (ops.take (i + 1)) = (exec ops[i].run (after s (ops.take i))).2 := by
  rw [← List.take_append_getElem hi, after, List.foldl_append]
  rfl

/-- From a workbook whose active sheet is visible, the active sheet is visible at each stage at which
any sheet is, if and only if no copy unseats it: none is put in before the active place when the sheet
before the active one is hidden, and none elsewhere than in the active place when no sheet is visible. -/
theorem after_presents_iff (s : FillState) (ops : List SheetOp)
    (h : s.book.VisibleAt s.book.active) :
    (∀ i, (after s (ops.take i)).book.Presents) ↔
      ∀ i (hi : i < ops.length), ¬ ops[i].Unseats (after s (ops.take i)).book := by
  constructor
  · intro hpresents i hi
    have := hpresents (i + 1)
    rwa [after_take_succ s hi, presents_run_iff (hpresents i)] at this
  · intro hseated i
    induction i with
    | zero => exact fun _ => h
    | succ i ih =>
      by_cases hi : i < ops.length
      · rw [after_take_succ s hi, presents_run_iff ih]
        exact hseated i hi
      · rwa [List.take_of_length_le (by omega), ← List.take_of_length_le (Nat.le_of_not_lt hi)]

def threeSheets : FillState :=
  FillState.ofWorkbook { sheets := [{ title := "A" }, { title := "B" }, { title := "C" }] }

def lastActive : List SheetOp := [hide "A" true, hide "B" true, hide "A" false]

theorem threeSheets_unseated :
    threeSheets.book.VisibleAt threeSheets.book.active ∧
      ¬ (∀ i, (after threeSheets ((lastActive ++ [copy "A" "X" none]).take i)).book.Presents) ∧
      ∀ i, (after threeSheets ((lastActive ++ [copy "A" "X" (some "C")]).take i)).book.Presents := by
  have hvisible : threeSheets.book.VisibleAt threeSheets.book.active := by decide +kernel
  refine ⟨hvisible, fun h => ?_, ?_⟩
  · exact (after_presents_iff _ _ hvisible).1 h 3 (by decide) (by decide +kernel)
  · exact (after_presents_iff _ _ hvisible).2 (by decide +kernel)

end SheetOp

end SheetTemplate
