import SheetTemplate.Proofs.Fill.Rendering

namespace SheetTemplate

open FillM

namespace EachSpec

variable (h : FillHost) (e : EachSpec)

def selectIn (names : Meaning) (condition : String) : List Value → EvalM (List Value)
  | [] => return []
  | item :: rest => do
    let keep ← h.evaluator.isTrue (names.bind e.var item) condition
    let rest ← selectIn names condition rest
    return if keep then item :: rest else rest

def chosenIn (names : Meaning) (items : List Value) : EvalM (List Value) :=
  match e.select? with
  | none => return items
  | some condition => selectIn h e names condition items

def arranged (items : List Value) : EvalM (List Value) :=
  if items.isEmpty then return []
  else EvalM.ofFault (do e.ordered (← e.grouped items))

def resolveIn (names : Meaning) : EvalM (List Value) := do
  let items ← (← h.evaluator.evaluate names e.items).itemList
  if items.isEmpty then return []
  else e.arranged (← chosenIn h e names items)

end EachSpec

structure FillState.Asked (st : Streams) (s t : FillState) : Prop where
  evaluated : Evaluated s t
  streams : t.streams = st
  sound : t.context.Sound
  data : t.context.data = s.context.data
  run : t.context.runVars.find? = s.context.runVars.find?

namespace FillState

variable {s t u : FillState} {st st' : Streams}

theorem asked_refl (hs : s.context.Sound) : Asked s.streams s s := ⟨rfl, rfl, hs, rfl, rfl⟩

theorem Asked.trans (h : Asked st s t) (h' : Asked st' t u) : Asked st' s u :=
  ⟨trans_of Evaluated h.evaluated h'.evaluated, h'.streams, h'.sound, h'.data.trans h.data,
    h'.run.trans h.run⟩

theorem Asked.get? (h : Asked st s t) : t.context.get? = s.context.get? := by
  funext n
  rw [Context.get?, Context.get?, h.data, h.run]

theorem Asked.near (h : Asked st s t) : Context.Near s.context t.context :=
  ⟨h.data, fun n _ _ => congrFun h.run n⟩

end FillState

open FillState

namespace FillM

variable {α : Type} {s t : FillState} {st : Streams} {a : α} {m : FillM α}

theorem eval_asked {m : EvalM α} (hs : s.context.Sound) (hm : m.run s.streams = (.ok a, st)) :
    ∃ t, exec (eval m) s = (.ok a, t) ∧ Asked st s t := by
  rw [exec_eval, hm]
  exact ⟨_, rfl, rfl, rfl, hs, rfl, rfl⟩

theorem names_asked {m : Meaning → EvalM α} (hs : s.context.Sound)
    (hm : (m s.context.get?).run s.streams = (.ok a, st)) :
    ∃ t, exec (do let n ← names; eval (m n)) s = (.ok a, t) ∧ Asked st s t := by
  obtain ⟨t, ht, hasked⟩ := eval_asked hs.keepView
    (s := { s with context := s.context.keepView }) hm
  refine ⟨t, bind_eq_ok.2 ⟨_, _, exec_names hs, ht⟩, ?_⟩
  exact ⟨hasked.evaluated, hasked.streams, hasked.sound, hasked.data, hasked.run⟩

theorem within_asked (command property : String) (h : ∃ t, exec m s = (.ok a, t) ∧ Asked st s t) :
    ∃ t, exec (within command property m) s = (.ok a, t) ∧ Asked st s t := by
  obtain ⟨t, ht, hasked⟩ := h
  exact ⟨t, mapFailure_eq_ok.2 ht, hasked⟩

theorem itemsOr_asked {v : Value} {items : List Value} (hs : s.context.Sound)
    (hv : v.itemList.run s.streams = (.ok items, st)) (cause : String → Cause)
    (expression command property : String) :
    ∃ t, exec (itemsOr v cause expression command property) s = (.ok items, t) ∧ Asked st s t := by
  obtain ⟨t, ht, hasked⟩ := eval_asked hs hv
  refine ⟨t, ?_, hasked⟩
  rw [itemsOr, exec_tryCatch, ht]

end FillM

namespace EachSpec

variable {h : FillHost} {e : EachSpec} {s : FillState} {st : Streams} {items kept : List Value}

theorem binding_asked {α : Type} {a : α} {m : FillM α} (item : Value) (hs : s.context.Sound)
    (hm : ∀ u : FillState, u.streams = s.streams → u.context.Sound →
      u.context.get? = Meaning.bind s.context.get? e.var item →
        ∃ t, exec m u = (.ok a, t) ∧ Asked st u t) :
    ∃ t, exec (FillM.binding e.var none item none m) s = (.ok a, t) ∧ Asked st s t := by
  let alone : EachSpec := { e with varIndex? := none }
  let u := { s with context := (Guard.open s.context e.var none).set s.context item none }
  have hu : u.context.Sound := Guard.sound_set alone item none hs
  have hnames : u.context.get? = Meaning.bind s.context.get? e.var item :=
    Guard.get?_set alone item none
  obtain ⟨t, ht, hasked⟩ := hm u rfl hu hnames
  refine ⟨{ t with context := ((Guard.open s.context e.var none).close t.context).2 }, ?_,
    ?_, hasked.streams, Guard.sound_close hasked.sound _, ?_, ?_⟩
  · rw [exec_binding]
    exact congrArg (fun r => (r.1, { r.2 with
      context := ((Guard.open s.context e.var none).close r.2.context).2 })) ht
  · have hevaluated := hasked.evaluated
    rw [Evaluated] at hevaluated ⊢
    rw [hevaluated]
  · rw [Guard.close_data, hasked.data]
    exact Guard.set_data alone item none
  · funext x
    exact Guard.run_close alone item none (congrFun hasked.run x)

theorem selected_ok {condition : String} (hs : s.context.Sound)
    (hr : (e.selectIn h s.context.get? condition items).run s.streams = (.ok kept, st)) :
    ∃ t, exec (e.selected h condition items) s = (.ok kept, t) ∧ Asked st s t := by
  induction items generalizing s kept with
  | nil =>
    cases hr
    exact ⟨s, rfl, asked_refl hs⟩
  | cons item rest ih =>
    obtain ⟨keep, u, hkeep, hr⟩ := EvalM.bind_eq_ok.1 hr
    obtain ⟨others, v, hothers, hsame⟩ := EvalM.bind_eq_ok.1 hr
    obtain ⟨t, ht, hasked⟩ := binding_asked (e := e) item hs fun w hstreams hw hnames =>
      within_asked "each" "select" <|
        names_asked (m := fun n => h.evaluator.isTrue n condition) hw
          (by rw [hnames, hstreams]; exact hkeep)
    cases hsame
    obtain ⟨w, hw, hasked'⟩ := ih hasked.sound (by rw [hasked.get?, hasked.streams]; exact hothers)
    exact ⟨w, bind_eq_ok.2 ⟨_, _, ht, bind_eq_ok.2 ⟨_, _, hw, rfl⟩⟩, hasked.trans hasked'⟩

theorem arranged_ok (hs : s.context.Sound)
    (hr : (e.arranged items).run s.streams = (.ok kept, st)) :
    ∃ t, exec (if items.isEmpty then return [] else
        FillM.ofFault (do e.ordered (← e.grouped items))) s = (.ok kept, t) ∧ Asked st s t := by
  rw [arranged] at hr
  split at hr
  · next hempty =>
    cases hr
    rw [if_pos hempty]
    exact ⟨s, rfl, asked_refl hs⟩
  · next hsome =>
    rw [if_neg hsome]
    exact eval_asked hs hr

theorem resolve_ok (hs : s.context.Sound)
    (hr : (e.resolveIn h s.context.get?).run s.streams = (.ok items, st)) :
    ∃ t, exec (e.resolve h) s = (.ok items, t) ∧ Asked st s t := by
  obtain ⟨v, st₁, hv, hr⟩ := EvalM.bind_eq_ok.1 hr
  obtain ⟨found, st₂, hfound, hr⟩ := EvalM.bind_eq_ok.1 hr
  obtain ⟨s₁, hs₁, hasked₁⟩ := within_asked "each" "items"
    (names_asked (m := fun n => h.evaluator.evaluate n e.items) hs hv)
  obtain ⟨s₂, hs₂, hasked₂⟩ := itemsOr_asked hasked₁.sound (by rw [hasked₁.streams]; exact hfound)
    (.itemsNotSequence e.items) e.items "each" "items"
  have hasked := hasked₁.trans hasked₂
  unfold resolve
  by_cases hempty : found.isEmpty = true
  · rw [if_pos hempty] at hr
    cases hr
    refine ⟨s₂, bind_eq_ok.2 ⟨_, _, hs₁, bind_eq_ok.2 ⟨_, _, hs₂, ?_⟩⟩, hasked⟩
    rw [if_pos hempty]
    rfl
  · rw [if_neg hempty] at hr
    obtain ⟨kept, st₃, hkept, hr⟩ := EvalM.bind_eq_ok.1 hr
    rw [chosenIn] at hkept
    cases hcondition : e.select? with
    | none =>
      rw [hcondition] at hkept
      cases hkept
      obtain ⟨t, ht, hasked'⟩ := arranged_ok hasked.sound (by rw [hasked.streams]; exact hr)
      refine ⟨t, bind_eq_ok.2 ⟨_, _, hs₁, bind_eq_ok.2 ⟨_, _, hs₂, ?_⟩⟩, hasked.trans hasked'⟩
      rw [if_neg hempty]
      exact ht
    | some condition =>
      rw [hcondition] at hkept
      obtain ⟨s₃, hs₃, hasked₃⟩ :=
        selected_ok hasked.sound (by rw [hasked.get?, hasked.streams]; exact hkept)
      obtain ⟨t, ht, hasked'⟩ := arranged_ok hasked₃.sound (by rw [hasked₃.streams]; exact hr)
      refine ⟨t, bind_eq_ok.2 ⟨_, _, hs₁, bind_eq_ok.2 ⟨_, _, hs₂, ?_⟩⟩,
        hasked.trans (hasked₃.trans hasked')⟩
      rw [if_neg hempty]
      exact bind_eq_ok.2 ⟨_, _, hs₃, ht⟩

end EachSpec

end SheetTemplate
