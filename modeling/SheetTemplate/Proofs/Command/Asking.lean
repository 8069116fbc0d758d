import SheetTemplate.Command.Run
import SheetTemplate.Proofs.Fill.Writing

namespace SheetTemplate

namespace FillM

variable {α β : Type}

def Inward (m : FillM α) : Prop :=
  ∀ s s', s'.context = s.context → s'.streams = s.streams → ∃ r c st,
    exec m s = (r, { s with context := c, streams := st }) ∧
      exec m s' = (r, { s' with context := c, streams := st })

theorem Inward.evaluated {m : FillM α} (hm : Inward m) : Leads Evaluated m := by
  intro s
  obtain ⟨r, c, st, hr, -⟩ := hm s s rfl rfl
  rw [hr]
  rfl

theorem inward_of_constant {m : FillM α} {r : Except Failure α} (h : ∀ s, exec m s = (r, s)) :
    Inward m := by
  intro s s' hcontext hstreams
  refine ⟨r, s.context, s.streams, h s, ?_⟩
  rw [h s', ← hcontext, ← hstreams]

theorem inward_pure (a : α) : Inward (pure a) := inward_of_constant fun _ => rfl

theorem inward_throw (f : Failure) : Inward (throw f : FillM α) := inward_of_constant fun _ => rfl

theorem inward_eval (m : EvalM α) : Inward (eval m) := by
  intro s s' hcontext hstreams
  refine ⟨(m.run s.streams).1, s.context, (m.run s.streams).2, rfl, ?_⟩
  rw [exec_eval, hstreams, ← hcontext]

theorem inward_onContext (f : Context → Context) : Inward (onContext f) := by
  intro s s' hcontext hstreams
  refine ⟨.ok (), f s.context, s.streams, rfl, ?_⟩
  rw [onContext, exec_modify, ← hcontext, ← hstreams]

theorem inward_names : Inward names := by
  intro s s' hcontext hstreams
  refine ⟨.ok s.context.keepView.view.find?, s.context.keepView, s.streams, rfl, ?_⟩
  rw [← hcontext, ← hstreams]
  rfl

theorem Inward.bind {m : FillM α} {f : α → FillM β} (hm : Inward m) (hf : ∀ a, Inward (f a)) :
    Inward (m >>= f) := by
  intro s s' hcontext hstreams
  obtain ⟨r, c, st, hr, hr'⟩ := hm s s' hcontext hstreams
  rw [exec_bind, exec_bind, hr, hr']
  cases r with
  | error e => exact ⟨.error e, c, st, rfl, rfl⟩
  | ok a => exact hf a _ _ rfl rfl

theorem inward_get {f : FillState → FillM α} (hf : ∀ s, Inward (f s))
    (hsame : ∀ s s', s'.context = s.context → f s' = f s) : Inward (get >>= f) := by
  intro s s' hcontext hstreams
  rw [exec_bind, exec_bind, exec_get, exec_get]
  dsimp only
  rw [hsame s s' hcontext]
  exact hf s s s' hcontext hstreams

theorem Inward.tryCatch {m : FillM α} {g : Failure → FillM α} (hm : Inward m)
    (hg : ∀ f, Inward (g f)) : Inward (tryCatch m g) := by
  intro s s' hcontext hstreams
  obtain ⟨r, c, st, hr, hr'⟩ := hm s s' hcontext hstreams
  rw [exec_tryCatch, exec_tryCatch, hr, hr']
  cases r with
  | error e => exact hg e _ _ rfl rfl
  | ok a => exact ⟨.ok a, c, st, rfl, rfl⟩

theorem Inward.mapFailure {m : FillM α} (hm : Inward m) (g : Failure → Failure) :
    Inward (mapFailure g m) := hm.tryCatch fun _ => inward_throw _

theorem Inward.binding {m : FillM α} (hm : Inward m) (name : String) (index? : Option String)
    (item : Value) (index : Option Value) : Inward (binding name index? item index m) := by
  intro s s' hcontext hstreams
  rw [exec_binding, exec_binding, hcontext]
  dsimp only
  obtain ⟨r, c, st, hr, hr'⟩ := hm
    { s with context := (Guard.open s.context name index?).set s.context item index }
    { s' with context := (Guard.open s.context name index?).set s.context item index } rfl hstreams
  rw [hr, hr']
  exact ⟨r, _, st, rfl, rfl⟩

theorem inward_itemsOr (v : Value) (cause : String → Cause) (expression command property : String) :
    Inward (itemsOr v cause expression command property) := by
  refine (inward_eval _).tryCatch fun f => ?_
  split
  · exact inward_throw _
  · exact inward_throw _

end FillM

open FillM

section Commands

variable (h : FillHost)

theorem inward_evaluateText (text : String) : Inward (h.evaluateText text) :=
  inward_names.bind fun _ => inward_eval _

theorem inward_evaluate (command property text : String) :
    Inward (within command property (h.evaluate text)) :=
  (inward_names.bind fun _ => inward_eval _).mapFailure _

theorem inward_isTrue (command property condition : String) :
    Inward (within command property (h.isTrue condition)) :=
  (inward_names.bind fun _ => inward_eval _).mapFailure _

theorem GridSpec.inward_itemsOf (key text : String) : Inward (GridSpec.itemsOf h key text) :=
  (inward_evaluate h _ _ _).bind fun _ => inward_itemsOr _ _ _ _ _

theorem MergeSpec.inward_dimension (key : String) (given? : Option String) (replayed : Int) :
    Inward (MergeSpec.dimension h key given? replayed) := by
  unfold MergeSpec.dimension
  cases given? with
  | none => exact inward_pure _
  | some expression =>
    dsimp only
    split
    · exact inward_eval _
    · refine (inward_evaluate h _ _ _).bind fun v => ?_
      split
      · exact inward_pure _
      · split
        · exact inward_throw _
        · exact inward_throw _

theorem EachSpec.inward_selected (e : EachSpec) (condition : String) (items : List Value) :
    Inward (e.selected h condition items) := by
  induction items with
  | nil => exact inward_pure _
  | cons item rest ih =>
    refine ((inward_isTrue h _ _ _).binding _ _ _ _).bind fun keep => ?_
    exact ih.bind fun _ => inward_pure _

theorem EachSpec.inward_resolve (e : EachSpec) : Inward (e.resolve h) := by
  refine (inward_evaluate h _ _ _).bind fun v => (inward_itemsOr _ _ _ _ _).bind fun items => ?_
  split
  · exact inward_pure _
  extract_lets chosen
  have hchosen : ∀ items, Inward (chosen items) := by
    intro items
    unfold chosen
    split
    · exact inward_pure _
    · exact inward_eval _
  split
  · exact (inward_pure _).bind hchosen
  · exact (EachSpec.inward_selected h e _ _).bind hchosen

end Commands

theorem Updater.inward_resolve (name : String) : Inward (Updater.resolve name) := by
  apply inward_get
  · intro s
    dsimp only
    split
    · exact inward_throw _
    · split
      · exact inward_throw _
      · exact inward_pure _
      · exact inward_throw _
  · intro s s' hcontext
    rw [hcontext]

end SheetTemplate
