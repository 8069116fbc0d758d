import SheetTemplate.Command.Run
import SheetTemplate.Proofs.Command.Items

namespace SheetTemplate

open FillM FillState

namespace FillM

variable {α β : Type}

def Answers (m : FillM α) (q : Meaning → EvalM α) : Prop :=
  ∀ s a t, s.context.Sound → exec m s = (.ok a, t) →
    ∃ st, (q s.context.get?).run s.streams = (.ok a, st) ∧ Asked st s t

theorem answers_pure (a : α) : Answers (pure a) fun _ => pure a := by
  intro s b t hs h
  cases h
  exact ⟨s.streams, rfl, asked_refl hs⟩

theorem answers_throw (f : Failure) (q : Meaning → EvalM α) : Answers (throw f) q := by
  intro s a t _ h
  cases h

theorem Answers.bind {m : FillM α} {q : Meaning → EvalM α} {f : α → FillM β}
    {p : α → Meaning → EvalM β} (hm : Answers m q) (hf : ∀ a, Answers (f a) (p a)) :
    Answers (m >>= f) fun n => q n >>= fun a => p a n := by
  intro s b t hs h
  obtain ⟨a, u, hu, ht⟩ := bind_eq_ok.1 h
  obtain ⟨st, hq, hasked⟩ := hm s a u hs hu
  obtain ⟨st', hp, hasked'⟩ := hf a u b t hasked.sound ht
  rw [hasked.get?, hasked.streams] at hp
  exact ⟨st', EvalM.bind_eq_ok.2 ⟨a, st, hq, hp⟩, hasked.trans hasked'⟩

theorem answers_eval (m : EvalM α) : Answers (eval m) fun _ => m := by
  intro s a t hs h
  rw [exec_eval] at h
  obtain ⟨hm, rfl⟩ := Prod.mk.inj h
  exact ⟨_, Prod.ext hm rfl, rfl, rfl, hs, rfl, rfl⟩

theorem answers_names (q : Meaning → EvalM α) : Answers (do let n ← names; eval (q n)) q := by
  intro s a t hs h
  obtain ⟨n, u, hu, ht⟩ := bind_eq_ok.1 h
  rw [exec_names hs] at hu
  cases hu
  obtain ⟨st, hq, hasked⟩ := answers_eval (q s.context.get?) _ a t hs.keepView ht
  exact ⟨st, hq, hasked.evaluated, hasked.streams, hasked.sound, hasked.data, hasked.run⟩

theorem Answers.mapFailure {m : FillM α} {q : Meaning → EvalM α} (hm : Answers m q)
    (g : Failure → Failure) : Answers (mapFailure g m) q :=
  fun s a t hs h => hm s a t hs (mapFailure_eq_ok.1 h)

theorem answers_itemsOr (v : Value) (cause : String → Cause) (expression command property : String) :
    Answers (itemsOr v cause expression command property) fun _ => v.itemList := by
  intro s a t hs h
  rw [itemsOr, exec_tryCatch] at h
  rcases hv : exec (eval v.itemList) s with ⟨f | items, u⟩
  · rw [hv] at h
    dsimp only at h
    split at h <;> cases h
  · rw [hv] at h
    cases h
    exact answers_eval _ s a t hs hv

end FillM

def FillHost.itemsIn (h : FillHost) (text : String) (names : Meaning) : EvalM (List Value) := do
  (← h.evaluator.evaluate names text).itemList

def FillHost.wholeIn (h : FillHost) (text : String) (names : Meaning) : EvalM Int := do
  EvalM.ofFault (Expr.toWhole (← h.evaluator.evaluate names text))

namespace Evaluator

def named (ev : Evaluator) (n : String) (names : Meaning) : Value :=
  let v := (((names n).or (ev.functions.find? n)).or (Value.builtins.find? n)).getD
    (Expr.undefinedName n)
  if v.isMissing then .null else v

theorem evaluate_name (ev : Evaluator) {text n : String}
    (hsome : (Text.stripText text).isEmpty = false)
    (hname : Expr.compile (Text.stripText text) = .ok (.name n)) (hself : (n == "self") = false)
    (names : Meaning) : ev.evaluate names text = pure (ev.named n names) := by
  have heval : Expr.eval (ev.scope names) (.name n) =
      pure ((((names n).or (ev.functions.find? n)).or (Value.builtins.find? n)).getD
        (Expr.undefinedName n)) := by
    simp only [Expr.eval, scope, hself, Bool.false_eq_true, if_false]
  unfold evaluate
  dsimp only
  rw [hsome, hname]
  simp only [Bool.false_eq_true, if_false, EvalM.ofFailure]
  rw [pure_bind, heval]
  rfl

theorem named_near (ev : Evaluator) {n : String} {m m' : Meaning} (hm : m.Near m')
    (hrow : n ≠ Context.rowName) (hcol : n ≠ Context.columnName) :
    ev.named n m' = ev.named n m := by
  rw [named, named, hm n hrow hcol]

end Evaluator

section Commands

variable (h : FillHost)

theorem answers_isTrue (command property condition : String) :
    Answers (within command property (h.isTrue condition)) fun n =>
      h.evaluator.isTrue n condition :=
  (answers_names _).mapFailure _

theorem answers_evaluate (command property text : String) :
    Answers (within command property (h.evaluate text)) fun n => h.evaluator.evaluate n text :=
  (answers_names _).mapFailure _

theorem GridSpec.answers_itemsOf (key text : String) :
    Answers (GridSpec.itemsOf h key text) (h.itemsIn text) :=
  (answers_evaluate h _ _ _).bind fun _ => answers_itemsOr _ _ _ _ _

end Commands

namespace EachSpec

variable {h : FillHost} {e : EachSpec}

theorem answers_binding {α : Type} {m : FillM α} {q : Meaning → EvalM α} (hm : Answers m q)
    (item : Value) : Answers (FillM.binding e.var none item none m) fun n => q (n.bind e.var item) := by
  let alone : EachSpec := { e with varIndex? := none }
  intro s a t hs hr
  obtain ⟨u, hu, rfl⟩ := binding_eq_ok hr
  obtain ⟨st, hq, hasked⟩ := hm _ a u (Guard.sound_set alone item none hs) hu
  have hnames : ((Guard.open s.context e.var none).set s.context item none).get? =
      Meaning.bind s.context.get? e.var item := Guard.get?_set alone item none
  rw [hnames] at hq
  refine ⟨st, hq, ?_, hasked.streams, Guard.sound_close hasked.sound _, ?_, ?_⟩
  · have hevaluated := hasked.evaluated
    rw [Evaluated] at hevaluated ⊢
    rw [hevaluated]
  · rw [Guard.close_data, hasked.data]
    exact Guard.set_data alone item none
  · funext x
    exact Guard.run_close alone item none (congrFun hasked.run x)

theorem answers_selected (condition : String) (items : List Value) :
    Answers (e.selected h condition items) fun n => e.selectIn h n condition items := by
  induction items with
  | nil => exact answers_pure _
  | cons item rest ih =>
    refine (answers_binding (answers_isTrue h _ _ _) item).bind fun keep => ?_
    exact ih.bind fun others => answers_pure _

theorem answers_arranged (items : List Value) : Answers (if items.isEmpty then return [] else
    FillM.ofFault (do e.ordered (← e.grouped items))) fun _ => e.arranged items := by
  unfold arranged
  split
  · exact answers_pure _
  · exact answers_eval _

theorem answers_resolve : Answers (e.resolve h) (e.resolveIn h) := by
  refine (answers_evaluate h _ _ _).bind fun v => (answers_itemsOr _ _ _ _ _).bind fun items => ?_
  by_cases hempty : items.isEmpty = true
  · simp only [if_pos hempty]
    exact answers_pure _
  · simp only [if_neg hempty]
    have hchosen : ∀ kept, Answers (if kept.isEmpty then return [] else
        FillM.ofFault (do e.ordered (← e.grouped kept))) fun _ => e.arranged kept :=
      answers_arranged
    unfold chosenIn
    cases e.select? with
    | none => exact (answers_pure items).bind hchosen
    | some condition => exact (answers_selected condition items).bind hchosen

theorem resolveIn_plain (hselect : e.select? = none)
    (hgroup : e.groupBy? = none) (horder : e.orderBy? = none) (m : Meaning) :
    e.resolveIn h m = h.evaluator.evaluate m e.items >>= Value.itemList := by
  have hkeep : (fun items : List Value => do
      if items.isEmpty then return []
      else e.arranged (← chosenIn h e m items)) = pure := by
    funext items
    cases items with
    | nil => rfl
    | cons v rest =>
      simp only [chosenIn, hselect, arranged, grouped, hgroup, ordered, horder]
      rfl
  unfold resolveIn
  rw [hkeep]
  simp only [bind_pure]

end EachSpec

theorem MergeSpec.dimension_answers (h : FillHost) (key : String) (given? : Option String)
    (replayed : Int) :
    (∃ n : Except Fault Int, Answers (MergeSpec.dimension h key given? replayed) fun _ =>
        EvalM.ofFault n) ∨
      ∃ text, given? = some text ∧
        Answers (MergeSpec.dimension h key given? replayed) (h.wholeIn (Text.stripText text)) := by
  unfold MergeSpec.dimension
  cases given? with
  | none => exact .inl ⟨.ok (max replayed 1), answers_pure _⟩
  | some expression =>
    dsimp only
    split
    · exact .inl ⟨_, answers_eval _⟩
    · refine .inr ⟨expression, rfl, (answers_evaluate h _ _ _).bind fun v => ?_⟩
      cases hv : Expr.toWhole v with
      | ok n => exact answers_pure n
      | error f =>
        dsimp only
        split
        · exact answers_throw _ _
        · exact answers_throw _ _

end SheetTemplate
