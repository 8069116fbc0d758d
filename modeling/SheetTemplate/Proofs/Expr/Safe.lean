import SheetTemplate.Collection.Items
import SheetTemplate.Context

namespace SheetTemplate

open Value

def Cause.IsSyntax : Cause → Prop
  | .emptyExpression | .malformed _ _ => True
  | _ => False

def Failure.IsSyntax : Failure → Prop
  | .template e => e.cause.IsSyntax
  | .plain _ | .library _ => False

def Streams.Safe (st : Streams) : Prop :=
  ∀ items ∈ st, ∀ f, .error f ∈ items → ¬ f.IsSyntax

namespace Streams

variable {st : Streams}

theorem Safe.getD (hst : st.Safe) (id : Nat) : ∀ f, .error f ∈ st.getD id [] → ¬ f.IsSyntax := by
  intro f hf
  rw [List.getD_eq_getElem?_getD] at hf
  cases hl : st[id]? with
  | none =>
    rw [hl] at hf
    cases hf
  | some l =>
    rw [hl] at hf
    exact hst l (List.mem_of_getElem? hl) f hf

theorem Safe.set (hst : st.Safe) (id : Nat) {items : List (Except Failure Value)}
    (h : ∀ f, .error f ∈ items → ¬ f.IsSyntax) : Streams.Safe (st.set id items) := by
  intro l hl
  rcases List.mem_or_eq_of_mem_set hl with hl | rfl
  · exact hst l hl
  · exact h

end Streams

namespace EvalM

variable {α β : Type} {Q : α → Prop} {R : β → Prop}

structure Comes (Q : α → Prop) (p : Except Failure α × Streams) : Prop where
  streams : p.2.Safe
  ok : ∀ a, p.1 = .ok a → Q a
  error : ∀ f, p.1 = .error f → ¬ f.IsSyntax

def Gives (Q : α → Prop) (m : EvalM α) : Prop := ∀ st : Streams, st.Safe → Comes Q (m.run st)

abbrev Safe (m : EvalM α) : Prop := Gives (fun _ => True) m

theorem comes_ok {a : α} {st : Streams} (hst : st.Safe) (ha : Q a) :
    Comes Q ((.ok a, st) : Except Failure α × Streams) :=
  ⟨hst, fun _ h => Except.ok.inj h ▸ ha, fun _ h => nomatch h⟩

theorem comes_error {f : Failure} {st : Streams} (hst : st.Safe) (hf : ¬ f.IsSyntax) :
    Comes Q ((.error f, st) : Except Failure α × Streams) :=
  ⟨hst, fun _ h => (nomatch h), fun _ h => Except.error.inj h ▸ hf⟩

theorem gives_pure {a : α} (ha : Q a) : Gives Q (pure a : EvalM α) := fun _ hst => comes_ok hst ha

theorem safe_pure (a : α) : Safe (pure a : EvalM α) := gives_pure trivial

theorem gives_throw {f : Failure} (hf : ¬ f.IsSyntax) : Gives Q (throw f : EvalM α) :=
  fun _ hst => comes_error hst hf

theorem gives_fault (f : Fault) : Gives Q (fault f : EvalM α) := gives_throw not_false

theorem gives_ofFailure {r : Except Failure α} (hok : ∀ a, r = .ok a → Q a)
    (herror : ∀ f, r = .error f → ¬ f.IsSyntax) : Gives Q (ofFailure r) := by
  cases r with
  | ok a => exact gives_pure (hok a rfl)
  | error f => exact gives_throw (herror f rfl)

theorem safe_ofFault (r : Except Fault α) : Safe (ofFault r) := by
  cases r with
  | ok a => exact safe_pure a
  | error f => exact gives_fault f

theorem run_bind (m : EvalM α) (k : α → EvalM β) (st : Streams) :
    (m >>= k).run st = match m.run st with
      | (.ok a, st) => (k a).run st
      | (.error f, st) => (.error f, st) := by
  simp only [ExceptT.run, bind, ExceptT.bind, ExceptT.mk, StateT.bind]
  rcases m st with ⟨r | r, t⟩ <;> rfl

theorem run_tryCatch (m : EvalM α) (g : Failure → EvalM α) (st : Streams) :
    (tryCatch m g : EvalM α).run st = match m.run st with
      | (.ok a, st) => (.ok a, st)
      | (.error f, st) => (g f).run st := by
  simp only [ExceptT.run, tryCatch, tryCatchThe, MonadExceptOf.tryCatch, ExceptT.tryCatch,
    ExceptT.mk, bind, StateT.bind]
  rcases m st with ⟨r | r, t⟩ <;> rfl

theorem Gives.bind {m : EvalM α} {k : α → EvalM β} (hm : Gives Q m)
    (hk : ∀ a, Q a → Gives R (k a)) : Gives R (m >>= k) := by
  intro st hst
  have h := hm st hst
  rw [run_bind]
  rcases hr : m.run st with ⟨f | a, u⟩
  · rw [hr] at h
    exact comes_error h.streams (h.error f rfl)
  · rw [hr] at h
    exact hk a (h.ok a rfl) u h.streams

theorem Safe.bind {m : EvalM α} {k : α → EvalM β} (hm : Safe m) (hk : ∀ a, Gives R (k a)) :
    Gives R (m >>= k) := Gives.bind hm fun a _ => hk a

theorem Gives.tryCatch {m : EvalM α} {g : Failure → EvalM α} (hm : Gives Q m)
    (hg : ∀ f, ¬ f.IsSyntax → Gives Q (g f)) : Gives Q (tryCatch m g) := by
  intro st hst
  have h := hm st hst
  rw [run_tryCatch]
  rcases hr : m.run st with ⟨f | a, u⟩
  · rw [hr] at h
    exact hg f (h.error f rfl) u h.streams
  · rw [hr] at h
    exact h

theorem safe_mapM {l : List α} {k : α → EvalM β} (hk : ∀ a ∈ l, Safe (k a)) : Safe (l.mapM k) := by
  induction l with
  | nil => exact safe_pure []
  | cons a l ih =>
    rw [List.mapM_cons]
    refine Safe.bind (hk a List.mem_cons_self) fun b => ?_
    exact Safe.bind (ih fun c hc => hk c (List.mem_cons_of_mem a hc)) fun _ => safe_pure _

theorem safe_newStream {items : List (Except Failure Value)}
    (h : ∀ f, .error f ∈ items → ¬ f.IsSyntax) : Safe (newStream items) := by
  intro st hst
  refine comes_ok (fun l hl => ?_) trivial
  rcases List.mem_append.1 hl with hl | hl
  · exact hst l hl
  · rw [List.mem_singleton.1 hl]
    exact h

theorem safe_streamOf (items : List Value) : Safe (newStream (items.map .ok)) := by
  refine safe_newStream fun f hf => ?_
  obtain ⟨_, -, h⟩ := List.mem_map.1 hf
  cases h

theorem safe_drain (id : Nat) : Safe (drain id) := by
  intro st hst
  have hitems := hst.getD id
  have hall : Safe ((st.getD id []).mapM ofFailure) := safe_mapM fun x hx =>
    gives_ofFailure (fun _ _ => trivial) fun f hf => hitems f (hf ▸ hx)
  exact hall (st.set id []) (hst.set id fun f hf => absurd hf List.not_mem_nil)

theorem safe_next? (id : Nat) : Safe (next? id) := by
  intro st hst
  have hitems := hst.getD id
  have hget : (get : EvalM Streams).run st = (.ok st, st) := rfl
  unfold next?
  rw [run_bind, hget]
  dsimp only
  cases hl : st.getD id [] with
  | nil => exact comes_ok hst trivial
  | cons item rest =>
    rw [hl] at hitems
    have hitem : Safe (ofFailure item) := gives_ofFailure (fun _ _ => trivial) fun f hf =>
      hitems f (hf ▸ List.mem_cons_self)
    have hrest := hst.set id fun f hf => hitems f (List.mem_cons_of_mem item hf)
    exact (Safe.bind hitem fun x => safe_pure (some x)) (st.set id rest) hrest

theorem safe_iterate (v : Value) : Safe v.iterate := by
  unfold iterate
  split
  all_goals first | exact safe_pure _ | exact safe_drain _ | exact gives_fault _ | skip
  split
  · exact safe_pure _
  · exact safe_pure _

theorem safe_itemList (v : Value) : Safe v.itemList := by
  unfold itemList
  split
  all_goals first | exact safe_pure _ | exact safe_drain _ | exact gives_fault _

end EvalM

namespace Expr

open EvalM

theorem safe_within (needle hay : Value) : Safe (within needle hay) := by
  unfold within
  split
  · split
    · exact safe_pure _
    · exact safe_pure _
    · exact gives_fault _
  · split
    all_goals first | exact safe_pure _ | exact gives_fault _
  all_goals first
    | exact safe_pure _
    | exact gives_fault _
    | exact Safe.bind (safe_iterate _) fun _ => safe_pure _

theorem safe_compareOp (op : Comparison) (left right : Value) : Safe (compareOp op left right) := by
  unfold compareOp
  split
  · exact safe_pure _
  · exact safe_pure _
  · exact safe_ofFault _
  · exact safe_within _ _
  · exact Safe.bind (safe_within _ _) fun _ => safe_pure _

theorem safe_textMethod (cs : List Char) (name : String) (c : Call) :
    Safe (textMethod cs name c) := by
  unfold textMethod
  dsimp only
  split
  · split
    · exact gives_fault _
    · split
      · exact gives_fault _
      · exact safe_pure _
  · split
    · split
      · split
        · exact Safe.bind (safe_iterate _) fun _ => safe_ofFault _
        · exact gives_fault _
        · exact Safe.bind (safe_iterate _) fun _ => safe_ofFault _
      · exact gives_fault _
    · exact safe_ofFault _

theorem safe_callMethod (owner : Value) (name : String) (c : Call) :
    Safe (callMethod owner name c) := by
  unfold callMethod
  split
  all_goals first
    | exact safe_textMethod _ _ _
    | exact safe_ofFault _
    | exact safe_pure _
    | skip
  all_goals split
  all_goals first
    | exact safe_ofFault _
    | exact safe_pure _
    | skip
  all_goals split
  all_goals exact safe_pure _

theorem safe_holds (test : String) (v : Value) (c : Call) : Safe (holds test v c) := by
  unfold holds
  dsimp only
  split
  · exact Safe.bind (safe_ofFault _) fun _ => safe_ofFault _
  · split
    · split
      · exact safe_ofFault _
      · split
        · exact safe_within _ _
        · split
          · exact safe_pure _
          · split
            · exact safe_pure _
            · split
              · exact safe_pure _
              · split
                · exact safe_ofFault _
                · exact safe_pure _
    · split
      · refine Safe.bind (safe_ofFault _) fun _ => ?_
        split
        · exact safe_ofFault _
        · exact safe_pure _
      · split
        · exact Safe.bind (safe_ofFault _) fun _ => safe_pure _
        · split
          · exact Safe.bind (safe_ofFault _) fun _ => safe_pure _
          · exact gives_fault _

theorem safe_bestItem (better : Value.Ordering) (v : Value) (exact : Bool) (path : Value) :
    Safe (bestItem better v exact path) := by
  refine Safe.bind (safe_iterate _) fun items => ?_
  split
  · exact safe_pure _
  · exact Safe.bind (safe_ofFault _) fun _ => Safe.bind (safe_ofFault _) fun _ => safe_pure _

theorem safe_lastItem (v : Value) : Safe (lastItem v) := by
  unfold lastItem
  split
  · exact gives_fault _
  · exact gives_fault _
  · split
    · exact gives_fault _
    · refine Safe.bind (safe_iterate _) fun items => ?_
      split
      · exact safe_pure _
      · exact safe_pure _

theorem safe_firstItem (v : Value) : Safe (firstItem v) := by
  unfold firstItem
  split
  · refine Safe.bind (safe_next? _) fun item? => ?_
    split
    · exact safe_pure _
    · exact safe_pure _
  · refine Safe.bind (safe_iterate _) fun items => ?_
    split
    · exact safe_pure _
    · exact safe_pure _

theorem gives_observing {α : Type} {m : EvalM α} (hm : Safe m) :
    Gives (fun r => ∀ f, r = .error f → ¬ f.IsSyntax) (lazily.observing m) :=
  Gives.tryCatch (Safe.bind hm fun a => gives_pure fun _ h => nomatch h) fun f hf =>
    gives_pure fun g hg => by
      cases hg
      exact hf

theorem gives_lazily_go {f : Value → EvalM (Option Value)} (hf : ∀ v, Safe (f v))
    (items : List Value) :
    Gives (fun l => ∀ e, .error e ∈ l → ¬ e.IsSyntax) (lazily.go f items) := by
  induction items with
  | nil => exact gives_pure fun _ h => absurd h List.not_mem_nil
  | cons v rest ih =>
    refine Gives.bind (gives_observing (hf v)) fun r hr => ?_
    split
    · exact ih
    · refine Gives.bind ih fun l hl => gives_pure fun e he => ?_
      rcases List.mem_cons.1 he with he | he
      · cases he
      · exact hl e he
    · next e =>
      refine gives_pure fun e' he => ?_
      cases List.mem_singleton.1 he
      exact hr e rfl

theorem safe_lazily (v : Value) {f : Value → EvalM (Option Value)} (hf : ∀ v, Safe (f v)) :
    Safe (lazily v f) := by
  refine Gives.bind (gives_observing (safe_iterate v)) fun r hr => ?_
  split
  · exact Gives.bind (gives_lazily_go hf _) fun l hl => safe_newStream hl
  · next e =>
    refine safe_newStream fun e' he => ?_
    cases List.mem_singleton.1 he
    exact hr e rfl

theorem safe_failing (f : Fault) : Safe (failing f) :=
  safe_newStream fun e he => by
    cases List.mem_singleton.1 he
    exact not_false

theorem safe_chosen (v : Value) (keep : Bool) (view : Value → Except Fault Value)
    (args : List Value) (named : List (String × Value)) : Safe (chosen v keep view args named) := by
  unfold chosen
  split
  · exact safe_streamOf []
  · split
    · exact safe_lazily v fun x => Safe.bind (safe_ofFault _) fun _ => safe_pure _
    · split
      · exact safe_failing _
      · refine safe_lazily v fun x => Safe.bind (safe_ofFault _) fun seen => ?_
        exact Safe.bind (safe_holds _ _ _) fun _ => safe_pure _
    · exact safe_failing _

def SafeFilter (m? : Option (EvalM Value)) : Prop := ∀ m, m? = some m → Safe m

theorem safeFilter_some {m : EvalM Value} (hm : Safe m) : SafeFilter (some m) := by
  intro m' h
  cases h
  exact hm

theorem safeFilter_ite {b : Bool} {m? n? : Option (EvalM Value)} (hm : SafeFilter m?)
    (hn : SafeFilter n?) : SafeFilter (if b then m? else n?) := by
  split
  · exact hm
  · exact hn

theorem safeFilter_bound {α : Type} {r : Except Fault α} {k : α → EvalM Value}
    (hk : ∀ a, Safe (k a)) : SafeFilter (some (EvalM.ofFault r >>= k)) :=
  safeFilter_some (Safe.bind (safe_ofFault r) hk)

theorem safe_plainFilter (word : String) (v : Value) (c : Call) :
    SafeFilter (plainFilter? word v c) := by
  unfold plainFilter?
  extract_lets all text bound withContext
  -- The letters' case, and the text as it is.
  iterate 5 apply safeFilter_ite (safeFilter_bound fun _ => safe_pure _)
  apply safeFilter_ite (safeFilter_bound fun _ => safe_ofFault _)
  iterate 2 apply safeFilter_ite (safeFilter_some (safe_ofFault _))
  apply safeFilter_ite
  case hm =>
    refine safeFilter_bound fun b => ?_
    dsimp only
    split
    · exact safe_pure _
    · exact safe_pure _
  apply safeFilter_ite
  case hm =>
    refine safeFilter_bound fun b => Safe.bind (safe_iterate v) fun items => ?_
    dsimp only
    split
    · exact Safe.bind (safe_ofFault _) fun _ => safe_pure _
    · exact Safe.bind (safe_pure _) fun _ => safe_pure _
  apply safeFilter_ite (safeFilter_bound fun _ => safe_firstItem v)
  apply safeFilter_ite (safeFilter_bound fun _ => safe_lastItem v)
  iterate 2
    apply safeFilter_ite
      (safeFilter_bound fun _ => Safe.bind (safe_iterate v) fun _ => safe_ofFault _)
  apply safeFilter_ite (safeFilter_bound fun _ => safe_bestItem _ _ _ _)
  iterate 4 apply safeFilter_ite (safeFilter_bound fun _ => safe_ofFault _)
  apply safeFilter_ite
    (safeFilter_bound fun _ => Safe.bind (safe_iterate v) fun _ => safe_pure _)
  apply safeFilter_ite
  case hm =>
    refine safeFilter_bound fun _ => ?_
    split
    · exact safe_pure _
    · split
      · exact Safe.bind (safe_iterate v) fun _ => safe_streamOf _
      · exact gives_fault _
  apply safeFilter_ite
  case hm =>
    refine safeFilter_bound fun _ => Safe.bind (safe_iterate v) fun _ => ?_
    exact Safe.bind (safe_ofFault _) fun _ => safe_streamOf _
  apply safeFilter_ite
  case hm =>
    refine safeFilter_bound fun _ => ?_
    split
    · exact safe_streamOf []
    · refine safe_newStream fun f hf => ?_
      obtain ⟨_, -, h⟩ := List.mem_map.1 hf
      cases h
    · exact safe_failing _
  apply safeFilter_ite (safeFilter_bound fun _ => safe_ofFault _)
  apply safeFilter_ite (safeFilter_bound fun _ => safe_pure _)
  apply safeFilter_ite
  case hm =>
    apply safeFilter_some
    split
    · exact gives_fault _
    · exact safe_ofFault _
  intro m h
  cases h

theorem safe_applyFilter (depth : Nat) (word : String) (v : Value) (c : Call) :
    Safe (applyFilter depth word v c) := by
  induction depth generalizing word v c with
  | zero => exact gives_fault _
  | succ depth ih =>
    rw [applyFilter]
    split
    · next m hm => exact safe_plainFilter word v c m hm
    · split
      · split
        · exact safe_streamOf []
        · split
          · split
            · split
              · exact safe_failing _
              · exact safe_lazily v fun x => Safe.bind (safe_ofFault _) fun _ => safe_pure _
            · exact safe_failing _
          · split
            · exact safe_failing _
            · exact safe_lazily v fun x => Safe.bind (ih _ _ _) fun _ => safe_pure _
          · exact safe_failing _
      · split
        · exact safe_chosen _ _ _ _ _
        · split
          · exact safe_chosen _ _ _ _ _
          · split
            · split
              · exact safe_failing _
              · exact safe_chosen _ _ _ _ _
            · exact safe_pure _

theorem safe_entriesOf (v : Value) : Safe (entriesOf v) := by
  have hpairs : ∀ (i : Nat) (items : List Value), Safe (entriesOf.pairs i items) := by
    intro i items
    induction items generalizing i with
    | nil => exact safe_pure _
    | cons element rest ih =>
      rw [entriesOf.pairs.eq_def]
      dsimp only
      split
      all_goals
        refine Safe.bind (by first | exact safe_iterate _ | exact gives_fault _) fun parts => ?_
        split
        · exact Safe.bind (ih _) fun _ => safe_pure _
        · exact gives_fault _
  unfold entriesOf
  split
  · exact safe_pure _
  · exact Safe.bind (safe_iterate _) fun items => hpairs 0 items

theorem safe_choices (function : String) (c : Call) : Safe (choices function c) := by
  unfold choices
  split
  · exact gives_fault _
  · dsimp only
    split
    · exact gives_fault _
    · exact Safe.bind (safe_iterate _) fun _ => safe_pure _
    · split
      · exact gives_fault _
      · exact safe_pure _

end Expr

def Host.Safe (host : Host) : Prop := ∀ word c, EvalM.Safe (host word c)

namespace Expr

open EvalM

variable {host : Host}

theorem safe_callValue (hhost : host.Safe) (depth : Nat) (f : Value) (c : Call) :
    Safe (callValue host depth f c) := by
  induction depth generalizing f c with
  | zero => exact gives_fault _
  | succ depth ih =>
    unfold callValue
    extract_lets keyed best
    have hkeyed : ∀ items, Safe (keyed items) := by
      intro items
      unfold keyed
      split
      · exact safe_pure _
      · exact safe_pure _
      · exact safe_mapM fun v _ => Safe.bind (ih _ _) fun _ => safe_pure _
    have hbest : ∀ function better, Safe (best function better) := by
      intro function better
      refine Safe.bind (safe_choices function c) fun (items, fallback) => ?_
      refine Safe.bind (hkeyed items) fun found => Safe.bind (safe_ofFault _) fun best? => ?_
      split
      · exact safe_pure _
      · exact safe_pure _
      · exact gives_fault _
    split
    case h_2 => exact hhost _ _
    case h_3 => exact safe_callMethod _ _ _
    all_goals first
      | exact gives_fault _
      | exact safe_ofFault _
      | exact safe_pure _
      | exact hbest _ _
      | skip
    -- What is left: `str`, `sum`, `sorted`, `range` and `dict`.
    · split
      · exact safe_pure _
      · split <;> exact safe_pure _
      · split
        · exact gives_fault _
        · split
          · exact gives_fault _
          · exact safe_pure _
    · split
      · exact gives_fault _
      · split
        · exact gives_fault _
        · split
          · exact gives_fault _
          · exact Safe.bind (safe_iterate _) fun _ => safe_ofFault _
    · split
      · split
        · exact gives_fault _
        · refine Safe.bind (safe_iterate _) fun items => Safe.bind (hkeyed items) fun found => ?_
          exact Safe.bind (safe_ofFault _) fun _ => safe_pure _
      · exact gives_fault _
    · split
      · exact gives_fault _
      · exact safe_ofFault _
    · split
      · exact Safe.bind (safe_ofFault _) fun _ => safe_pure _
      · refine Safe.bind (safe_entriesOf _) fun entries => ?_
        exact Safe.bind (safe_ofFault _) fun _ => safe_pure _
      · exact gives_fault _

theorem safe_const (s : Scope) (v : Value) : Safe (eval s (.const v)) := by
  rw [eval]
  split
  · exact gives_fault _
  · exact safe_pure _

variable {s : Scope}

-- By recursion on the expression: each part is evaluated, and then worked on without reading more.
mutual

theorem safe_eval (hs : s.host.Safe) : ∀ e, Safe (eval s e)
  | .const v => safe_const s v
  | .name n => by
    rw [eval]
    split
    · exact gives_fault _
    · exact safe_pure _
  | .list items => by
    rw [eval]
    exact Safe.bind (safe_evalAll hs items) fun _ => safe_pure _
  | .tuple items => by
    rw [eval]
    exact Safe.bind (safe_evalAll hs items) fun _ => safe_pure _
  | .dict entries => by
    rw [eval]
    exact Safe.bind (safe_evalEntries hs entries) fun _ => safe_ofFault _
  | .property holder n => by
    rw [eval]
    exact Safe.bind (safe_eval hs holder) fun _ => safe_ofFault _
  | .item holder key => by
    rw [eval]
    exact Safe.bind (safe_eval hs holder) fun _ => Safe.bind (safe_eval hs key) fun _ =>
      safe_ofFault _
  | .slice holder start stop step => by
    rw [eval]
    refine Safe.bind (safe_eval hs holder) fun _ => Safe.bind (safe_evalBound hs start) fun _ => ?_
    refine Safe.bind (safe_evalBound hs stop) fun _ => Safe.bind (safe_evalBound hs step) fun _ => ?_
    exact safe_ofFault _
  | .call f arguments => by
    rw [eval]
    split
    · exact gives_fault _
    · refine Safe.bind (safe_eval hs f) fun _ => Safe.bind (safe_evalArguments hs arguments) fun _ => ?_
      exact safe_callValue hs _ _ _
  | .filter subject n arguments => by
    rw [eval]
    split
    · refine Safe.bind (safe_eval hs subject) fun _ => ?_
      exact Safe.bind (safe_evalArguments hs arguments) fun _ => safe_applyFilter _ _ _ _
    · refine Safe.bind (safe_eval hs subject) fun _ => ?_
      exact Safe.bind (safe_evalArguments hs arguments) fun _ => gives_fault _
  | .test subject n arguments => by
    rw [eval]
    split
    · refine Safe.bind (safe_eval hs subject) fun _ => ?_
      refine Safe.bind (safe_evalArguments hs arguments) fun _ => ?_
      exact Safe.bind (safe_holds _ _ _) fun _ => safe_pure _
    · refine Safe.bind (safe_eval hs subject) fun _ => ?_
      exact Safe.bind (safe_evalArguments hs arguments) fun _ => gives_fault _
  | .unary op operand => by
    rw [eval]
    exact Safe.bind (safe_eval hs operand) fun _ => safe_ofFault _
  | .binary op left right => by
    rw [eval]
    exact Safe.bind (safe_eval hs left) fun _ => Safe.bind (safe_eval hs right) fun _ =>
      safe_ofFault _
  | .concat parts => by
    rw [eval]
    exact Safe.bind (safe_evalAll hs parts) fun _ => safe_pure _
  | .compare first rest => by
    rw [eval]
    exact Safe.bind (safe_eval hs first) fun left => safe_evalChain hs left rest
  | .and left right => by
    rw [eval]
    refine Safe.bind (safe_eval hs left) fun _ => ?_
    split
    · exact safe_eval hs right
    · exact safe_pure _
  | .or left right => by
    rw [eval]
    refine Safe.bind (safe_eval hs left) fun _ => ?_
    split
    · exact safe_pure _
    · exact safe_eval hs right
  | .not operand => by
    rw [eval]
    exact Safe.bind (safe_eval hs operand) fun _ => safe_pure _
  | .cond condition yes (some no) line => by
    rw [eval]
    refine Safe.bind (safe_eval hs condition) fun _ => ?_
    split
    · exact safe_eval hs yes
    · exact safe_eval hs no
  | .cond condition yes none line => by
    rw [eval]
    refine Safe.bind (safe_eval hs condition) fun _ => ?_
    split
    · exact safe_eval hs yes
    · exact safe_pure _

theorem safe_evalBound (hs : s.host.Safe) : ∀ e?, Safe (evalBound s e?)
  | none => by
    rw [evalBound]
    exact safe_pure _
  | some e => by
    rw [evalBound]
    exact safe_eval hs e

theorem safe_evalAll (hs : s.host.Safe) : ∀ l, Safe (evalAll s l)
  | [] => by
    rw [evalAll]
    exact safe_pure _
  | e :: rest => by
    rw [evalAll]
    exact Safe.bind (safe_eval hs e) fun _ => Safe.bind (safe_evalAll hs rest) fun _ => safe_pure _

theorem safe_evalEntries (hs : s.host.Safe) : ∀ l, Safe (evalEntries s l)
  | [] => by
    rw [evalEntries]
    exact safe_pure _
  | (k, e) :: rest => by
    rw [evalEntries]
    refine Safe.bind (safe_eval hs k) fun _ => Safe.bind (safe_eval hs e) fun _ => ?_
    exact Safe.bind (safe_evalEntries hs rest) fun _ => safe_pure _

theorem safe_evalChain (hs : s.host.Safe) (left : Value) : ∀ l, Safe (evalChain s left l)
  | [] => by
    rw [evalChain]
    exact safe_pure _
  | (op, e) :: rest => by
    rw [evalChain]
    refine Safe.bind (safe_eval hs e) fun right => Safe.bind (safe_compareOp _ _ _) fun b => ?_
    split
    · exact safe_evalChain hs right _
    · exact safe_pure _

theorem safe_evalArguments (hs : s.host.Safe) : ∀ l, Safe (evalArguments s l)
  | [] => by
    rw [evalArguments]
    exact safe_pure _
  | a :: rest => by
    rw [evalArguments]
    refine Safe.bind (safe_evalArgument hs a) fun _ => ?_
    exact Safe.bind (safe_evalArguments hs rest) fun _ => safe_pure _

theorem safe_evalArgument (hs : s.host.Safe) : ∀ a, Safe (evalArgument s a)
  | .positional e => by
    rw [evalArgument]
    exact Safe.bind (safe_eval hs e) fun _ => safe_pure _
  | .named n e => by
    rw [evalArgument]
    exact Safe.bind (safe_eval hs e) fun _ => safe_pure _
  | .spread e => by
    rw [evalArgument]
    exact Safe.bind (safe_eval hs e) fun _ => Safe.bind (safe_iterate _) fun _ => safe_pure _
  | .spreadNamed e => by
    rw [evalArgument]
    refine Safe.bind (safe_eval hs e) fun _ => ?_
    split
    · exact safe_pure _
    · exact gives_fault _

end

end Expr

end SheetTemplate
