import Mathlib.Order.Defs.Unbundled
import SheetTemplate.Fill.State

namespace SheetTemplate.FillM

variable {α β : Type}

def exec (m : FillM α) (s : FillState) : Except Failure α × FillState := m.run s

@[simp] theorem exec_pure (a : α) (s : FillState) : exec (pure a) s = (.ok a, s) := rfl

@[simp] theorem exec_modify (f : FillState → FillState) (s : FillState) :
    exec (modify f) s = (.ok (), f s) := rfl

@[simp] theorem exec_get (s : FillState) : exec get s = (.ok s, s) := rfl

theorem exec_bind (m : FillM α) (f : α → FillM β) (s : FillState) :
    exec (m >>= f) s = match exec m s with
      | (.ok a, t) => exec (f a) t
      | (.error e, t) => (.error e, t) := by
  simp only [exec, ExceptT.run, bind, ExceptT.bind, ExceptT.mk, StateT.bind]
  rcases m s with ⟨r | r, t⟩ <;> rfl

theorem bind_eq_ok {m : FillM α} {f : α → FillM β} {s t : FillState} {b : β} :
    exec (m >>= f) s = (.ok b, t) ↔ ∃ a u, exec m s = (.ok a, u) ∧ exec (f a) u = (.ok b, t) := by
  rw [exec_bind]
  constructor
  · intro h
    rcases hm : exec m s with ⟨e | a, u⟩
    · simp [hm] at h
    · exact ⟨a, u, rfl, by simpa [hm] using h⟩
  · rintro ⟨a, u, hm, hf⟩
    rw [hm]
    exact hf

theorem eq_ok_of_toOption {ε σ : Type} {p : Except ε α × σ} {a : α}
    (h : p.1.toOption = some a) : p = (.ok a, p.2) := by
  rcases p with ⟨e | b, t⟩
  · cases h
  · cases h
    rfl

theorem exec_tryCatch (m : FillM α) (g : Failure → FillM α) (s : FillState) :
    exec (tryCatch m g) s = match exec m s with
      | (.ok a, t) => (.ok a, t)
      | (.error e, t) => exec (g e) t := by
  simp only [exec, ExceptT.run, tryCatch, tryCatchThe, MonadExceptOf.tryCatch, ExceptT.tryCatch,
    ExceptT.mk, bind, StateT.bind]
  rcases m s with ⟨r | r, t⟩ <;> rfl

theorem exec_mapFailure (g : Failure → Failure) (m : FillM α) (s : FillState) :
    exec (mapFailure g m) s = ((exec m s).1.mapError g, (exec m s).2) := by
  rw [mapFailure, exec_tryCatch]
  rcases exec m s with ⟨r | r, t⟩ <;> rfl

theorem mapFailure_eq_ok {g : Failure → Failure} {m : FillM α} {s t : FillState} {a : α} :
    exec (mapFailure g m) s = (.ok a, t) ↔ exec m s = (.ok a, t) := by
  rw [exec_mapFailure]
  rcases exec m s with ⟨e | b, u⟩
  · constructor
    · intro h
      cases h
    · intro h
      cases h
  · exact Iff.rfl

theorem exec_ensuring (m : FillM α) (g : FillState → FillState) (s : FillState) :
    exec (ensuring m g) s = ((exec m s).1, g (exec m s).2) := by
  simp only [exec, ensuring, ExceptT.run]
  rcases m s with ⟨r | r, t⟩ <;> rfl

theorem exec_eval (m : EvalM α) (s : FillState) :
    exec (eval m) s = ((m.run s.streams).1, { s with streams := (m.run s.streams).2 }) := rfl

theorem exec_ofExcept (r : Except Failure α) (s : FillState) : exec (ofExcept r) s = (r, s) := by
  cases r <;> rfl

theorem ofExcept_eq_ok {r : Except Failure α} {s t : FillState} {a : α} :
    exec (ofExcept r) s = (.ok a, t) ↔ r = .ok a ∧ s = t := by
  rw [exec_ofExcept, Prod.mk.injEq]

theorem exec_binding (name : String) (index? : Option String) (item : Value)
    (index : Option Value) (m : FillM α) (s : FillState) :
    exec (binding name index? item index m) s =
      let g := Guard.open s.context name index?
      let r := exec m { s with context := g.set s.context item index }
      (r.1, { r.2 with context := (g.close r.2.context).2 }) := by
  simp only [binding, exec_bind, exec_get, onContext, exec_modify, exec_ensuring]

theorem binding_eq_ok {name : String} {index? : Option String} {item : Value}
    {index : Option Value} {m : FillM α} {s t : FillState} {a : α}
    (h : exec (binding name index? item index m) s = (.ok a, t)) :
    ∃ u, exec m { s with context := (Guard.open s.context name index?).set s.context item index } =
        (.ok a, u) ∧
      t = { u with context := ((Guard.open s.context name index?).close u.context).2 } := by
  rw [exec_binding] at h
  simp only [Prod.mk.injEq] at h
  exact ⟨_, Prod.ext h.1 rfl, h.2.symm⟩

def Leads (R : FillState → FillState → Prop) (m : FillM α) : Prop := ∀ s, R s (exec m s).2

variable {R : FillState → FillState → Prop}

theorem Leads.apply {m : FillM α} (hm : Leads R m) {s t : FillState} {r : Except Failure α}
    (h : exec m s = (r, t)) : R s t := by
  have := hm s
  rwa [h] at this

theorem Leads.mono {R' : FillState → FillState → Prop} {m : FillM α} (hm : Leads R m)
    (h : ∀ s t, R s t → R' s t) : Leads R' m := fun s => h _ _ (hm s)

theorem leads_modify {f : FillState → FillState} (hf : ∀ s, R s (f s)) : Leads R (modify f) := hf

theorem leads_eval (m : EvalM α) (hR : ∀ s x, R s { s with streams := x }) : Leads R (eval m) :=
  fun s => hR s _

theorem Leads.mapFailure {m : FillM α} (hm : Leads R m) (g : Failure → Failure) :
    Leads R (mapFailure g m) := by
  intro s
  rw [exec_mapFailure]
  exact hm s

variable [IsPreorder FillState R]

theorem leads_pure (a : α) : Leads R (pure a) := fun s => refl_of R s

theorem leads_throw (f : Failure) : Leads R (throw f : FillM α) := fun s => refl_of R s

theorem leads_get : Leads R get := fun s => refl_of R s

theorem Leads.bind {m : FillM α} {f : α → FillM β} (hm : Leads R m) (hf : ∀ a, Leads R (f a)) :
    Leads R (m >>= f) := by
  intro s
  rw [exec_bind]
  have h := hm s
  rcases hx : exec m s with ⟨e | a, t⟩
  · simpa [hx] using h
  · exact trans_of R (by simpa [hx] using h) (hf a t)

theorem leads_discard {m : FillM α} (hm : Leads R m) : Leads R (discard m) :=
  hm.bind fun _ => leads_pure _

theorem Leads.tryCatch {m : FillM α} {g : Failure → FillM α} (hm : Leads R m)
    (hg : ∀ f, Leads R (g f)) : Leads R (tryCatch m g) := by
  intro s
  rw [exec_tryCatch]
  have h := hm s
  rcases hx : exec m s with ⟨e | a, t⟩
  · exact trans_of R (by simpa [hx] using h) (hg e t)
  · simpa [hx] using h

theorem leads_ofExcept (r : Except Failure α) : Leads R (ofExcept r) := by
  intro s
  rw [exec_ofExcept]
  exact refl_of R s

theorem leads_forM {l : List α} {f : α → FillM Unit} (hf : ∀ a ∈ l, Leads R (f a)) :
    Leads R (l.forM f) := by
  induction l with
  | nil => exact leads_pure ()
  | cons a l ih =>
    exact (hf a List.mem_cons_self).bind fun _ => ih fun b hb => hf b (List.mem_cons_of_mem a hb)

theorem Leads.binding {m : FillM α} (hm : Leads R m) (hR : ∀ s c, R s { s with context := c })
    (name : String) (index? : Option String) (item : Value) (index : Option Value) :
    Leads R (binding name index? item index m) := by
  intro s
  rw [exec_binding]
  exact trans_of R (trans_of R (hR s _) (hm _)) (hR _ _)

def Yields (R : FillState → FillState → Prop) (m : FillM α) : Prop :=
  ∀ s a t, exec m s = (.ok a, t) → R s t

omit [IsPreorder FillState R] in
theorem Leads.yields {m : FillM α} (hm : Leads R m) : Yields R m := fun _ _ _ h => hm.apply h

theorem Yields.bind {m : FillM α} {f : α → FillM β} (hm : Yields R m) (hf : ∀ a, Yields R (f a)) :
    Yields R (m >>= f) := by
  intro s b t h
  obtain ⟨a, u, hu, ht⟩ := bind_eq_ok.1 h
  exact trans_of R (hm s a u hu) (hf a u b t ht)

theorem yields_forM {l : List α} {f : α → FillM Unit} (hf : ∀ a ∈ l, Yields R (f a)) :
    Yields R (l.forM f) := by
  induction l with
  | nil => exact (leads_pure ()).yields
  | cons a l ih =>
    exact (hf a List.mem_cons_self).bind fun _ => ih fun b hb => hf b (List.mem_cons_of_mem a hb)

end SheetTemplate.FillM
