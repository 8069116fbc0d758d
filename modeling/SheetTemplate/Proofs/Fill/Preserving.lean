import SheetTemplate.Proofs.Fill.Writing

namespace SheetTemplate

namespace FillM

variable {α β : Type} {I : FillState → Prop} {F : Failure → Prop}

structure Ends (I : FillState → Prop) (F : Failure → Prop) (p : Except Failure α × FillState) :
    Prop where
  ok : ∀ a, p.1 = .ok a → I p.2
  error : ∀ f, p.1 = .error f → F f

theorem ends_ok {a : α} {s : FillState} (hs : I s) : Ends I F (.ok a, s) :=
  ⟨fun _ _ => hs, fun _ h => nomatch h⟩

theorem ends_error {f : Failure} {s : FillState} (hf : F f) :
    Ends I F ((.error f, s) : Except Failure α × FillState) :=
  ⟨fun _ h => (nomatch h), fun _ h => Except.error.inj h ▸ hf⟩

def Preserves (I : FillState → Prop) (F : Failure → Prop) (m : FillM α) : Prop :=
  ∀ s, I s → Ends I F (exec m s)

theorem Preserves.ends {m : FillM α} (hm : Preserves I F m) {s t : FillState} {a : α} (hs : I s)
    (h : exec m s = (.ok a, t)) : I t := by
  have := (hm s hs).ok a (by rw [h])
  rwa [h] at this

theorem Preserves.fails {m : FillM α} (hm : Preserves I F m) {s t : FillState} {f : Failure}
    (hs : I s) (h : exec m s = (.error f, t)) : F f :=
  (hm s hs).error f (by rw [h])

theorem preserves_of_ok {m : FillM α} (h : ∀ s a t, I s → exec m s = (.ok a, t) → I t) :
    Preserves I (fun _ => True) m := by
  intro s hs
  rcases hm : exec m s with ⟨f | a, t⟩
  · exact ends_error trivial
  · exact ends_ok (h s a t hs hm)

theorem preserves_of_leads {R : FillState → FillState → Prop} {m : FillM α} (hm : Leads R m)
    (hR : ∀ s t, I s → R s t → I t) : Preserves I (fun _ => True) m :=
  preserves_of_ok fun s _ _ hs h => hR s _ hs (hm.apply h)

theorem preserves_pure (a : α) : Preserves I F (pure a) := fun _ hs => ends_ok hs

theorem preserves_throw {f : Failure} (hf : F f) : Preserves I F (throw f : FillM α) :=
  fun _ _ => ends_error hf

theorem preserves_get : Preserves I F get := fun _ hs => ends_ok hs

theorem preserves_modify {g : FillState → FillState} (hg : ∀ s, I s → I (g s)) :
    Preserves I F (modify g) := fun s hs => ends_ok (hg s hs)

theorem preserves_ofExcept {r : Except Failure α} (hr : ∀ f, r = .error f → F f) :
    Preserves I F (ofExcept r) := by
  cases r with
  | error f => exact preserves_throw (hr f rfl)
  | ok a => exact preserves_pure a

theorem Preserves.bind {m : FillM α} {f : α → FillM β} (hm : Preserves I F m)
    (hf : ∀ a, Preserves I F (f a)) : Preserves I F (m >>= f) := by
  intro s hs
  rw [exec_bind]
  rcases hx : exec m s with ⟨e | a, t⟩
  · exact ends_error (hm.fails hs hx)
  · exact hf a t (hm.ends hs hx)

theorem preserves_discard {m : FillM α} (hm : Preserves I F m) : Preserves I F (discard m) :=
  hm.bind fun _ => preserves_pure _

theorem preserves_forM {l : List α} {f : α → FillM Unit} (hf : ∀ a ∈ l, Preserves I F (f a)) :
    Preserves I F (l.forM f) := by
  induction l with
  | nil => exact preserves_pure ()
  | cons a l ih =>
    exact (hf a List.mem_cons_self).bind fun _ => ih fun b hb => hf b (List.mem_cons_of_mem a hb)

theorem Preserves.mapFailure {F' : Failure → Prop} {m : FillM α} (hm : Preserves I F m)
    {g : Failure → Failure} (hg : ∀ f, F f → F' (g f)) : Preserves I F' (mapFailure g m) := by
  intro s hs
  rw [exec_mapFailure]
  rcases hx : exec m s with ⟨f | a, t⟩
  · exact ends_error (hg f (hm.fails hs hx))
  · exact ends_ok (hm.ends hs hx)

theorem Preserves.tryCatch {F' : Failure → Prop} {m : FillM α}
    {g : Failure → FillM α} (hm : Preserves I F m)
    (hI : ∀ s f t, I s → exec m s = (.error f, t) → I t)
    (hg : ∀ f, F f → Preserves I F' (g f)) : Preserves I F' (tryCatch m g) := by
  intro s hs
  rw [exec_tryCatch]
  rcases hx : exec m s with ⟨f | a, t⟩
  · exact hg f (hm.fails hs hx) t (hI s f t hs hx)
  · exact ends_ok (hm.ends hs hx)

theorem Preserves.ensuring {m : FillM α} (hm : Preserves I F m) {g : FillState → FillState}
    (hg : ∀ s, I s → I (g s)) : Preserves I F (ensuring m g) := by
  intro s hs
  rw [exec_ensuring]
  rcases hx : exec m s with ⟨f | a, t⟩
  · exact ends_error (hm.fails hs hx)
  · exact ends_ok (hg t (hm.ends hs hx))

theorem Preserves.binding {m : FillM α} (hm : Preserves I F m)
    (hI : ∀ s c, I s → I { s with context := c }) (name : String) (index? : Option String)
    (item : Value) (index : Option Value) : Preserves I F (binding name index? item index m) :=
  preserves_get.bind fun _ => (preserves_modify fun s hs => hI s _ hs).bind fun _ =>
    hm.ensuring fun s hs => hI s _ hs

end FillM

end SheetTemplate
