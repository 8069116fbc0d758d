import SheetTemplate.Proofs.Fill.Meaning

namespace SheetTemplate

namespace FillM

variable {α β : Type} {m : FillM α} {k : α → FillM β} {s t : FillState} {f : Failure} {a : α}

def Fails (m : FillM α) (s : FillState) (f : Failure) : Prop := (exec m s).1 = .error f

instance : Decidable (Fails m s f) :=
  match h : (exec m s).1 with
  | .error g => decidable_of_iff (g = f) (by rw [Fails, h, Except.error.injEq])
  | .ok _ => .isFalse (by rw [Fails, h]; exact nofun)

theorem Fails.bind (h : Fails m s f) : Fails (m >>= k) s f := by
  rw [Fails, exec_bind]
  rcases hm : exec m s with ⟨e | a, t⟩
  · rw [Fails, hm] at h
    cases h
    rfl
  · rw [Fails, hm] at h
    cases h

theorem Fails.after (hm : exec m s = (.ok a, t)) (hk : Fails (k a) t f) : Fails (m >>= k) s f := by
  rw [Fails, exec_bind, hm]
  exact hk

theorem Fails.mapFailure (h : Fails m s f) (g : Failure → Failure) :
    Fails (FillM.mapFailure g m) s (g f) := by
  rw [Fails, exec_mapFailure]
  dsimp only
  rw [show (exec m s).1 = _ from h]
  rfl

def turned (name : String) (index? : Option String) (item : Value) (index : Option Value)
    (s : FillState) : FillState :=
  { s with context := (Guard.open s.context name index?).set s.context item index }

theorem Fails.binding {name : String} {index? : Option String} {item : Value}
    {index : Option Value} (h : Fails m (turned name index? item index s) f) :
    Fails (FillM.binding name index? item index m) s f := by
  rw [Fails, exec_binding]
  exact h

theorem Fails.forM {l before after : List β} {c : β} {p : β → FillM Unit}
    (hl : l = before ++ c :: after) (hbefore : exec (before.forM p) s = (.ok (), t))
    (h : Fails (p c) t f) : Fails (l.forM p) s f := by
  subst hl
  induction before generalizing s with
  | nil =>
    cases hbefore
    exact h.bind
  | cons b rest ih =>
    obtain ⟨_, u, hb, hrest⟩ := bind_eq_ok.1 hbefore
    exact Fails.after hb (ih hrest)

end FillM

end SheetTemplate
