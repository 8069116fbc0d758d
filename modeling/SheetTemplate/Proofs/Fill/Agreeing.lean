import Mathlib.Data.List.Forall2
import SheetTemplate.Proofs.Fill.Outcome

namespace SheetTemplate.FillM

variable {α β γ δ : Type} {Good : FillState → Prop} {R : FillState → FillState → Prop}

def Spoils (Good : FillState → Prop) (s t : FillState) : Prop := Good t → Good s

instance (Good : FillState → Prop) : IsPreorder FillState (Spoils Good) where
  refl _ h := h
  trans _ _ _ hst htu h := hst (htu h)

def Agree (Good : FillState → Prop) (R : FillState → FillState → Prop) (Q : α → β → Prop)
    (m : FillM α) (m' : FillM β) : Prop :=
  ∀ s s' a a' t t', R s s' → exec m s = (.ok a, t) → exec m' s' = (.ok a', t') → Good t →
    R t t' ∧ Q a a'

abbrev AgreeOn (Good : FillState → Prop) (R : FillState → FillState → Prop) (m : FillM α)
    (m' : FillM β) : Prop :=
  Agree Good R (fun _ _ => True) m m'

theorem agree_pure {Q : α → β → Prop} {a : α} {b : β} (h : Q a b) :
    Agree Good R Q (pure a) (pure b) := by
  intro s s' x x' t t' hR hx hx' _
  cases hx
  cases hx'
  exact ⟨hR, h⟩

theorem agree_throw {Q : α → β → Prop} (f : Failure) (m : FillM β) :
    Agree Good R Q (throw f : FillM α) m := by
  intro s s' x x' t t' _ hx
  cases hx

theorem Agree.mono {Q Q' : α → β → Prop} {m : FillM α} {m' : FillM β}
    (h : Agree Good R Q m m') (hQ : ∀ a b, Q a b → Q' a b) : Agree Good R Q' m m' := by
  intro s s' a a' t t' hR hm hm' hg
  obtain ⟨hR, hq⟩ := h s s' a a' t t' hR hm hm' hg
  exact ⟨hR, hQ a a' hq⟩

theorem leads_spoils_true (m : FillM α) : Leads (Spoils fun _ => True) m := fun _ _ => trivial

theorem Agree.ends {Q : α → β → Prop} {m : FillM α} {m' : FillM β}
    (h : Agree (fun _ => True) R Q m m') {s s' t t' : FillState} {a : α} {b : β} (hR : R s s')
    (hm : exec m s = (.ok a, t)) (hm' : exec m' s' = (.ok b, t')) : R t t' ∧ Q a b :=
  h s s' a b t t' hR hm hm' trivial

theorem Agree.of_true {Q : α → β → Prop} {m : FillM α} {m' : FillM β}
    (h : Agree (fun _ => True) R Q m m') : Agree Good R Q m m' :=
  fun s s' a a' t t' hR hm hm' _ => h s s' a a' t t' hR hm hm' trivial

theorem Agree.bind {Q : α → β → Prop} {Q' : γ → δ → Prop} {m : FillM α} {m' : FillM β}
    {f : α → FillM γ} {f' : β → FillM δ} (h : Agree Good R Q m m')
    (hf : ∀ a b, Q a b → Agree Good R Q' (f a) (f' b)) (hs : ∀ a, Leads (Spoils Good) (f a)) :
    Agree Good R Q' (m >>= f) (m' >>= f') := by
  intro s s' c c' t t' hR hm hm' hg
  obtain ⟨a, u, hm, hfa⟩ := bind_eq_ok.1 hm
  obtain ⟨b, u', hm', hfb⟩ := bind_eq_ok.1 hm'
  have hu := (hs a).apply hfa hg
  obtain ⟨hR, hq⟩ := h s s' a b u u' hR hm hm' hu
  exact hf a b hq u u' c c' t t' hR hfa hfb hg

theorem Agree.mapFailure {Q : α → β → Prop} {m : FillM α} {m' : FillM β}
    (h : Agree Good R Q m m') (g g' : Failure → Failure) :
    Agree Good R Q (mapFailure g m) (mapFailure g' m') := by
  intro s s' a a' t t' hR hm hm' hg
  exact h s s' a a' t t' hR (mapFailure_eq_ok.1 hm) (mapFailure_eq_ok.1 hm') hg

theorem agree_forM {l : List α} {l' : List β} {f : α → FillM Unit} {f' : β → FillM Unit}
    (h : List.Forall₂ (fun a b => AgreeOn Good R (f a) (f' b)) l l')
    (hs : ∀ a, Leads (Spoils Good) (f a)) : AgreeOn Good R (l.forM f) (l'.forM f') := by
  induction h with
  | nil => exact agree_pure trivial
  | cons hab _ ih =>
    exact hab.bind (fun _ _ _ => ih) fun _ => leads_forM fun a _ => hs a

end SheetTemplate.FillM
