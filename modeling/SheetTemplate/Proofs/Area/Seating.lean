import SheetTemplate.Proofs.Area.Forest
import SheetTemplate.Proofs.Area.Steps

namespace SheetTemplate

open FillM

theorem exists_of_forall₂ {α β : Type} {R : α → β → Prop} {l : List α} {l' : List β} {b : β}
    (h : List.Forall₂ R l l') (hb : b ∈ l') : ∃ a ∈ l, R a b := by
  induction h with
  | nil => cases hb
  | cons hab _ ih =>
    rcases List.mem_cons.1 hb with rfl | hb
    · exact ⟨_, List.mem_cons_self, hab⟩
    · obtain ⟨a, ha, hR⟩ := ih hb
      exact ⟨a, List.mem_cons_of_mem _ ha, hR⟩

namespace Area

structure Seated (a : Area) : Prop where
  width : 0 < a.size.width
  height : 0 < a.size.height
  starts : ∀ b ∈ a.bindings, a.size.Holds a.start b.start

variable {P : Command → Prop}

-- By induction on the tree; the walk passes the area before what is bound in it.
mutual

theorem regular_of_walk (hP : ∀ c, P c → c.IsPlain) : ∀ (a : Area) (depth : Nat),
    (∀ x ∈ a.walk depth, x.1.Seated) → a.Uses P → a.Regular
  | ⟨start, size, bindings, _, _⟩, depth, hwalk, ha => by
    rw [walk, List.forall_mem_cons] at hwalk
    obtain ⟨⟨hw, hh, hstarts⟩, hwalk⟩ := hwalk
    exact ⟨hw, hh, regularBindings_of_walk hP bindings (depth + 1) hstarts hwalk ha⟩

theorem regularBindings_of_walk {start : CellRef} {size : Size} (hP : ∀ c, P c → c.IsPlain) :
    ∀ (bindings : List Binding) (depth : Nat), (∀ b ∈ bindings, size.Holds start b.start) →
      (∀ x ∈ walkBindings depth bindings, x.1.Seated) → UsesIn P bindings →
        RegularBindings start size bindings
  | [], _, _, _, _ => trivial
  | ⟨_, _, _, areas⟩ :: rest, depth, hstarts, hwalk, ⟨hc, hareas, hrest⟩ => by
    rw [List.forall_mem_cons] at hstarts
    rw [walkBindings, List.forall_mem_append] at hwalk
    exact ⟨hstarts.1, hP _ hc, allRegular_of_walk hP areas depth hwalk.1 hareas,
      regularBindings_of_walk hP rest depth hstarts.2 hwalk.2 hrest⟩

theorem allRegular_of_walk (hP : ∀ c, P c → c.IsPlain) : ∀ (areas : List Area) (depth : Nat),
    (∀ x ∈ walkAll depth areas, x.1.Seated) → UsesAll P areas → AllRegular areas
  | [], _, _, _ => trivial
  | a :: rest, depth, hwalk, ⟨ha, hrest⟩ => by
    rw [walkAll, List.forall_mem_append] at hwalk
    exact ⟨regular_of_walk hP a depth hwalk.1 ha, allRegular_of_walk hP rest depth hwalk.2 hrest⟩

end

end Area

theorem Plan.Depicts.starts {p : Plan} {n : Parent} {a : Area} (hp : p.Complete)
    (h : p.Depicts n a) : ∀ b ∈ a.bindings, a.size.Holds a.start b.start := by
  intro b hb
  obtain ⟨c, hc, -, hstart, -⟩ := exists_of_forall₂ h.bindings hb
  obtain ⟨-, area, hparent, -⟩ := (mem_children hp).1 ((List.mergeSort_perm _ _).mem_iff.1 hc)
  have hcontains := contains_iff.1 (parent?_cases hparent).1
  rw [h.area_eq hparent] at hcontains
  exact hstart ▸ hcontains

namespace FillM

variable {r : Registry} {listeners : List Nat} {s t : FillState} {roots : List Area}

theorem buildAreas_regular {P : Command → Prop} (hP : ∀ c, P c → c.IsPlain)
    (h : exec (buildAreas r listeners) s = (.ok roots, t))
    (hsize : ∀ x ∈ roots.flatMap (Area.walk 0), 0 < x.1.size.width ∧ 0 < x.1.size.height)
    (huses : ∀ a ∈ roots, a.Uses P) : ∀ a ∈ roots, a.Regular := by
  obtain ⟨p, hplan, rfl⟩ := buildAreas_eq_ok.1 h
  have hp := (planAreas_ok hplan).1
  intro a ha
  refine a.regular_of_walk hP 0 (fun x hx => ?_) (huses a ha)
  have hmem := List.mem_flatMap.2 ⟨a, ha, hx⟩
  obtain ⟨n, -, hn⟩ := exists_of_forall₂ (Plan.depicts_forest hp listeners) hmem
  exact ⟨(hsize x hmem).1, (hsize x hmem).2, hn.starts hp⟩

end FillM

end SheetTemplate
