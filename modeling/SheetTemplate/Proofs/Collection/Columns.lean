import SheetTemplate.Proofs.Collection.Dating

namespace SheetTemplate

open Number Outcomes Sorting Value

namespace Value

variable {V : Value → Prop}

theorem harmonious_of_numbers
    (h : ∀ v, V v → v = null ∨ ∃ x, v.orderNumber? = some x ∧ x ≠ .nan) : Harmonious V := by
  constructor
  · intro a b d _ _ hd _ _ hnan
    rcases h d hd with rfl | ⟨x, hx, hne⟩
    · cases hnan
    · rw [hx] at hnan
      exact absurd (Option.some.inj hnan) hne
  · intro a b d _ _ hd _ _ hnull hnone
    rcases h d hd with rfl | ⟨x, hx, -⟩
    · exact absurd rfl hnull
    · rw [hx] at hnone
      cases hnone

theorem harmonious_of_texts (h : ∀ v, V v → v.orderNumber? = none) : Harmonious V := by
  have hno : ∀ v, V v → ¬ v.orderNumber?.isSome := by
    intro v hv
    rw [h v hv]
    exact Bool.false_ne_true
  exact ⟨fun a _ _ ha _ _ hx => absurd hx (hno a ha), fun a _ _ ha _ _ hx => absurd hx (hno a ha)⟩

def NotAfter (a b : Value) : Prop := ∃ n, a.compareKeys b = .ok n ∧ n ≤ 0

theorem notAfter_iff {a b : Value} (ha : a.isKey) (hb : b.isKey) :
    NotAfter a b ↔ standing a b ≤ 0 := by
  unfold NotAfter
  rw [compareKeys_of_isKey ha hb]
  constructor
  · rintro ⟨n, hn, hle⟩
    cases hn
    exact hle
  · exact fun hle => ⟨_, rfl, hle⟩

theorem notAfter_trans_iff (hV : ∀ v, V v → v.isKey) :
    (∀ a b d, V a → V b → V d → NotAfter a b → NotAfter b d → NotAfter a d) ↔ Harmonious V := by
  rw [← ranks_iff_harmonious]
  constructor
  · intro h
    refine ⟨fun a b _ _ => standing_flip a b, fun a b d ha hb hd hab hbd => ?_⟩
    rw [← notAfter_iff (hV a ha) (hV b hb)] at hab
    rw [← notAfter_iff (hV b hb) (hV d hd)] at hbd
    exact (notAfter_iff (hV a ha) (hV d hd)).1 (h a b d ha hb hd hab hbd)
  · intro h a b d ha hb hd hab hbd
    rw [notAfter_iff (hV a ha) (hV b hb)] at hab
    rw [notAfter_iff (hV b hb) (hV d hd)] at hbd
    exact (notAfter_iff (hV a ha) (hV d hd)).2 (h.trans a b d ha hb hd hab hbd)

end Value

namespace OrderSpec

def Column (items : List Value) (field : String) (v : Value) : Prop := ∃ x ∈ items, x.field field = v

def standingAt (spec : OrderSpec) (a b : Value) : Int :=
  let r := (a.field spec.field).standing (b.field spec.field)
  if spec.descending then -r else r

def standing : List OrderSpec → Value → Value → Int
  | [], _, _ => 0
  | spec :: rest, a, b => if spec.standingAt a b = 0 then standing rest a b else spec.standingAt a b

variable {specs : List OrderSpec} {spec : OrderSpec} {items r : List Value} {a b : Value} {n : Int}

theorem compareItems_cons (spec : OrderSpec) (rest : List OrderSpec) (a b : Value) :
    compareItems (spec :: rest) a b =
      (a.field spec.field).compareKeys (b.field spec.field) >>= fun r =>
        if (if spec.descending then -r else r) = 0 then compareItems rest a b
        else .ok (if spec.descending then -r else r) := rfl

theorem compareItems_ok
    (hdated : ∀ spec ∈ specs, (a.field spec.field).dated ∧ (b.field spec.field).dated)
    (h : compareItems specs a b = .ok n) : n = standing specs a b := by
  induction specs with
  | nil => exact (Except.ok.inj h).symm
  | cons spec rest ih =>
    obtain ⟨⟨ha, hb⟩, hrest⟩ := List.forall_mem_cons.1 hdated
    rw [compareItems_cons] at h
    obtain ⟨r, hr, h⟩ := bind_eq_ok.1 h
    have hat : (if spec.descending then -r else r) = spec.standingAt a b := by
      rw [compareKeys_ok ha hb hr]
      rfl
    rw [hat] at h
    rw [standing]
    split_ifs at h ⊢
    · exact ih hrest h
    · exact (Except.ok.inj h).symm

theorem compareItems_of_isKey
    (hkeys : ∀ spec ∈ specs, (a.field spec.field).isKey ∧ (b.field spec.field).isKey) :
    compareItems specs a b = .ok (standing specs a b) := by
  induction specs with
  | nil => rfl
  | cons spec rest ih =>
    obtain ⟨⟨ha, hb⟩, hrest⟩ := List.forall_mem_cons.1 hkeys
    rw [compareItems_cons, compareKeys_of_isKey ha hb, ih hrest, standing]
    exact (apply_ite Except.ok _ _ _).symm

theorem ranks_standing (h : ∀ spec ∈ specs, Harmonious (Column items spec.field)) :
    Ranks (standing specs) (· ∈ items) := by
  induction specs with
  | nil => exact ⟨fun _ _ _ _ => rfl, fun _ _ _ _ _ _ _ _ => Int.le_refl 0⟩
  | cons spec rest ih =>
    obtain ⟨hspec, hrest⟩ := List.forall_mem_cons.1 h
    have hcolumn : Ranks (fun x y => (x.field spec.field).standing (y.field spec.field)) (· ∈ items) :=
      (ranks_iff_harmonious.2 hspec).comap fun x hx => ⟨x, hx, rfl⟩
    have hat : Ranks spec.standingAt (· ∈ items) := by
      unfold standingAt
      cases spec.descending with
      | true => exact hcolumn.neg
      | false => exact hcolumn
    exact hat.lex (ih hrest)

def less (specs : List OrderSpec) (a b : Value) : Except Fault Bool := do
  .ok (decide ((← compareItems specs a b) < 0))

theorem sortItems_eq (specs : List OrderSpec) (items : List Value) :
    sortItems specs items = if specs.isEmpty || items.length ≤ 1 then .ok items
      else Sorting.sort (less specs) items := rfl

theorem sortItems_perm (h : sortItems specs items = .ok r) : r.Perm items := by
  rw [sortItems_eq] at h
  split at h
  · cases h
    exact .refl items
  · exact sort_perm h

theorem sortItems_stable (hcolumns : ∀ spec ∈ specs, Harmonious (Column items spec.field))
    (hdated : ∀ spec ∈ specs, ∀ x ∈ items, (x.field spec.field).dated)
    (h : sortItems specs items = .ok r) : Stable (standing specs) (· ∈ items) items r := by
  rw [sortItems_eq] at h
  split at h
  · next hshort =>
    cases h
    refine .of_pairwise ?_
    rcases Bool.or_eq_true_iff.1 hshort with hnone | hone
    · rw [List.isEmpty_iff.1 hnone]
      exact List.pairwise_of_forall fun _ _ => Int.le_refl 0
    · rcases items with _ | ⟨x, _ | ⟨y, items⟩⟩
      · exact .nil
      · exact List.pairwise_singleton _ x
      · simp at hone
  · refine sort_stable (ranks_standing hcolumns) (fun a b v ha hb hv => ?_) (fun _ hx => hx) h
    obtain ⟨n, hn, hv⟩ := bind_eq_ok.1 hv
    cases hv
    rw [compareItems_ok (fun spec hspec => ⟨hdated spec hspec a ha, hdated spec hspec b hb⟩) hn]

theorem sortItems_of_isKey (hkeys : ∀ spec ∈ specs, ∀ x ∈ items, (x.field spec.field).isKey) :
    ∃ r, sortItems specs items = .ok r := by
  rw [sortItems_eq]
  split
  · exact ⟨_, rfl⟩
  · cases hsort : Sorting.sort (less specs) items with
    | ok r => exact ⟨r, rfl⟩
    | error f =>
      obtain ⟨a, ha, b, hb, hless⟩ := sort_error hsort
      rw [less, compareItems_of_isKey fun spec hspec => ⟨hkeys spec hspec a ha, hkeys spec hspec b hb⟩]
        at hless
      cases hless

def NotAfter (specs : List OrderSpec) (a b : Value) : Prop :=
  ∃ n, compareItems specs a b = .ok n ∧ n ≤ 0

/-- Comparing keys is antisymmetric, and it is transitive on the keys that can be ranked and on no
others; where it is so for each field, no item of a sorted list is to come before an earlier one. -/
theorem sortItems_ranked :
    (∀ a b : Value, a.isKey → b.isKey →
        ∃ n, a.compareKeys b = .ok n ∧ b.compareKeys a = .ok (-n)) ∧
      (∀ V : Value → Prop, (∀ v, V v → v.isKey) →
        ((∀ a b d, V a → V b → V d → a.NotAfter b → b.NotAfter d → a.NotAfter d) ↔ Harmonious V)) ∧
      ∀ specs items, (∀ spec ∈ specs, ∀ x ∈ items, (x.field spec.field).isKey) →
        ∃ r, sortItems specs items = .ok r ∧ r.Perm items ∧
          ((∀ spec ∈ specs, Harmonious (Column items spec.field)) →
            r.Pairwise (NotAfter specs)) := by
  refine ⟨fun a b ha hb => ?_, fun V hV => notAfter_trans_iff hV, fun specs items hkeys => ?_⟩
  · refine ⟨a.standing b, compareKeys_of_isKey ha hb, ?_⟩
    rw [compareKeys_of_isKey hb ha, standing_flip]
  · obtain ⟨r, hr⟩ := sortItems_of_isKey hkeys
    have hperm := sortItems_perm hr
    refine ⟨r, hr, hperm, fun hcolumns => ?_⟩
    have hstable := sortItems_stable hcolumns
      (fun spec hspec x hx => dated_of_isKey (hkeys spec hspec x hx)) hr
    refine hstable.ordered.imp_of_mem fun ha hb hab => ⟨_, compareItems_of_isKey ?_, hab⟩
    exact fun spec hspec => ⟨hkeys spec hspec _ (hperm.mem_iff.1 ha),
      hkeys spec hspec _ (hperm.mem_iff.1 hb)⟩

theorem sortItems_of_isChain
    (h : items.IsChain fun a b => ∃ n, compareItems specs b a = .ok n ∧ 0 ≤ n) :
    sortItems specs items = .ok items := by
  rw [sortItems_eq]
  split
  · rfl
  · refine sort_of_isChain (h.imp ?_)
    rintro a b ⟨n, hn, hle⟩
    rw [less, hn]
    exact congrArg Except.ok (decide_eq_false (by omega))

/-- A text between the texts of two numbers that stand the other way round: the three go in a ring,
and sorting leaves the larger number in front of the smaller. -/
theorem enclosed_text_unranked :
    let item (v : Value) : Value := .dict [(.text "k", v)]
    let items := [item (.int 10), item (.text "2"), item (.int 9)]
    (¬ ∀ a b d : Value, a.isKey → b.isKey → d.isKey → a.NotAfter b → b.NotAfter d → a.NotAfter d) ∧
      (∀ x ∈ items, (x.field "k").isKey) ∧ sortItems [⟨"k", false⟩] items = .ok items ∧
      ¬ items.Pairwise (NotAfter [⟨"k", false⟩]) := by
  intro item items
  have hfield : ∀ v, (item v).field "k" = v := fun v => field_entry (by decide) v []
  have hcompare : ∀ u v : Value, u.isKey → v.isKey →
      compareItems [⟨"k", false⟩] (item u) (item v) = .ok (u.standing v) := by
    intro u v hu hv
    rw [compareItems_of_isKey fun spec hspec => by
      rw [List.mem_singleton.1 hspec, hfield, hfield]
      exact ⟨hu, hv⟩]
    rw [standing, standingAt, hfield, hfield]
    change Except.ok (if u.standing v = 0 then 0 else u.standing v) = _
    split
    · next hzero => rw [hzero]
    · rfl
  have hfront : (Value.int 10).standing (.text "2") = -1 := by decide +kernel
  have hback : (Value.text "2").standing (.int 9) = -1 := by decide +kernel
  have hring : (Value.int 10).standing (.int 9) = 1 := by decide +kernel
  refine ⟨fun h => ?_, ?_, sortItems_of_isChain ?_, fun h => ?_⟩
  · have hle := h (.int 10) (.text "2") (.int 9) rfl rfl rfl
      ((notAfter_iff rfl rfl).2 (by rw [hfront]; decide))
      ((notAfter_iff rfl rfl).2 (by rw [hback]; decide))
    rw [notAfter_iff rfl rfl, hring] at hle
    exact absurd hle (by decide)
  · simp [items, hfield, isKey]
  · refine .cons_cons ⟨1, ?_, by decide⟩ (.cons_cons ⟨1, ?_, by decide⟩ (.singleton _))
    · rw [hcompare _ _ rfl rfl, standing_flip, hfront]
      rfl
    · rw [hcompare _ _ rfl rfl, standing_flip, hback]
      rfl
  · obtain ⟨n, hn, hle⟩ := List.rel_of_pairwise_cons h (show item (.int 9) ∈ items.tail by simp [items])
    rw [hcompare _ _ rfl rfl, hring] at hn
    cases hn
    exact absurd hle (by decide)

theorem numbers_ranked :
    let items := [Value.int 10, .null, .int 9].map fun v => Value.dict [(.text "k", v)]
    (∀ spec ∈ [⟨"k", false⟩], Harmonious (Column items (OrderSpec.field spec))) ∧
      ∃ r, sortItems [⟨"k", false⟩] items = .ok r ∧ r.Perm items ∧
        r.Pairwise (NotAfter [⟨"k", false⟩]) := by
  intro items
  have hcolumn : ∀ v, Column items "k" v → v = .int 10 ∨ v = .null ∨ v = .int 9 := by
    rintro v ⟨x, hx, rfl⟩
    obtain ⟨u, hu, rfl⟩ := List.mem_map.1 hx
    rw [field_entry (by decide)]
    simpa using hu
  have hkeys : ∀ spec ∈ [(⟨"k", false⟩ : OrderSpec)], ∀ x ∈ items, (x.field spec.field).isKey := by
    intro spec hspec x hx
    rw [List.mem_singleton.1 hspec]
    rcases hcolumn _ ⟨x, hx, rfl⟩ with h | h | h
    all_goals
      rw [h]
      rfl
  have hharmonious : ∀ spec ∈ [(⟨"k", false⟩ : OrderSpec)], Harmonious (Column items spec.field) := by
    intro spec hspec
    rw [List.mem_singleton.1 hspec]
    refine harmonious_of_numbers fun v hv => ?_
    rcases hcolumn v hv with rfl | rfl | rfl
    · exact .inr ⟨_, rfl, by decide⟩
    · exact .inl rfl
    · exact .inr ⟨_, rfl, by decide⟩
  obtain ⟨r, hr, hperm, hranked⟩ := sortItems_ranked.2.2 _ items hkeys
  exact ⟨hharmonious, r, hr, hperm, hranked hharmonious⟩

end OrderSpec

namespace Number.Extended

variable {x y : Extended}

theorem standing_neg (h : x.lt y = true) : standing x y < 0 := by
  rw [standing, h, lt_asymm h]
  decide

theorem standing_self (x : Extended) : standing x x = 0 := by
  unfold standing
  omega

theorem lt_trichotomy (hx : x ≠ .nan) (hy : y ≠ .nan) :
    x.lt y = true ∨ x = y ∨ y.lt x = true := by
  rcases x with _ | a | q <;> rcases y with _ | b | r <;>
    first | exact absurd rfl hx | exact absurd rfl hy | skip
  · revert a b
    decide
  · cases a <;> simp [lt]
  · cases b <;> simp [lt]
  · simpa [lt] using Std.lt_trichotomy q r

end Number.Extended

namespace Value

inductive Below : Value → Value → Prop
  | null {b : Value} (hb : b ≠ .null) : Below .null b
  | number {a b : Value} {x y : Extended} (ha : a.orderNumber? = some x)
      (hb : b.orderNumber? = some y) (hlt : x.lt y = true) : Below a b
  | text {a b : Value} {s t : String} (ha : a.text? = some s) (hb : b.text? = some t)
      (hlt : s < t) : Below a b

inductive Same : Value → Value → Prop
  | null : Same .null .null
  | number {a b : Value} {x : Extended} (ha : a.orderNumber? = some x)
      (hb : b.orderNumber? = some x) : Same a b
  | text {a b : Value} {s : String} (ha : a.text? = some s) (hb : b.text? = some s) : Same a b

/-- All keys but null are numbers, none of them none, or all are texts. -/
def Uniform (V : Value → Prop) : Prop :=
  (∀ v, V v → v = null ∨ ∃ x, v.orderNumber? = some x ∧ x ≠ .nan) ∨
    ∀ v, V v → v = null ∨ ∃ s, v.text? = some s

variable {V : Value → Prop} {a b : Value}

theorem Below.standing_neg (h : Below a b) : standing a b < 0 := by
  cases h with
  | null hb =>
    rw [standing_null_left hb]
    decide
  | number ha hb hlt =>
    rw [standing_numbers ha hb]
    exact Extended.standing_neg hlt
  | text ha hb hlt =>
    rw [standing_of_texts ha hb, ofTexts, if_pos hlt]
    decide

theorem Same.standing_eq (h : Same a b) : standing a b = 0 := by
  cases h with
  | null => rfl
  | number ha hb => rw [standing_numbers ha hb, Extended.standing_self]
  | text ha hb => rw [standing_of_texts ha hb, ofTexts_eq_zero.2 rfl]

theorem Uniform.trichotomy (h : Uniform V) (ha : V a) (hb : V b) :
    Below a b ∨ Same a b ∨ Below b a := by
  rcases h with h | h
  · rcases h a ha with rfl | ⟨x, hx, hxnan⟩ <;> rcases h b hb with rfl | ⟨y, hy, hynan⟩
    · exact .inr (.inl .null)
    · exact .inl (.null (ne_null_of_orderNumber? hy))
    · exact .inr (.inr (.null (ne_null_of_orderNumber? hx)))
    · rcases Extended.lt_trichotomy hxnan hynan with hlt | rfl | hlt
      · exact .inl (.number hx hy hlt)
      · exact .inr (.inl (.number hx hy))
      · exact .inr (.inr (.number hy hx hlt))
  · have hne : ∀ {v : Value} {s : String}, v.text? = some s → v ≠ null := by
      rintro v s hv rfl
      cases hv
    rcases h a ha with rfl | ⟨s, hs⟩ <;> rcases h b hb with rfl | ⟨t, ht⟩
    · exact .inr (.inl .null)
    · exact .inl (.null (hne ht))
    · exact .inr (.inr (.null (hne hs)))
    · rcases Std.lt_trichotomy s t with hlt | rfl | hlt
      · exact .inl (.text hs ht hlt)
      · exact .inr (.inl (.text hs ht))
      · exact .inr (.inr (.text ht hs hlt))

theorem Uniform.harmonious (h : Uniform V) : Harmonious V := by
  rcases h with h | h
  · exact harmonious_of_numbers h
  · refine harmonious_of_texts fun v hv => ?_
    rcases h v hv with rfl | ⟨s, hs⟩
    · rfl
    · rcases text?_cases hs with rfl | rfl <;> rfl

theorem Uniform.dated (h : Uniform V) (ha : V a) : a.dated := by
  rcases h with h | h
  · rcases h a ha with rfl | ⟨x, hx, -⟩
    · rfl
    · rcases orderNumber?_cases hx with ⟨_, rfl, -⟩ | ⟨_, rfl, -⟩ | ⟨_, rfl, -⟩ | ⟨_, rfl, -⟩ |
        ⟨_, rfl, -⟩ | ⟨_, rfl, -⟩ <;> rfl
  · rcases h a ha with rfl | ⟨s, hs⟩
    · rfl
    · rcases text?_cases hs with rfl | rfl <;> rfl

end Value

namespace OrderSpec

variable {specs : List OrderSpec} {spec : OrderSpec} {items r : List Value} {a b : Value}

def Before (spec : OrderSpec) (a b : Value) : Prop :=
  if spec.descending then Below (b.field spec.field) (a.field spec.field)
  else Below (a.field spec.field) (b.field spec.field)

/-- The first field in which two items differ puts them in this order. -/
def InOrder : List OrderSpec → Value → Value → Prop
  | [], _, _ => True
  | spec :: rest, a, b =>
    spec.Before a b ∨ (Same (a.field spec.field) (b.field spec.field) ∧ InOrder rest a b)

def Tied (specs : List OrderSpec) (a b : Value) : Prop :=
  ∀ spec ∈ specs, Same (a.field spec.field) (b.field spec.field)

theorem standingAt_eq_zero (h : Same (a.field spec.field) (b.field spec.field)) :
    spec.standingAt a b = 0 := by
  unfold standingAt
  rw [h.standing_eq]
  split <;> rfl

theorem standing_of_tied (h : Tied specs a b) : standing specs a b = 0 := by
  induction specs with
  | nil => rfl
  | cons spec rest ih =>
    obtain ⟨hspec, hrest⟩ := List.forall_mem_cons.1 h
    rw [standing, if_pos (standingAt_eq_zero hspec)]
    exact ih hrest

theorem standingAt_flip (spec : OrderSpec) (a b : Value) :
    spec.standingAt b a = -spec.standingAt a b := by
  unfold standingAt
  rw [Value.standing_flip (a.field spec.field)]
  split <;> rfl

theorem Before.standingAt_neg (h : spec.Before a b) : spec.standingAt a b < 0 := by
  unfold Before at h
  unfold standingAt
  cases hdesc : spec.descending with
  | true =>
    rw [hdesc, if_pos rfl] at h
    rw [if_pos rfl, ← Value.standing_flip]
    exact h.standing_neg
  | false =>
    rw [hdesc, if_neg Bool.false_ne_true] at h
    rw [if_neg Bool.false_ne_true]
    exact h.standing_neg

theorem before_trichotomy (h : Uniform (Column items spec.field)) (ha : a ∈ items) (hb : b ∈ items) :
    spec.Before a b ∨ Same (a.field spec.field) (b.field spec.field) ∨ spec.Before b a := by
  unfold Before
  rcases h.trichotomy ⟨a, ha, rfl⟩ ⟨b, hb, rfl⟩ with hbelow | hsame | hbelow
  · cases spec.descending with
    | true => exact .inr (.inr hbelow)
    | false => exact .inl hbelow
  · exact .inr (.inl hsame)
  · cases spec.descending with
    | true => exact .inl hbelow
    | false => exact .inr (.inr hbelow)

theorem inOrder_of_standing (hcolumns : ∀ spec ∈ specs, Uniform (Column items spec.field))
    (ha : a ∈ items) (hb : b ∈ items) (h : standing specs a b ≤ 0) : InOrder specs a b := by
  induction specs with
  | nil => trivial
  | cons spec rest ih =>
    obtain ⟨hspec, hrest⟩ := List.forall_mem_cons.1 hcolumns
    rw [standing] at h
    rcases before_trichotomy hspec ha hb with hbefore | hsame | hbefore
    · exact .inl hbefore
    · rw [if_pos (standingAt_eq_zero hsame)] at h
      exact .inr ⟨hsame, ih hrest h⟩
    · have hneg := hbefore.standingAt_neg
      rw [standingAt_flip spec a b] at hneg
      rw [if_neg (by omega)] at h
      omega

theorem sortItems_uniform (hcolumns : ∀ spec ∈ specs, Uniform (Column items spec.field))
    (h : sortItems specs items = .ok r) :
    r.Pairwise (InOrder specs) ∧ ∀ tied : List Value, tied.Sublist items →
      (∀ x ∈ tied, ∀ y ∈ tied, Tied specs x y) → tied.Sublist r := by
  have hperm := sortItems_perm h
  have hstable := sortItems_stable (fun spec hspec => (hcolumns spec hspec).harmonious)
    (fun spec hspec x hx => (hcolumns spec hspec).dated ⟨x, hx, rfl⟩) h
  constructor
  · refine hstable.ordered.imp_of_mem fun ha hb hab => ?_
    exact inOrder_of_standing hcolumns (hperm.mem_iff.1 ha) (hperm.mem_iff.1 hb) hab
  · intro tied hsub htied
    exact hstable.sublist (fun _ hx => hx) hsub fun x hx y hy => standing_of_tied (htied x hx y hy)

end OrderSpec

end SheetTemplate
