import Mathlib.Data.List.Induction
import Mathlib.Data.List.Nodup
import SheetTemplate.Proofs.Collection.Ranking

namespace SheetTemplate

open Outcomes Sorting Value

namespace Group

def keyText (field : String) (item : Value) : String := (item.field field).shown

/-- The groups part the items: each has all items of one key, and is shown by the first of them. -/
structure Partitions (field : String) (items : List Value) (groups : List Group) : Prop where
  covers : (groups.flatMap Group.members).Perm items
  first : ∀ g ∈ groups, g.members.head? = some g.item
  key : ∀ g ∈ groups, g.key = g.item.field field
  members : ∀ g ∈ groups, g.members = items.filter fun item => keyText field item = g.key.shown
  distinct : (groups.map fun g => g.key.shown).Nodup

variable {field : String} {items : List Value} {groups groups' : List Group} {key item : Value}

theorem Partitions.perm (h : Partitions field items groups) (hperm : groups'.Perm groups) :
    Partitions field items groups' :=
  ⟨(hperm.flatMap_right _).trans h.covers, fun g hg => h.first g (hperm.mem_iff.1 hg),
    fun g hg => h.key g (hperm.mem_iff.1 hg), fun g hg => h.members g (hperm.mem_iff.1 hg),
    (hperm.map _).nodup_iff.2 h.distinct⟩

theorem Partitions.together_iff (h : Partitions field items groups) {x y : Value} (hx : x ∈ items)
    (hy : y ∈ items) :
    (∃ g ∈ groups, x ∈ g.members ∧ y ∈ g.members) ↔ keyText field x = keyText field y := by
  have hmem : ∀ g ∈ groups, ∀ z ∈ items, z ∈ g.members ↔ keyText field z = g.key.shown := by
    intro g hg z hz
    rw [h.members g hg, List.mem_filter, decide_eq_true_eq]
    exact and_iff_right hz
  constructor
  · rintro ⟨g, hg, hxg, hyg⟩
    rw [(hmem g hg x hx).1 hxg, (hmem g hg y hy).1 hyg]
  · intro hsame
    obtain ⟨g, hg, hxg⟩ := List.mem_flatMap.1 (h.covers.mem_iff.2 hx)
    exact ⟨g, hg, hxg, (hmem g hg y hy).2 (hsame ▸ (hmem g hg x hx).1 hxg)⟩

theorem collect_append (field : String) (items : List Value) (item : Value) :
    collect field (items ++ [item]) = add (item.field field) item (collect field items) := by
  rw [collect, List.foldl_append]
  rfl

theorem add_of_mem (item : Value) (h : ∃ g ∈ groups, g.key.shown = key.shown) :
    ∃ front g back, groups = front ++ g :: back ∧ g.key.shown = key.shown ∧
      add key item groups = front ++ { g with members := g.members ++ [item] } :: back := by
  induction groups with
  | nil => simp at h
  | cons g groups ih =>
    by_cases hg : g.key.shown = key.shown
    · exact ⟨[], g, groups, rfl, hg, by rw [add, if_pos (beq_iff_eq.2 hg)]; rfl⟩
    · obtain ⟨g', hg', hsame⟩ := h
      have htail := (List.mem_cons.1 hg').resolve_left fun heq => hg (heq ▸ hsame)
      obtain ⟨front, g'', back, rfl, hfound, hadd⟩ := ih ⟨g', htail, hsame⟩
      refine ⟨g :: front, g'', back, rfl, hfound, ?_⟩
      rw [add, if_neg fun h => hg (beq_iff_eq.1 h), hadd]
      rfl

theorem add_of_not_mem (h : ∀ g ∈ groups, g.key.shown ≠ key.shown) :
    add key item groups = groups ++ [{ key := key, item := item, members := [item] }] := by
  induction groups with
  | nil => rfl
  | cons g groups ih =>
    rw [add, if_neg fun heq => h g List.mem_cons_self (beq_iff_eq.1 heq),
      ih fun g' hg' => h g' (List.mem_cons_of_mem g hg')]
    rfl

theorem filter_keyText (field : String) (item : Value) (s : String) :
    ([item].filter fun x => keyText field x = s) = if keyText field item = s then [item] else [] := by
  by_cases h : keyText field item = s <;> simp [h]

theorem Partitions.filter_append (h : Partitions field items groups) (item : Value) {g : Group}
    (hg : g ∈ groups) : ((items ++ [item]).filter fun x => keyText field x = g.key.shown) =
      g.members ++ if keyText field item = g.key.shown then [item] else [] := by
  rw [List.filter_append, ← h.members g hg, filter_keyText]

theorem Partitions.join {front back : List Group} {g : Group}
    (h : Partitions field items (front ++ g :: back)) (hg : g.key.shown = keyText field item) :
    Partitions field (items ++ [item])
      (front ++ { g with members := g.members ++ [item] } :: back) := by
  have hmid : g ∈ front ++ g :: back := by simp
  have hdistinct := h.distinct
  rw [List.map_append, List.map_cons, List.nodup_middle, List.nodup_cons, ← List.map_append]
    at hdistinct
  have hrest : ∀ g' ∈ front ++ back, g'.members =
      (items ++ [item]).filter fun x => keyText field x = g'.key.shown := by
    intro g' hg'
    have hne : keyText field item ≠ g'.key.shown := fun hsame =>
      hdistinct.1 (List.mem_map.2 ⟨g', hg', hsame ▸ hg.symm⟩)
    have hmem : g' ∈ front ++ g :: back := by
      rcases List.mem_append.1 hg' with hg' | hg' <;> simp [hg']
    rw [h.filter_append item hmem, if_neg hne, List.append_nil]
  have hfirst := h.first
  have hkey := h.key
  simp only [List.forall_mem_append, List.forall_mem_cons] at hfirst hkey hrest
  constructor
  · refine List.Perm.trans ?_ (h.covers.append_right [item])
    simp only [List.flatMap_append, List.flatMap_cons, List.append_assoc]
    exact List.Perm.append_left _ (List.Perm.append_left _ List.perm_append_comm)
  · simp only [List.forall_mem_append, List.forall_mem_cons]
    refine ⟨hfirst.1, ?_, hfirst.2.2⟩
    rw [List.head?_append, hfirst.2.1]
    rfl
  · simp only [List.forall_mem_append, List.forall_mem_cons]
    exact hkey
  · simp only [List.forall_mem_append, List.forall_mem_cons]
    refine ⟨hrest.1, ?_, hrest.2⟩
    rw [h.filter_append item hmid, if_pos hg.symm]
  · have hkeep := h.distinct
    rw [List.map_append, List.map_cons] at hkeep ⊢
    exact hkeep

theorem Partitions.begin (h : Partitions field items groups)
    (hnew : ∀ g ∈ groups, g.key.shown ≠ keyText field item) :
    Partitions field (items ++ [item])
      (groups ++ [{ key := item.field field, item := item, members := [item] }]) := by
  have hnone : (items.filter fun x => keyText field x = keyText field item) = [] := by
    refine List.filter_eq_nil_iff.2 fun x hx hsame => ?_
    obtain ⟨g, hg, hxg⟩ := List.mem_flatMap.1 (h.covers.mem_iff.2 hx)
    rw [h.members g hg, List.mem_filter, decide_eq_true_eq] at hxg
    exact hnew g hg (hxg.2.symm.trans (of_decide_eq_true hsame))
  constructor
  · rw [List.flatMap_append]
    exact h.covers.append_right [item]
  · exact List.forall_mem_append.2 ⟨h.first, List.forall_mem_singleton.2 rfl⟩
  · exact List.forall_mem_append.2 ⟨h.key, List.forall_mem_singleton.2 rfl⟩
  · refine List.forall_mem_append.2 ⟨fun g hg => ?_, List.forall_mem_singleton.2 ?_⟩
    · rw [h.filter_append item hg, if_neg (hnew g hg).symm, List.append_nil]
    · change [item] = (items ++ [item]).filter fun x => keyText field x = keyText field item
      rw [List.filter_append, hnone, filter_keyText, if_pos rfl, List.nil_append]
  · rw [List.map_append]
    refine List.nodup_append.2 ⟨h.distinct, List.nodup_singleton _, ?_⟩
    rintro _ hs _ ht rfl
    obtain ⟨g, hg, hsame⟩ := List.mem_map.1 hs
    exact hnew g hg (hsame.trans (List.mem_singleton.1 ht))

theorem eraseDups_append_singleton (l : List String) (s : String) :
    (l ++ [s]).eraseDups = l.eraseDups ++ if s ∈ l then [] else [s] := by
  rw [List.eraseDups_append]
  by_cases h : s ∈ l <;> simp [List.removeAll, List.eraseDups_cons, h]

theorem collect_partitions (field : String) (items : List Value) :
    Partitions field items (collect field items) ∧
      ((collect field items).map fun g => g.key.shown) = (items.map (keyText field)).eraseDups := by
  -- from the end of the list, as each item is put to the groups of those before it
  induction items using List.reverseRecOn with
  | nil => exact ⟨⟨.nil, nofun, nofun, nofun, .nil⟩, rfl⟩
  | append_singleton items item ih =>
    obtain ⟨hparts, htexts⟩ := ih
    have hseen_iff : keyText field item ∈ items.map (keyText field) ↔
        ∃ g ∈ collect field items, g.key.shown = keyText field item := by
      rw [← List.mem_eraseDups, ← htexts, List.mem_map]
    rw [collect_append, List.map_append, List.map_singleton, eraseDups_append_singleton, ← htexts]
    by_cases hseen : ∃ g ∈ collect field items, g.key.shown = keyText field item
    · obtain ⟨front, g, back, hgroups, hg, hadd⟩ := add_of_mem item hseen
      rw [hadd, if_pos (hseen_iff.2 hseen), List.append_nil]
      rw [hgroups] at hparts ⊢
      refine ⟨hparts.join hg, ?_⟩
      rw [List.map_append, List.map_append]
      rfl
    · have hnew : ∀ g ∈ collect field items, g.key.shown ≠ keyText field item :=
        fun g hg hsame => hseen ⟨g, hg, hsame⟩
      rw [add_of_not_mem hnew, if_neg fun h => hseen (hseen_iff.1 h)]
      refine ⟨hparts.begin hnew, ?_⟩
      rw [List.map_append]
      rfl

section Order

variable {o : Ordering} {a b : Group} {n : Int} {f : Fault} {seen : List Group}

def smallText (g : Group) : String := String.ofList (Text.lower g.key.shown.toList)

def rank (o : Ordering) (a b : Group) : Int :=
  if o.ignoreCase then ofTexts a.smallText b.smallText else a.key.standing b.key

theorem rank_flip (o : Ordering) (a b : Group) : rank o b a = -rank o a b := by
  unfold rank
  rw [ofTexts_flip a.smallText, Value.standing_flip a.key]
  split <;> rfl

theorem compareGroups_eq (o : Ordering) (a b : Group) :
    compareGroups o a b =
      (if o.ignoreCase then .ok (ofTexts a.smallText b.smallText) else a.key.compareKeys b.key) >>=
        fun r => .ok (if o.descending then -r else r) := by
  unfold compareGroups
  dsimp only
  split <;> rfl

theorem compareGroups_ok (h : compareGroups o a b = .ok n)
    (hdates : o.ignoreCase = false → sameDateKind a.key b.key = false) :
    n = if o.descending then -rank o a b else rank o a b := by
  rw [compareGroups_eq] at h
  obtain ⟨r, hr, h⟩ := bind_eq_ok.1 h
  have hrank : r = rank o a b := by
    unfold rank
    split at hr
    · next hcase =>
      rw [if_pos hcase]
      exact (Except.ok.inj hr).symm
    · next hcase =>
      rw [if_neg hcase]
      exact compareKeys_standing (hdates (Bool.eq_false_iff.2 hcase)) hr
  rw [← hrank]
  exact (Except.ok.inj h).symm

theorem compareGroups_error (h : compareGroups o a b = .error f) :
    o.ignoreCase = false ∧ Refused a.key b.key f := by
  rw [compareGroups_eq] at h
  rcases bind_eq_error.1 h with h | ⟨r, -, h⟩
  · split at h
    · cases h
    · next hcase => exact ⟨Bool.eq_false_iff.2 hcase, refused_of_compareKeys h⟩
  · cases h

def less (o : Ordering) (a b : Group) : Except Fault Bool := do
  .ok (decide ((← compareGroups o a b) < 0))

theorem ofItems_eq (items : List Value) (field order : String) :
    ofItems items field order = if order.isEmpty then .ok (collect field items)
      else Sorting.sort (less (.parse order)) (collect field items) := rfl

theorem less_error (h : less o a b = .error f) : o.ignoreCase = false ∧ Refused a.key b.key f := by
  rcases bind_eq_error.1 h with h | ⟨_, -, h⟩
  · exact compareGroups_error h
  · cases h

theorem ofItems_pair {x y : Value} {field order : String} (horder : order.isEmpty = false)
    (hkeys : keyText field x ≠ keyText field y)
    (hrefused : compareGroups (.parse order) ⟨y.field field, y, [y]⟩ ⟨x.field field, x, [x]⟩ =
      .error f) : ofItems [x, y] field order = .error f := by
  have hseen : collect field [x, y] =
      [⟨x.field field, x, [x]⟩, ⟨y.field field, y, [y]⟩] := by
    change add (y.field field) y [⟨x.field field, x, [x]⟩] = _
    refine add_of_not_mem fun g hg => ?_
    rw [List.mem_singleton.1 hg]
    exact hkeys
  rw [ofItems_eq, horder, hseen, if_neg Bool.false_ne_true, sort, firstRun, less, hrefused]
  rfl

theorem sort_groups {K : Type} [LinearOrder K] {key : Group → K}
    (hdates : ∀ a ∈ seen, ∀ b ∈ seen, o.ignoreCase = false → sameDateKind a.key b.key = false)
    (hkey : ∀ a ∈ seen, ∀ b ∈ seen, rank o a b ≤ 0 ↔ key a ≤ key b)
    (h : Sorting.sort (less o) seen = .ok groups) : OrderedBy key o.descending seen groups := by
  have hless : Follows (less o) (fun a b => if o.descending then -rank o a b else rank o a b)
      (· ∈ seen) := by
    intro a b v ha hb h
    obtain ⟨n, hn, h⟩ := bind_eq_ok.1 h
    cases h
    rw [compareGroups_ok hn (hdates a ha b hb)]
  refine sort_orderedBy (fun a b _ _ => ?_) (fun a b ha hb => ?_) hless (fun _ hg => hg) h
  · rw [rank_flip o a b]
    split <;> rfl
  · cases o.descending with
    | true => rw [if_pos rfl, if_pos rfl, ← rank_flip, hkey b hb a ha]
    | false => rw [if_neg Bool.false_ne_true, if_neg Bool.false_ne_true, hkey a ha b hb]

/-- The groups in the order that is asked for: by their keys where these are all whole numbers or all
texts, or by the small letters of their keys; groups that are level stay as they were. -/
structure Sorted (o : Ordering) (seen groups : List Group) : Prop where
  integers : o.ignoreCase = false → ∀ key : Group → Int,
    (∀ g ∈ seen, g.key.integer? = some (key g)) → OrderedBy key o.descending seen groups
  texts : o.ignoreCase = false → ∀ key : Group → String,
    (∀ g ∈ seen, g.key.text? = some (key g)) → OrderedBy key o.descending seen groups
  ignoringCase : o.ignoreCase = true → OrderedBy smallText o.descending seen groups

theorem sorted_of_sort (h : Sorting.sort (less o) seen = .ok groups) : Sorted o seen groups := by
  constructor
  · intro hcase key hkey
    refine sort_groups (fun a ha b _ _ => sameDateKind_of_integer? (hkey a ha) b.key)
      (fun a ha b hb => ?_) h
    simp [rank, hcase, standing_integers (hkey a ha) (hkey b hb)]
  · intro hcase key hkey
    refine sort_groups (fun a ha b _ _ => sameDateKind_of_text? (hkey a ha) b.key)
      (fun a ha b hb => ?_) h
    simp [rank, hcase, standing_of_texts (hkey a ha) (hkey b hb), ofTexts_nonpos]
  · intro hcase
    refine sort_groups (fun a _ b _ hno => ?_) (fun a _ b _ => ?_) h
    · rw [hcase] at hno
      cases hno
    · simp [rank, hcase, ofTexts_nonpos]

end Order

theorem Partitions.exists_key (h : Partitions field items groups) {g : Group} (hg : g ∈ groups) :
    ∃ x ∈ items, g.key = x.field field := by
  have hmem : g.item ∈ g.members := List.mem_of_mem_head? (h.first g hg)
  exact ⟨g.item, h.covers.mem_iff.1 (List.mem_flatMap.2 ⟨g, hg, hmem⟩), h.key g hg⟩

/-- Grouping parts the items by the texts of their keys. Without an order the groups are as their
keys were first seen; with one they are those groups sorted, unless a comparison of keys is refused. -/
theorem ofItems_partitions (items : List Value) (field order : String) :
    ((collect field items).map fun g => g.key.shown) = (items.map (keyText field)).eraseDups ∧
      ((∃ groups, ofItems items field order = .ok groups ∧ Partitions field items groups ∧
          (∀ x ∈ items, ∀ y ∈ items, (∃ g ∈ groups, x ∈ g.members ∧ y ∈ g.members) ↔
            (x.field field).shown = (y.field field).shown) ∧
          (order = "" → groups = collect field items) ∧
          (order ≠ "" → groups.Perm (collect field items) ∧
            Sorted (.parse order) (collect field items) groups)) ∨
        ∃ f, ofItems items field order = .error f ∧ order ≠ "" ∧
          (Ordering.parse order).ignoreCase = false ∧
          ∃ x ∈ items, ∃ y ∈ items, Refused (x.field field) (y.field field) f) := by
  obtain ⟨hparts, htexts⟩ := collect_partitions field items
  refine ⟨htexts, ?_⟩
  rw [ofItems_eq]
  by_cases horder : order = ""
  · rw [if_pos (String.isEmpty_iff.2 horder)]
    exact .inl ⟨_, rfl, hparts, fun x hx y hy => hparts.together_iff hx hy, fun _ => rfl,
      fun hne => absurd horder hne⟩
  · rw [if_neg fun hempty => horder (String.isEmpty_iff.1 hempty)]
    cases hsort : Sorting.sort (less (.parse order)) (collect field items) with
    | ok groups =>
      have hperm := sort_perm hsort
      have hparts' := hparts.perm hperm
      exact .inl ⟨groups, rfl, hparts', fun x hx y hy => hparts'.together_iff hx hy,
        fun hempty => absurd hempty horder, fun _ => ⟨hperm, sorted_of_sort hsort⟩⟩
    | error f =>
      obtain ⟨a, ha, b, hb, hless⟩ := sort_error hsort
      obtain ⟨hcase, hrefused⟩ := less_error hless
      obtain ⟨x, hx, hxkey⟩ := hparts.exists_key ha
      obtain ⟨y, hy, hykey⟩ := hparts.exists_key hb
      rw [hxkey, hykey] at hrefused
      exact .inr ⟨f, rfl, horder, hcase, x, hx, y, hy, hrefused⟩

theorem arrayKeys_refused :
    let items : List Value := [.dict [(.text "k", .scalar (.int64 2))],
      .dict [(.text "k", .scalar (.int64 1))]]
    (items.map (keyText "k")).eraseDups = ["2", "1"] ∧
      ofItems items "k" "ASC" = .error truthDifference ∧
      ∃ x ∈ items, ∃ y ∈ items, Refused (x.field "k") (y.field "k") truthDifference := by
  intro items
  have hrefused : ofItems items "k" "ASC" = .error truthDifference := by
    refine ofItems_pair (by decide +kernel) (by decide +kernel) ?_
    have hparse : Ordering.parse "ASC" = ⟨false, false⟩ := by decide +kernel
    rw [hparse, field_entry (by decide), field_entry (by decide)]
    rfl
  refine ⟨by decide +kernel, hrefused, ?_⟩
  rcases (ofItems_partitions items "k" "ASC").2 with ⟨groups, hok, -⟩ | ⟨f, herror, -, -, hwhy⟩
  · rw [hrefused] at hok
    cases hok
  · rw [hrefused] at herror
    cases herror
    exact hwhy

end Group

end SheetTemplate
