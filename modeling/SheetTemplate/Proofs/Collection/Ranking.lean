import Mathlib.Algebra.Order.Ring.Unbundled.Rat
import Mathlib.Data.String.Basic
import SheetTemplate.Collection.Order
import SheetTemplate.Proofs.Collection.Stable

/-!
Where keys stand beside each other. Null comes first, numbers follow their line, and all else its
text; this is a ranking of some keys exactly when no text of theirs tells two numbers apart otherwise
than the line does, and no number that is none stands beside different ones.
-/

namespace SheetTemplate

open Number

theorem Text.splitOnChar_of_not_mem {sep : Char} {cs : List Char} (h : sep ∉ cs) :
    splitOnChar sep cs = [cs] := by
  induction cs with
  | nil => rfl
  | cons c cs ih =>
    rw [List.mem_cons, not_or] at h
    rw [splitOnChar, if_neg fun hc => h.1 (beq_iff_eq.1 hc).symm, ih h.2]

namespace Number.Extended

def standing (x y : Extended) : Int := (if y.lt x then 1 else 0) - (if x.lt y then 1 else 0)

variable {x y z : Extended}

theorem standing_flip (x y : Extended) : standing y x = -standing x y := by
  unfold standing
  omega

theorem lt_asymm (h : x.lt y = true) : y.lt x = false := by
  cases x <;> cases y
  case exact.exact => exact decide_eq_false (not_lt.2 (of_decide_eq_true h).le)
  all_goals simp_all [lt]

theorem standing_nonpos : standing x y ≤ 0 ↔ y.lt x = false := by
  unfold standing
  cases hyx : y.lt x with
  | false =>
    simp only [Bool.false_eq_true, ↓reduceIte, iff_true]
    split <;> omega
  | true => simp [lt_asymm hyx]

theorem neg_one_le_standing (x y : Extended) : -1 ≤ standing x y := by
  unfold standing
  split <;> split <;> decide

theorem standing_nan (x : Extended) : standing x .nan = 0 ∧ standing .nan x = 0 := by
  cases x <;> exact ⟨rfl, rfl⟩

theorem standing_trans (hy : y ≠ .nan) (hxy : standing x y ≤ 0) (hyz : standing y z ≤ 0) :
    standing x z ≤ 0 := by
  rw [standing_nonpos] at *
  cases x <;> cases y <;> cases z
  case exact.exact.exact p q r =>
    have hpq : p ≤ q := not_lt.1 (of_decide_eq_false hxy)
    exact decide_eq_false (not_lt.2 (hpq.trans (not_lt.1 (of_decide_eq_false hyz))))
  all_goals simp_all [lt]

end Number.Extended

namespace Value

theorem eq_text (s t : String) : (text s).eq (text t) = (s == t) := by
  rw [eq]
  · rfl
  all_goals simp

theorem field_entry {name : String} (h : '.' ∉ name.toList) (v : Value)
    (entries : List (Value × Value)) : (dict ((.text name, v) :: entries)).field name = v := by
  rw [field, Text.splitOnChar_of_not_mem h, List.map_singleton, String.ofList_toList]
  change (lookup? ((.text name, v) :: entries) (.text name)).getD .null = v
  rw [lookup?, List.find?_cons_of_pos]
  · rfl
  · exact (eq_text name name).trans (beq_self_eq_true name)

theorem ofTexts_flip (s t : String) : ofTexts t s = -ofTexts s t := by
  unfold ofTexts
  rcases lt_trichotomy s t with h | rfl | h
  · simp [h, h.not_gt]
  · simp
  · simp [h, h.not_gt]

theorem ofTexts_nonpos {s t : String} : ofTexts s t ≤ 0 ↔ s ≤ t := by
  unfold ofTexts
  rcases lt_trichotomy s t with h | rfl | h
  · simp [h, h.le]
  · simp
  · simp [h, h.not_gt]

theorem ofTexts_eq_zero {s t : String} : ofTexts s t = 0 ↔ s = t := by
  unfold ofTexts
  rcases lt_trichotomy s t with h | rfl | h
  · simp [h, h.ne]
  · simp
  · simp [h, h.not_gt, h.ne']

def orderNumber? (v : Value) : Option Extended := if v.isOrderNumber then v.number? else none

def standing (a b : Value) : Int :=
  match a, b with
  | null, null => 0
  | null, _ => -1
  | _, null => 1
  | _, _ =>
    match a.orderNumber?, b.orderNumber? with
    | some x, some y => x.standing y
    | _, _ => ofTexts a.shown b.shown

variable {a b d : Value} {x y : Extended}

theorem ne_null_of_orderNumber? (h : a.orderNumber? = some x) : a ≠ null := by
  rintro rfl
  cases h

theorem standing_null_left (hb : b ≠ null) : standing null b = -1 := by
  cases b <;> first | rfl | exact absurd rfl hb

theorem standing_null_nonpos (b : Value) : standing null b ≤ 0 := by
  by_cases hb : b = null
  · subst hb
    decide
  · rw [standing_null_left hb]
    decide

theorem standing_null_right (ha : a ≠ null) : standing a null = 1 := by
  cases a <;> first | rfl | exact absurd rfl ha

theorem standing_numbers (ha : a.orderNumber? = some x) (hb : b.orderNumber? = some y) :
    standing a b = x.standing y := by
  unfold standing
  split
  · cases ha
  · cases ha
  · cases hb
  · rw [ha, hb]

theorem standing_texts (ha : a ≠ null) (hb : b ≠ null)
    (h : a.orderNumber? = none ∨ b.orderNumber? = none) : standing a b = ofTexts a.shown b.shown := by
  unfold standing
  split
  · exact absurd rfl ha
  · exact absurd rfl ha
  · exact absurd rfl hb
  · split
    · next hx hy =>
      rw [hx, hy] at h
      rcases h with h | h <;> cases h
    · rfl

theorem standing_texts_nonpos (ha : a ≠ null) (hb : b ≠ null)
    (h : a.orderNumber? = none ∨ b.orderNumber? = none) :
    standing a b ≤ 0 ↔ a.shown ≤ b.shown := by
  rw [standing_texts ha hb h, ofTexts_nonpos]

theorem standing_flip (a b : Value) : standing b a = -standing a b := by
  by_cases ha : a = null
  · subst ha
    by_cases hb : b = null
    · subst hb
      rfl
    · rw [standing_null_left hb, standing_null_right hb]
      rfl
  · by_cases hb : b = null
    · subst hb
      rw [standing_null_left ha, standing_null_right ha]
    · rcases hx : a.orderNumber? with _ | x
      · rw [standing_texts ha hb (.inl hx), standing_texts hb ha (.inr hx), ofTexts_flip]
      · rcases hy : b.orderNumber? with _ | y
        · rw [standing_texts ha hb (.inr hy), standing_texts hb ha (.inl hy), ofTexts_flip]
        · rw [standing_numbers hx hy, standing_numbers hy hx, Extended.standing_flip]

/-- Keys that can be ranked. A number that is none stands beside equal ones only, and two numbers
that have a text between theirs stand on the line as their texts do. -/
structure Harmonious (V : Value → Prop) : Prop where
  nan : ∀ a b d, V a → V b → V d → a.orderNumber?.isSome → b.orderNumber?.isSome →
    d.orderNumber? = some .nan → standing a b = 0
  texts : ∀ a b d, V a → V b → V d → a.orderNumber?.isSome → b.orderNumber?.isSome →
    d ≠ null → d.orderNumber? = none → a.shown ≤ d.shown → d.shown ≤ b.shown →
    standing a b = ofTexts a.shown b.shown

variable {V : Value → Prop}

theorem Harmonious.shown_le (h : Harmonious V) (ha : V a) (hb : V b) (hd : V d)
    (hx : a.orderNumber?.isSome) (hy : b.orderNumber?.isSome) (hnd : d ≠ null)
    (hz : d.orderNumber? = none) (hbd : b.shown ≤ d.shown) (hda : d.shown ≤ a.shown)
    (hab : standing a b ≤ 0) : a.shown ≤ b.shown := by
  rw [standing_flip b a, h.texts b a d hb ha hd hy hx hnd hz hbd hda, ← ofTexts_flip] at hab
  exact ofTexts_nonpos.1 hab

theorem Harmonious.trans_numbers (h : Harmonious V) (ha : V a) (hb : V b) (hd : V d)
    (hx : a.orderNumber? = some x) (hy : d.orderNumber? = some y) (hnb : b ≠ null)
    (hab : standing a b ≤ 0) (hbd : standing b d ≤ 0) : standing a d ≤ 0 := by
  have hxs : a.orderNumber?.isSome := Option.isSome_iff_exists.2 ⟨x, hx⟩
  have hys : d.orderNumber?.isSome := Option.isSome_iff_exists.2 ⟨y, hy⟩
  cases hz : b.orderNumber? with
  | some z =>
    by_cases hnan : z = .nan
    · -- what is no number tells nothing of the two beside it
      subst hnan
      exact (h.nan a d b ha hd hb hxs hys hz).le
    · rw [standing_numbers hx hz] at hab
      rw [standing_numbers hz hy] at hbd
      rw [standing_numbers hx hy]
      exact Extended.standing_trans hnan hab hbd
  | none =>
    rw [standing_texts_nonpos (ne_null_of_orderNumber? hx) hnb (.inr hz)] at hab
    rw [standing_texts_nonpos hnb (ne_null_of_orderNumber? hy) (.inl hz)] at hbd
    rw [h.texts a d b ha hd hb hxs hys hnb hz hab hbd]
    exact ofTexts_nonpos.2 (hab.trans hbd)

theorem Harmonious.trans_text (h : Harmonious V) (ha : V a) (hb : V b) (hd : V d) (hna : a ≠ null)
    (hnb : b ≠ null) (hnd : d ≠ null) (hz : d.orderNumber? = none) (hab : standing a b ≤ 0)
    (hbd : standing b d ≤ 0) : standing a d ≤ 0 := by
  rw [standing_texts_nonpos hnb hnd (.inr hz)] at hbd
  rw [standing_texts_nonpos hna hnd (.inr hz)]
  by_cases htext : a.orderNumber? = none ∨ b.orderNumber? = none
  · exact ((standing_texts_nonpos hna hnb htext).1 hab).trans hbd
  · rw [not_or, ← ne_eq, ← ne_eq, Option.ne_none_iff_isSome, Option.ne_none_iff_isSome] at htext
    by_contra hlt
    exact hlt ((h.shown_le ha hb hd htext.1 htext.2 hnd hz hbd (not_le.1 hlt).le hab).trans hbd)

theorem Harmonious.text_trans (h : Harmonious V) (ha : V a) (hb : V b) (hd : V d) (hna : a ≠ null)
    (hnb : b ≠ null) (hnd : d ≠ null) (hx : a.orderNumber? = none) (hab : standing a b ≤ 0)
    (hbd : standing b d ≤ 0) : standing a d ≤ 0 := by
  rw [standing_texts_nonpos hna hnb (.inl hx)] at hab
  rw [standing_texts_nonpos hna hnd (.inl hx)]
  by_cases htext : b.orderNumber? = none ∨ d.orderNumber? = none
  · exact hab.trans ((standing_texts_nonpos hnb hnd htext).1 hbd)
  · rw [not_or, ← ne_eq, ← ne_eq, Option.ne_none_iff_isSome, Option.ne_none_iff_isSome] at htext
    by_contra hlt
    exact hlt (hab.trans (h.shown_le hb hd ha htext.1 htext.2 hna hx (not_le.1 hlt).le hab hbd))

theorem Harmonious.trans (h : Harmonious V) (ha : V a) (hb : V b) (hd : V d)
    (hab : standing a b ≤ 0) (hbd : standing b d ≤ 0) : standing a d ≤ 0 := by
  by_cases hna : a = null
  · subst hna
    exact standing_null_nonpos d
  by_cases hnb : b = null
  · subst hnb
    rw [standing_null_right hna] at hab
    exact absurd hab (by decide)
  by_cases hnd : d = null
  · subst hnd
    rw [standing_null_right hnb] at hbd
    exact absurd hbd (by decide)
  cases hx : a.orderNumber? with
  | none => exact h.text_trans ha hb hd hna hnb hnd hx hab hbd
  | some x =>
    cases hy : d.orderNumber? with
    | none => exact h.trans_text ha hb hd hna hnb hnd hy hab hbd
    | some y => exact h.trans_numbers ha hb hd hx hy hnb hab hbd

theorem level_of_ranks (h : Sorting.Ranks standing V) (ha : V a) (hb : V b) (hd : V d)
    (had : standing a d = 0) (hdb : standing d b = 0) : standing a b = 0 := by
  have hab := h.trans a d b ha hd hb had.le hdb.le
  have hba := h.trans b d a hb hd ha (by rw [standing_flip d b, hdb]; decide)
    (by rw [standing_flip a d, had]; decide)
  rw [standing_flip a b] at hba
  omega

theorem level_iff_of_ranks (h : Sorting.Ranks standing V) (ha : V a) (hb : V b) (hd : V d)
    (hna : a ≠ null) (hnb : b ≠ null) (hnd : d ≠ null) (hz : d.orderNumber? = none)
    (had : a.shown ≤ d.shown) (hdb : d.shown ≤ b.shown) :
    standing a b = 0 ↔ a.shown = b.shown := by
  have hadle := (standing_texts_nonpos hna hnd (.inr hz)).2 had
  have hdble := (standing_texts_nonpos hnd hnb (.inl hz)).2 hdb
  constructor
  · intro hzero
    have hba : standing b a ≤ 0 := by
      rw [standing_flip a b, hzero]
      decide
    have hbd := (standing_texts_nonpos hnb hnd (.inr hz)).1 (h.trans b a d hb ha hd hba hadle)
    have hda := (standing_texts_nonpos hnd hna (.inl hz)).1 (h.trans d b a hd hb ha hdble hba)
    exact (had.trans hdb).antisymm (hbd.trans hda)
  · intro hsame
    have hab := h.trans a d b ha hd hb hadle hdble
    have hba := h.trans b d a hb hd ha
      ((standing_texts_nonpos hnb hnd (.inr hz)).2 (hsame ▸ had))
      ((standing_texts_nonpos hnd hna (.inl hz)).2 (hsame ▸ hdb))
    rw [standing_flip a b] at hba
    omega

theorem harmonious_of_ranks (h : Sorting.Ranks standing V) : Harmonious V := by
  constructor
  · intro a b d ha hb hd hx hy hnan
    obtain ⟨x, hx⟩ := Option.isSome_iff_exists.1 hx
    obtain ⟨y, hy⟩ := Option.isSome_iff_exists.1 hy
    refine level_of_ranks h ha hb hd ?_ ?_
    · rw [standing_numbers hx hnan, (Extended.standing_nan x).1]
    · rw [standing_numbers hnan hy, (Extended.standing_nan y).2]
  · intro a b d ha hb hd hx hy hnd hz had hdb
    obtain ⟨x, hx⟩ := Option.isSome_iff_exists.1 hx
    obtain ⟨y, hy⟩ := Option.isSome_iff_exists.1 hy
    have hna := ne_null_of_orderNumber? hx
    have hnb := ne_null_of_orderNumber? hy
    have hlevel := level_iff_of_ranks h ha hb hd hna hnb hnd hz had hdb
    by_cases hsame : a.shown = b.shown
    · rw [hlevel.2 hsame, ofTexts_eq_zero.2 hsame]
    · have hlt : ofTexts a.shown b.shown = -1 := by
        rw [ofTexts, if_pos (lt_of_le_of_ne (had.trans hdb) hsame)]
      have hlow : -1 ≤ standing a b := by
        rw [standing_numbers hx hy]
        exact Extended.neg_one_le_standing x y
      have hab := h.trans a d b ha hd hb ((standing_texts_nonpos hna hnd (.inr hz)).2 had)
        ((standing_texts_nonpos hnd hnb (.inl hz)).2 hdb)
      have hne : standing a b ≠ 0 := fun hzero => hsame (hlevel.1 hzero)
      rw [hlt]
      omega

/-- Keys can be ranked exactly when they are harmonious. -/
theorem ranks_iff_harmonious : Sorting.Ranks standing V ↔ Harmonious V :=
  ⟨harmonious_of_ranks, fun h => ⟨fun a b _ _ => standing_flip a b,
    fun _ _ _ ha hb hd => h.trans ha hb hd⟩⟩

section Keys

variable {n : Int} {f : Fault}

theorem orderNumber?_cases (h : a.orderNumber? = some x) :
    (∃ n, a = int n ∧ x = .ofInt n) ∨ (∃ r, a = float r ∧ x = .ofFloat r) ∨
      (∃ d, a = decimal d ∧ x = d.toExtended) ∨
      (∃ n, a = scalar (.int64 n) ∧ x = .ofInt n) ∨
      (∃ r, a = scalar (.float64 r) ∧ x = .ofFloat r) ∨
      ∃ r, a = scalar (.float32 r) ∧ x = .ofFloat r := by
  unfold orderNumber? at h
  split at h
  · next hnumber =>
    unfold isOrderNumber at hnumber
    split at hnumber
    · exact .inl ⟨_, rfl, (Option.some.inj h).symm⟩
    · exact .inr (.inl ⟨_, rfl, (Option.some.inj h).symm⟩)
    · exact .inr (.inr (.inl ⟨_, rfl, (Option.some.inj h).symm⟩))
    · exact .inr (.inr (.inr (.inl ⟨_, rfl, (Option.some.inj h).symm⟩)))
    · exact .inr (.inr (.inr (.inr (.inl ⟨_, rfl, (Option.some.inj h).symm⟩))))
    · exact .inr (.inr (.inr (.inr (.inr ⟨_, rfl, (Option.some.inj h).symm⟩))))
    · cases hnumber
  · cases h

theorem isOrderNumber_iff : a.isOrderNumber = true ↔ a.orderNumber?.isSome := by
  unfold orderNumber?
  constructor
  · intro h
    rw [if_pos h]
    unfold isOrderNumber at h
    split at h
    any_goals rfl
    cases h
  · intro h
    split at h
    · assumption
    · cases h

theorem order_numbers (o : Ordering) (ha : a.orderNumber? = some x) (hb : b.orderNumber? = some y) :
    a.order o b = if (a.isDecimal || b.isDecimal) && (x.isNaN || y.isNaN) then
      .error .invalidDecimal else .ok (o.ofNumbers x y) := by
  rcases orderNumber?_cases ha with ⟨_, rfl, rfl⟩ | ⟨_, rfl, rfl⟩ | ⟨_, rfl, rfl⟩ | ⟨_, rfl, rfl⟩ |
    ⟨_, rfl, rfl⟩ | ⟨_, rfl, rfl⟩ <;>
  rcases orderNumber?_cases hb with ⟨_, rfl, rfl⟩ | ⟨_, rfl, rfl⟩ | ⟨_, rfl, rfl⟩ | ⟨_, rfl, rfl⟩ |
    ⟨_, rfl, rfl⟩ | ⟨_, rfl, rfl⟩ <;> rfl

theorem compareKeys_numbers (ha : a.orderNumber? = some x) (hb : b.orderNumber? = some y) :
    a.compareKeys b =
      if (a.isDecimal || b.isDecimal) && (x.isNaN || y.isNaN) then .error .invalidDecimal
      else if a.isScalar || b.isScalar then .error truthDifference
      else .ok (x.standing y) := by
  have hnumbers : (a.isOrderNumber && b.isOrderNumber || sameDateKind a b) = true := by
    rw [isOrderNumber_iff.2 (by rw [ha]; rfl), isOrderNumber_iff.2 (by rw [hb]; rfl)]
    rfl
  unfold compareKeys
  split
  · cases ha
  · cases ha
  · cases hb
  · cases ha
  · rw [if_pos hnumbers, byOrder, order_numbers .gt ha hb, order_numbers .lt ha hb]
    split
    · rfl
    · rfl

theorem compareKeys_texts (ha : a ≠ null) (hb : b ≠ null)
    (h : a.orderNumber? = none ∨ b.orderNumber? = none) (hdates : sameDateKind a b = false) :
    a.compareKeys b = .ok (ofTexts a.shown b.shown) := by
  have hnumbers : ¬ (a.isOrderNumber && b.isOrderNumber || sameDateKind a b) = true := by
    rw [hdates, Bool.or_false, Bool.and_eq_true, isOrderNumber_iff, isOrderNumber_iff]
    rintro ⟨hx, hy⟩
    rcases h with h | h
    · rw [h] at hx
      cases hx
    · rw [h] at hy
      cases hy
  unfold compareKeys
  split
  · exact absurd rfl ha
  · exact absurd rfl ha
  · exact absurd rfl hb
  · rfl
  · rw [if_neg hnumbers]

theorem compareKeys_null_left (hb : b ≠ null) : compareKeys null b = .ok (-1) := by
  cases b <;> first | rfl | exact absurd rfl hb

theorem compareKeys_null_right (ha : a ≠ null) : compareKeys a null = .ok 1 := by
  cases a <;> first | rfl | exact absurd rfl ha

/-- A comparison of numbers that is refused: of one with a decimal when one of them is none, and of
one with a scalar of array data. -/
def Refused (a b : Value) (f : Fault) : Prop :=
  ∃ x y, a.orderNumber? = some x ∧ b.orderNumber? = some y ∧
    (((a.isDecimal || b.isDecimal) && (x.isNaN || y.isNaN)) = true ∧ f = .invalidDecimal ∨
      (a.isScalar || b.isScalar) = true ∧ f = truthDifference)

theorem compareKeys_eq (hdates : sameDateKind a b = false) :
    a.compareKeys b = .ok (standing a b) ∨ ∃ f, Refused a b f ∧ a.compareKeys b = .error f := by
  by_cases ha : a = null
  · subst ha
    by_cases hb : b = null
    · subst hb
      exact .inl rfl
    · exact .inl (by rw [compareKeys_null_left hb, standing_null_left hb])
  by_cases hb : b = null
  · subst hb
    exact .inl (by rw [compareKeys_null_right ha, standing_null_right ha])
  cases hx : a.orderNumber? with
  | none =>
    exact .inl (by rw [compareKeys_texts ha hb (.inl hx) hdates, standing_texts ha hb (.inl hx)])
  | some x =>
    cases hy : b.orderNumber? with
    | none =>
      exact .inl (by rw [compareKeys_texts ha hb (.inr hy) hdates, standing_texts ha hb (.inr hy)])
    | some y =>
      rw [compareKeys_numbers hx hy, standing_numbers hx hy]
      split
      · next hnan => exact .inr ⟨_, ⟨x, y, hx, hy, .inl ⟨hnan, rfl⟩⟩, rfl⟩
      · split
        · next hscalar => exact .inr ⟨_, ⟨x, y, hx, hy, .inr ⟨hscalar, rfl⟩⟩, rfl⟩
        · exact .inl rfl

theorem compareKeys_standing (hdates : sameDateKind a b = false) (h : a.compareKeys b = .ok n) :
    n = standing a b := by
  rcases compareKeys_eq hdates with hok | ⟨f, -, herror⟩
  · rw [hok] at h
    exact (Except.ok.inj h).symm
  · rw [herror] at h
    cases h

theorem exists_compareKeys_of_dates (h : sameDateKind a b = true) : ∃ n, a.compareKeys b = .ok n := by
  unfold sameDateKind at h
  split at h
  · exact ⟨_, rfl⟩
  · exact ⟨_, rfl⟩
  · exact ⟨_, rfl⟩
  · cases h

theorem refused_of_compareKeys (h : a.compareKeys b = .error f) : Refused a b f := by
  cases hdates : sameDateKind a b with
  | true =>
    obtain ⟨n, hn⟩ := exists_compareKeys_of_dates hdates
    rw [hn] at h
    cases h
  | false =>
    rcases compareKeys_eq hdates with hok | ⟨f', hrefused, herror⟩
    · rw [hok] at h
      cases h
    · rw [herror] at h
      cases h
      exact hrefused

end Keys

section Kinds

variable {m n : Int} {s t : String}

def integer? : Value → Option Int
  | int n => some n
  | scalar (.int64 n) => some n
  | _ => none

theorem integer?_cases (h : a.integer? = some m) : a = int m ∨ a = scalar (.int64 m) := by
  unfold integer? at h
  split at h
  · exact .inl (by cases h; rfl)
  · exact .inr (by cases h; rfl)
  · cases h

theorem text?_cases (h : a.text? = some s) : a = text s ∨ a = scalar (.text s) := by
  unfold text? at h
  split at h
  · exact .inl (by cases h; rfl)
  · exact .inr (by cases h; rfl)
  · cases h

theorem sameDateKind_of_integer? (h : a.integer? = some m) (b : Value) : sameDateKind a b = false := by
  rcases integer?_cases h with rfl | rfl <;> rfl

theorem sameDateKind_of_text? (h : a.text? = some s) (b : Value) : sameDateKind a b = false := by
  rcases text?_cases h with rfl | rfl <;> rfl

theorem standing_integers (ha : a.integer? = some m) (hb : b.integer? = some n) :
    standing a b ≤ 0 ↔ m ≤ n := by
  have hnumber : ∀ {v : Value} {k : Int}, v.integer? = some k → v.orderNumber? = some (.ofInt k) := by
    intro v k hv
    rcases integer?_cases hv with rfl | rfl <;> rfl
  rw [standing_numbers (hnumber ha) (hnumber hb), Extended.standing_nonpos]
  change decide ((n : Rat) < (m : Rat)) = false ↔ m ≤ n
  rw [decide_eq_false_iff_not, not_lt, Rat.intCast_le_intCast]

theorem standing_of_texts (ha : a.text? = some s) (hb : b.text? = some t) :
    standing a b = ofTexts s t := by
  have hshown : ∀ {v : Value} {k : String}, v.text? = some k →
      v ≠ null ∧ v.orderNumber? = none ∧ v.shown = k := by
    intro v k hv
    rcases text?_cases hv with rfl | rfl
    · exact ⟨nofun, rfl, rfl⟩
    · exact ⟨nofun, rfl, rfl⟩
  obtain ⟨hna, hx, hs⟩ := hshown ha
  obtain ⟨hnb, -, ht⟩ := hshown hb
  rw [standing_texts hna hnb (.inl hx), hs, ht]

end Kinds

end Value

end SheetTemplate
