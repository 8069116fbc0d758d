import SheetTemplate.Proofs.Collection.Ranking
import SheetTemplate.Proofs.Formula.Naming

namespace SheetTemplate.Value

open Number

theorem append_lt_append {a b c d : List Char} (hlength : a.length = b.length) (h : a < b) :
    a ++ c < b ++ d := by
  induction a generalizing b with
  | nil =>
    rw [List.length_nil, eq_comm, List.length_eq_zero_iff] at hlength
    subst hlength
    exact absurd h (List.lt_irrefl _)
  | cons x a ih =>
    cases b with
    | nil => cases hlength
    | cons y b =>
      rcases List.cons_lt_cons_iff.1 h with hxy | ⟨rfl, hab⟩
      · exact List.cons_lt_cons_iff.2 (.inl hxy)
      · exact List.cons_lt_cons_iff.2 (.inr ⟨rfl, ih (Nat.succ.inj hlength) hab⟩)

section Padded

variable {w m n : Nat}

theorem padded_succ (hw : 0 < w) (n : Nat) :
    padded (w + 1) n = padded w (n / 10) ++ [(n % 10).digitChar] := by
  simp only [padded, natDigits_eq]
  rw [Nat.toDigits_eq_if (by decide) (n := n)]
  split
  · next h =>
    obtain ⟨k, rfl⟩ := Nat.exists_eq_succ_of_ne_zero hw.ne'
    rw [Nat.div_eq_of_lt h, Nat.mod_eq_of_lt h, Nat.toDigits_zero]
    simp [zeros, List.replicate_succ']
  · simp

theorem length_padded (hw : 0 < w) (h : n < 10 ^ w) : (padded w n).length = w := by
  have hle := (Nat.length_toDigits_le_iff (b := 10) (n := n) (by decide) hw).2 h
  simp only [padded, natDigits_eq, List.length_append, zeros, List.length_replicate]
  omega

theorem digitChar_lt (h : m < n) (hn : n < 10) : [m.digitChar] < [n.digitChar] := by
  revert m
  revert n
  decide

theorem padded_lt (hw : 0 < w) (hn : n < 10 ^ w) (h : m < n) : padded w m < padded w n := by
  induction w, hw using Nat.le_induction generalizing m n with
  | base =>
    have hone : ∀ k < 10, padded 1 k = [k.digitChar] := by
      intro k hk
      rw [padded, natDigits_eq, Nat.toDigits_of_lt_base hk]
      rfl
    rw [hone m (by omega), hone n (by omega)]
    exact digitChar_lt h (by omega)
  | succ w hw ih =>
    rw [padded_succ hw, padded_succ hw]
    have hpow : 10 ^ (w + 1) = 10 ^ w * 10 := Nat.pow_succ 10 w
    by_cases hfront : m / 10 = n / 10
    · rw [hfront]
      exact List.append_left_lt (digitChar_lt (by omega) (Nat.mod_lt _ (by decide)))
    · refine append_lt_append ?_ (ih (by omega) (by omega))
      rw [length_padded hw (by omega), length_padded hw (by omega)]

theorem padded_append_lt {a b : List Char} (hw : 0 < w) (hn : n < 10 ^ w) (h : m < n) :
    padded w m ++ a < padded w n ++ b :=
  append_lt_append (by rw [length_padded hw hn, length_padded hw (h.trans hn)]) (padded_lt hw hn h)

end Padded

theorem cons_lt_cons {a b : List Char} (c : Char) (h : a < b) : c :: a < c :: b :=
  List.cons_lt_cons_iff.2 (.inr ⟨rfl, h⟩)

section Calendar

variable {year month month' : Nat}

theorem daysBeforeYear_succ (h : 1 ≤ year) :
    daysBeforeYear (year + 1) = daysBeforeYear year + if isLeap year then 366 else 365 := by
  obtain ⟨k, rfl⟩ := Nat.exists_eq_add_of_le' h
  have hleap : isLeap (k + 1) = true ↔ 4 ∣ k + 1 ∧ (¬ 100 ∣ k + 1 ∨ 400 ∣ k + 1) := by
    simp [isLeap, Nat.dvd_iff_mod_eq_zero]
  have h100 : 100 ∣ k + 1 → 4 ∣ k + 1 := Nat.dvd_trans (by decide)
  have h400 : 400 ∣ k + 1 → 100 ∣ k + 1 := Nat.dvd_trans (by decide)
  have hle : k / 100 ≤ k / 4 := Nat.div_le_div_left (by decide) (by decide)
  simp only [daysBeforeYear, Nat.add_sub_cancel, Nat.succ_div, hleap]
  generalize k / 4 = q, k / 100 = c, k / 400 = g at hle ⊢
  split_ifs <;> omega

theorem daysBeforeYear_le {year' : Nat} (h : year ≤ year') :
    daysBeforeYear year ≤ daysBeforeYear year' := by
  induction year', h using Nat.le_induction with
  | base => exact Nat.le_refl _
  | succ k _ ih =>
    rcases Nat.eq_zero_or_pos k with rfl | hk
    · exact ih
    · rw [daysBeforeYear_succ hk]
      exact ih.trans (Nat.le_add_right _ _)

theorem daysBeforeMonth_le (year : Nat) (h : month < month') (hmonth : 1 ≤ month) :
    daysBeforeMonth year month + daysInMonth year month ≤ daysBeforeMonth year month' := by
  induction month', h using Nat.le_induction with
  | base =>
    obtain ⟨k, rfl⟩ := Nat.exists_eq_add_of_le' hmonth
    rfl
  | succ k hk ih =>
    obtain ⟨j, rfl⟩ := Nat.exists_eq_add_of_le' (show 1 ≤ k by omega)
    exact ih.trans (Nat.le_add_right _ _)

theorem daysBeforeMonth_thirteen (year : Nat) :
    daysBeforeMonth year 13 = if isLeap year then 366 else 365 := by
  cases h : isLeap year <;> simp [daysBeforeMonth, daysInMonth, h]

end Calendar

namespace Date

variable {d e : Date}

theorem valid_iff : d.valid = true ↔ 1 ≤ d.year ∧ d.year ≤ 9999 ∧ 1 ≤ d.month ∧ d.month ≤ 12 ∧
    1 ≤ d.day ∧ d.day ≤ daysInMonth d.year d.month := by
  simp [valid, and_assoc]

theorem daysInMonth_le (year month : Nat) : daysInMonth year month ≤ 31 := by
  unfold daysInMonth
  split_ifs <;> decide

def Earlier (d e : Date) : Prop :=
  d.year < e.year ∨ d.year = e.year ∧ (d.month < e.month ∨ d.month = e.month ∧ d.day < e.day)

theorem earlier_trichotomy (d e : Date) : d.Earlier e ∨ d = e ∨ e.Earlier d := by
  obtain ⟨y, m, k⟩ := d
  obtain ⟨y', m', k'⟩ := e
  simp only [Earlier, mk.injEq]
  omega

theorem Earlier.ordinal_lt (hd : d.valid) (he : e.valid) (h : d.Earlier e) :
    d.ordinal < e.ordinal := by
  obtain ⟨hyear, -, hmonth, hmonth', -, hday⟩ := valid_iff.1 hd
  obtain ⟨-, -, -, -, hday', -⟩ := valid_iff.1 he
  unfold ordinal
  rcases h with h | ⟨hsame, h | ⟨hsame', h⟩⟩
  · have hover := daysBeforeMonth_le d.year (show d.month < 13 by omega) hmonth
    rw [daysBeforeMonth_thirteen] at hover
    have hnext := daysBeforeYear_le (show d.year + 1 ≤ e.year from h)
    rw [daysBeforeYear_succ hyear] at hnext
    omega
  · have hover := daysBeforeMonth_le d.year h hmonth
    rw [← hsame]
    omega
  · rw [← hsame, ← hsame']
    omega

theorem Earlier.iso_lt (he : e.valid) (h : d.Earlier e) (a b : List Char) :
    d.iso.toList ++ a < e.iso.toList ++ b := by
  obtain ⟨-, hyear, -, hmonth, -, hday⟩ := valid_iff.1 he
  have := daysInMonth_le e.year e.month
  simp only [iso, String.toList_ofList, List.append_assoc, List.cons_append]
  rcases h with h | ⟨hsame, h | ⟨hsame', h⟩⟩
  · exact padded_append_lt (by decide) (by omega) h
  · rw [hsame]
    exact List.append_left_lt (cons_lt_cons '-' (padded_append_lt (by decide) (by omega) h))
  · rw [hsame, hsame']
    exact List.append_left_lt (cons_lt_cons '-' (List.append_left_lt
      (cons_lt_cons '-' (padded_append_lt (by decide) (by omega) h))))

end Date

namespace Clock

variable {c d : Clock}

def valid (c : Clock) : Bool := c.hour < 24 && c.minute < 60 && c.second < 60 && c.micro < 1000000

theorem valid_iff : c.valid = true ↔
    c.hour < 24 ∧ c.minute < 60 ∧ c.second < 60 ∧ c.micro < 1000000 := by
  simp [valid, and_assoc]

def Earlier (c d : Clock) : Prop :=
  c.hour < d.hour ∨ c.hour = d.hour ∧ (c.minute < d.minute ∨ c.minute = d.minute ∧
    (c.second < d.second ∨ c.second = d.second ∧ c.micro < d.micro))

theorem earlier_trichotomy (c d : Clock) : c.Earlier d ∨ c = d ∨ d.Earlier c := by
  obtain ⟨h, m, s, k⟩ := c
  obtain ⟨h', m', s', k'⟩ := d
  simp only [Earlier, mk.injEq]
  omega

theorem Earlier.micros_lt (hc : c.valid) (h : c.Earlier d) : c.micros < d.micros := by
  obtain ⟨-, hminute, hsecond, hmicro⟩ := valid_iff.1 hc
  unfold Earlier at h
  unfold micros
  omega

theorem Earlier.iso_lt (hd : d.valid) (h : c.Earlier d) : c.iso.toList < d.iso.toList := by
  obtain ⟨hhour, hminute, hsecond, hmicro⟩ := valid_iff.1 hd
  simp only [iso, String.toList_ofList, List.append_assoc, List.cons_append]
  rcases h with h | ⟨hsame, h | ⟨hsame', h | ⟨hsame'', h⟩⟩⟩
  · exact padded_append_lt (by decide) (by omega) h
  · rw [hsame]
    exact List.append_left_lt (cons_lt_cons ':' (padded_append_lt (by decide) (by omega) h))
  · rw [hsame, hsame']
    exact List.append_left_lt (cons_lt_cons ':' (List.append_left_lt
      (cons_lt_cons ':' (padded_append_lt (by decide) (by omega) h))))
  · rw [hsame, hsame', hsame'', if_neg (show d.micro ≠ 0 by omega)]
    refine List.append_left_lt (cons_lt_cons ':' (List.append_left_lt
      (cons_lt_cons ':' (List.append_left_lt ?_))))
    split
    · exact List.nil_lt_cons _ _
    · exact cons_lt_cons '.' (padded_lt (by decide) hmicro h)

end Clock

namespace Moment

variable {m n : Moment}

def valid (m : Moment) : Bool := m.date.valid && m.clock.valid

def Earlier (m n : Moment) : Prop :=
  m.date.Earlier n.date ∨ m.date = n.date ∧ m.clock.Earlier n.clock

theorem earlier_trichotomy (m n : Moment) : m.Earlier n ∨ m = n ∨ n.Earlier m := by
  obtain ⟨d, c⟩ := m
  obtain ⟨d', c'⟩ := n
  rcases d.earlier_trichotomy d' with h | rfl | h
  · exact .inl (.inl h)
  · rcases c.earlier_trichotomy c' with h | rfl | h
    · exact .inl (.inr ⟨rfl, h⟩)
    · exact .inr (.inl rfl)
    · exact .inr (.inr (.inr ⟨rfl, h⟩))
  · exact .inr (.inr (.inl h))

theorem Earlier.micros_lt (hm : m.valid) (hn : n.valid) (h : m.Earlier n) : m.micros < n.micros := by
  obtain ⟨hdate, hclock⟩ := Bool.and_eq_true_iff.1 hm
  unfold micros
  rcases h with h | ⟨hsame, h⟩
  · have hday := h.ordinal_lt hdate (Bool.and_eq_true_iff.1 hn).1
    obtain ⟨hhour, hminute, hsecond, hmicro⟩ := Clock.valid_iff.1 hclock
    unfold microsPerDay Clock.micros
    omega
  · have hlt := h.micros_lt hclock
    rw [hsame]
    omega

theorem Earlier.text_lt (hn : n.valid) (h : m.Earlier n) : m.text.toList < n.text.toList := by
  obtain ⟨hdate, hclock⟩ := Bool.and_eq_true_iff.1 hn
  simp only [text, String.toList_append, List.append_assoc]
  rcases h with h | ⟨hsame, h⟩
  · exact h.iso_lt hdate _ _
  · rw [hsame]
    exact List.append_left_lt (List.append_left_lt (h.iso_lt hclock))

end Moment

theorem ofTexts_lt {s t : String} (h : s.toList < t.toList) :
    ofTexts s t = -1 ∧ ofTexts t s = 1 := by
  have hst : s < t := String.lt_iff_toList_lt.2 h
  have hts : ofTexts s t = -1 := if_pos hst
  exact ⟨hts, by rw [ofTexts_flip s t, hts]; rfl⟩

def ofDays (m n : Int) : Int :=
  (if Ordering.gt.ofInts m n then 1 else 0) - (if Ordering.lt.ofInts m n then 1 else 0)

theorem ofDays_lt {m n : Nat} (h : m < n) : ofDays m n = -1 ∧ ofDays n m = 1 := by
  have hnot : ¬ (n : Int) < m := by omega
  have hlt : (m : Int) < n := by omega
  constructor <;> simp [ofDays, Ordering.ofInts, Ordering.holds, hnot, hlt]

theorem ofDays_self (m : Int) : ofDays m m = 0 := by
  simp [ofDays, Ordering.ofInts, Ordering.holds]

theorem Date.ofDays_eq {d e : Date} (hd : d.valid) (he : e.valid) :
    ofDays d.ordinal e.ordinal = ofTexts d.iso e.iso := by
  have hlt : ∀ {d e : Date}, e.valid → d.Earlier e → d.iso.toList < e.iso.toList := by
    intro d e he h
    simpa using h.iso_lt he [] []
  rcases d.earlier_trichotomy e with h | rfl | h
  · rw [(ofDays_lt (h.ordinal_lt hd he)).1, (ofTexts_lt (hlt he h)).1]
  · rw [ofDays_self, ofTexts_eq_zero.2 rfl]
  · rw [(ofDays_lt (h.ordinal_lt he hd)).2, (ofTexts_lt (hlt hd h)).2]

theorem Moment.ofDays_eq {m n : Moment} (hm : m.valid) (hn : n.valid) :
    ofDays m.micros n.micros = ofTexts m.text n.text := by
  rcases m.earlier_trichotomy n with h | rfl | h
  · rw [(ofDays_lt (h.micros_lt hm hn)).1, (ofTexts_lt (h.text_lt hn)).1]
  · rw [ofDays_self, ofTexts_eq_zero.2 rfl]
  · rw [(ofDays_lt (h.micros_lt hn hm)).2, (ofTexts_lt (h.text_lt hm)).2]

section Keys

variable {a b : Value} {n : Int}

def dated : Value → Bool
  | date d => d.valid
  | moment m | timestamp m => m.valid
  | _ => true

theorem compareKeys_dates (h : sameDateKind a b = true) (ha : a.dated) (hb : b.dated) :
    a.compareKeys b = .ok (standing a b) := by
  unfold sameDateKind at h
  split at h
  · next d e => exact congrArg Except.ok (Date.ofDays_eq ha hb)
  · next m n => exact congrArg Except.ok (Moment.ofDays_eq ha hb)
  · next m n => exact congrArg Except.ok (Moment.ofDays_eq ha hb)
  · cases h

theorem compareKeys_dated (ha : a.dated) (hb : b.dated) :
    a.compareKeys b = .ok (standing a b) ∨ ∃ f, Refused a b f ∧ a.compareKeys b = .error f := by
  cases h : sameDateKind a b with
  | true => exact .inl (compareKeys_dates h ha hb)
  | false => exact compareKeys_eq h

theorem compareKeys_ok (ha : a.dated) (hb : b.dated) (h : a.compareKeys b = .ok n) :
    n = standing a b := by
  rcases compareKeys_dated ha hb with hok | ⟨f, -, herror⟩
  · rw [hok] at h
    exact (Except.ok.inj h).symm
  · rw [herror] at h
    cases h

def isKey : Value → Bool
  | null | bool _ | int _ | float _ | text _ | noTime => true
  | date d => d.valid
  | moment m | timestamp m => m.valid
  | _ => false

theorem dated_of_isKey (h : a.isKey) : a.dated := by
  cases a <;> first | exact h | rfl

theorem compareKeys_of_isKey (ha : a.isKey) (hb : b.isKey) :
    a.compareKeys b = .ok (standing a b) := by
  have hplain : ∀ {v : Value}, v.isKey → v.isDecimal = false ∧ v.isScalar = false := by
    intro v hv
    unfold isKey at hv
    split at hv
    any_goals exact ⟨rfl, rfl⟩
    cases hv
  rcases compareKeys_dated (dated_of_isKey ha) (dated_of_isKey hb) with h | ⟨f, hrefused, -⟩
  · exact h
  · obtain ⟨x, y, -, -, ⟨hnan, -⟩ | ⟨hscalar, -⟩⟩ := hrefused
    · rw [(hplain ha).1, (hplain hb).1] at hnan
      cases hnan
    · rw [(hplain ha).2, (hplain hb).2] at hscalar
      cases hscalar

end Keys

end SheetTemplate.Value
