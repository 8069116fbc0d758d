import SheetTemplate.Value.Basic

namespace SheetTemplate

abbrev Names := List (String × Value)

namespace Names

def find? (names : Names) (n : String) : Option Value := List.lookup n names

def contains (names : Names) (n : String) : Bool := names.any fun b => b.1 == n

def set : Names → String → Value → Names
  | [], n, v => [(n, v)]
  | b :: rest, n, v => if b.1 == n then (n, v) :: rest else b :: set rest n v

def erase (names : Names) (n : String) : Names := names.filter fun b => b.1 != n

def override (names : Names) : Names → Names
  | [] => names
  | (n, v) :: rest => (names.set n v).override rest

theorem find?_set (names : Names) (n m : String) (v : Value) :
    (names.set n v).find? m = if m == n then some v else names.find? m := by
  induction names with
  | nil => cases h : m == n <;> simp [set, find?, List.lookup_cons, h]
  | cons b rest ih =>
    obtain ⟨k, x⟩ := b
    unfold find? at ih ⊢
    by_cases hk : k = n
    · subst hk
      by_cases h : m = k
      · subst h; simp [set]
      · have hb : (m == k) = false := by simp [h]
        simp [set, List.lookup_cons, hb]
    · by_cases h : m = k
      · subst h
        simp [set, hk]
      · have hb : (m == k) = false := by simp [h]
        simp [set, hk, List.lookup_cons, hb, ih]

theorem find?_erase (names : Names) (n m : String) :
    (names.erase n).find? m = if m == n then none else names.find? m := by
  unfold find? erase
  induction names with
  | nil => simp
  | cons b rest ih =>
    obtain ⟨k, x⟩ := b
    by_cases hk : k = n
    · subst hk
      by_cases h : m = k
      · subst h; simpa [List.lookup_cons] using ih
      · have hb : (m == k) = false := by simp [h]
        simp only [bne_self_eq_false, Bool.false_eq_true, not_false_eq_true,
          List.filter_cons_of_neg, ih, hb, List.lookup_cons]
    · by_cases h : m = k
      · subst h
        simp [hk]
      · have hb : (m == k) = false := by simp [h]
        simp [hk, List.lookup_cons, hb, ih]

end Names

end SheetTemplate
