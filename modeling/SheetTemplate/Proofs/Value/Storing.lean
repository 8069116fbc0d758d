import SheetTemplate.Value.Stored

namespace SheetTemplate

open Number

namespace Value

variable {v : Value}

inductive IsAbsent : Value → Prop
  | null : IsAbsent .null
  | float {x : Float} (h : isNaN x = true) : IsAbsent (.float x)
  | float64 {x : Float} (h : isNaN x = true) : IsAbsent (.scalar (.float64 x))
  | float32 {x : Float} (h : isNaN x = true) : IsAbsent (.scalar (.float32 x))
  | noTime : IsAbsent .noTime
  | noArrayTime : IsAbsent (.scalar .noTime)

inductive IsHeld : Value → Prop
  | text (s : String) : IsHeld (.text s)
  | int (n : Int) : IsHeld (.int n)
  | float (x : Float) : IsHeld (.float x)
  | bool (b : Bool) : IsHeld (.bool b)
  | decimal (d : Decimal) : IsHeld (.decimal d)
  | moment (m : Moment) : IsHeld (.moment m)
  | date (d : Date) : IsHeld (.date d)
  | clock (c : Clock) : IsHeld (.clock c)
  | duration (micros : Int) : IsHeld (.duration micros)
  | link (url display : String) : IsHeld (.link url display)

theorem stored_of_isHeld (h : v.IsHeld) (hpresent : ¬ v.IsAbsent) : v.stored = v := by
  cases h with
  | float x =>
    have hx : ¬ isNaN x = true := fun hx => hpresent (.float hx)
    exact if_neg hx
  | _ => rfl

theorem stored_cases (v : Value) :
    v.stored = .null ∨ v.stored.IsHeld ∧ ¬ v.stored.IsAbsent := by
  rw [stored]
  split
  case h_3 x _ =>
    split
    · exact .inl rfl
    · next hx =>
      refine .inr ⟨.float x, fun habsent => ?_⟩
      cases habsent with
      | float h => exact hx h
  case h_1 | h_2 => exact .inl rfl
  all_goals exact .inr ⟨by constructor, nofun⟩

theorem isNaN_of_stored_float {x : Float} (h : (Value.float x).stored = .null) :
    isNaN x = true := by
  cases hx : isNaN x with
  | true => rfl
  | false =>
    have hpresent : ¬ (Value.float x).IsAbsent := by
      intro habsent
      cases habsent with
      | float hnan => cases hx.symm.trans hnan
    cases (stored_of_isHeld (.float x) hpresent).symm.trans h

theorem isAbsent_of_stored (h : v.stored = .null) : v.IsAbsent := by
  cases v with
  | null => exact .null
  | float x => exact .float (isNaN_of_stored_float h)
  | noTime => exact .noTime
  | scalar s =>
    cases s with
    | float64 x => exact .float64 (isNaN_of_stored_float h)
    | float32 x => exact .float32 (isNaN_of_stored_float h)
    | noTime => exact .noArrayTime
    | _ => cases h
  | _ => cases h

theorem stored_noArrayTime : (Value.scalar .noTime).stored = .text "None" := rfl

theorem stored_eq_null_iff (v : Value) : v.stored = .null ↔ v.IsAbsent ∧ v ≠ .scalar .noTime := by
  constructor
  · intro h
    refine ⟨isAbsent_of_stored h, ?_⟩
    rintro rfl
    cases stored_noArrayTime.symm.trans h
  · rintro ⟨habsent, hne⟩
    cases habsent with
    | null => rfl
    | float h => exact if_pos h
    | float64 h => exact if_pos h
    | float32 h => exact if_pos h
    | noTime => rfl
    | noArrayTime => exact absurd rfl hne

/-- Null is stored for all that is absent but for the missing time of array data, for which the text
None is stored. Else the stored value is one that cells have, and storing it again changes nothing. -/
theorem stored_sound (v : Value) :
    (v.stored = .null ↔ v.IsAbsent ∧ v ≠ .scalar .noTime) ∧
      (v = .scalar .noTime → v.stored = .text "None") ∧
      (v.stored ≠ .null → v.stored.IsHeld ∧ ¬ v.stored.IsAbsent) ∧
      (v.IsHeld → ¬ v.IsAbsent → v.stored = v) ∧ v.stored.stored = v.stored := by
  refine ⟨stored_eq_null_iff v, ?_, (stored_cases v).resolve_left, stored_of_isHeld, ?_⟩
  · rintro rfl
    exact stored_noArrayTime
  · rcases stored_cases v with hnull | ⟨hheld, hpresent⟩
    · rw [hnull]
      rfl
    · exact stored_of_isHeld hheld hpresent

end Value

end SheetTemplate
