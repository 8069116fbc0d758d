import Mathlib.Data.List.InsertIdx
import SheetTemplate.Fill.Sheets
import SheetTemplate.Proofs.Fill.Outcome
import SheetTemplate.Proofs.Workbook.Slots

namespace SheetTemplate

namespace Workbook

variable {w v : Workbook} {origin title anchor : String} {x y : Sheet} {front back : List Sheet}

theorem titles_eq_append (h : w.sheets = front ++ back) :
    w.titles = front.map (·.title) ++ back.map (·.title) := by
  rw [titles, h, List.map_append]

theorem find?_of_insert (hw : w.sheets = front ++ back) (hv : v.sheets = front ++ y :: back)
    (hy : y.title ∉ w.titles) (title : String) :
    v.find? title = if title = y.title then some y else w.find? title := by
  rw [find?, find?, hv, hw, List.find?_append, List.find?_append, List.find?_cons]
  by_cases h : title = y.title
  · have hfront : front.find? (·.title == title) = none := by
      rw [List.find?_eq_none]
      intro x hx htitle
      apply hy
      rw [titles, hw, List.mem_map]
      exact ⟨x, List.mem_append_left _ hx, (eq_of_beq htitle).trans h⟩
    rw [hfront, h, beq_self_eq_true, if_pos rfl]
    rfl
  · rw [beq_false_of_ne (Ne.symm h), if_neg h]

theorem titles_perm (hw : w.sheets = front ++ back) (hv : v.sheets = front ++ y :: back) :
    v.titles.Perm (y.title :: w.titles) := by
  rw [titles, titles, hw, hv]
  exact List.perm_middle.map _

def placeAfter (w : Workbook) (anchor : String) : Nat :=
  ((w.place? anchor).map (· + 1)).getD w.sheets.length

theorem placeAfter_le (w : Workbook) (anchor : String) :
    w.placeAfter anchor ≤ w.sheets.length := by
  rw [placeAfter]
  cases hj : w.place? anchor with
  | none => exact Nat.le_refl _
  | some j => exact (List.findIdx?_eq_some_iff_getElem.1 hj).1

theorem sheets_moveLastAfter (hv : v.sheets = w.sheets ++ [y]) (anchor : String) :
    (v.moveLastAfter anchor).sheets = w.sheets.insertIdx (w.placeAfter anchor) y := by
  have hlast : v.sheets.getLast? = some y := by rw [hv, List.getLast?_concat]
  have hrest : v.sheets.dropLast = w.sheets := by rw [hv, List.dropLast_concat]
  have hplace : v.place? anchor =
      (w.place? anchor).or (if y.title = anchor then some w.sheets.length else none) := by
    rw [place?, hv, List.findIdx?_append]
    simp [List.findIdx?_cons, place?]
  cases hj : w.place? anchor with
  | some j =>
    have hlt : j + 1 ≤ w.sheets.length := (List.findIdx?_eq_some_iff_getElem.1 hj).1
    simp [moveLastAfter, hlast, hrest, hplace, hj, placeAfter, Nat.min_eq_left hlt]
  | none =>
    -- the sheet stays where it is, whether it is its own anchor or there is none
    by_cases hy : y.title = anchor
    · simp [moveLastAfter, hlast, hrest, hplace, hj, placeAfter, hy]
    · simp [moveLastAfter, hplace, hj, placeAfter, hy, hv]

theorem exists_of_placeAfter (h : anchor ∈ w.titles) (hw : w.sheets = front ++ back)
    (hfront : front.length = w.placeAfter anchor) :
    ∃ before x, front = before ++ [x] ∧ x.title = anchor ∧ ∀ z ∈ before, z.title ≠ anchor := by
  obtain ⟨z, hz, hza⟩ := List.mem_map.1 h
  rw [placeAfter, place?] at hfront
  cases hk : w.sheets.findIdx? (·.title == anchor) with
  | none => exact absurd (beq_iff_eq.2 hza) (by simpa using List.findIdx?_eq_none_iff.1 hk z hz)
  | some k =>
    rw [hk, Option.map_some, Option.getD_some] at hfront
    obtain ⟨hlt, htitle, hbefore⟩ := List.findIdx?_eq_some_iff_getElem.1 hk
    have htake : front = w.sheets.take (k + 1) := by rw [hw, ← hfront, List.take_left]
    refine ⟨w.sheets.take k, w.sheets[k], by rw [htake, List.take_append_getElem hlt],
      eq_of_beq htitle, ?_⟩
    intro z hz
    obtain ⟨i, hi, rfl⟩ := List.mem_take_iff_getElem.1 hz
    have := hbefore i (by omega)
    simpa using this

def passingTitle (titles : List String) (origin : String) : String :=
  freeTitle titles (origin ++ " Copy")

def givenTitle (titles : List String) (origin title : String) : String :=
  let passing := passingTitle titles origin
  if passing = title then title else freeTitle (titles ++ [passing]) title

theorem change_append {f : Sheet → Sheet} (hy : y.title = title)
    (hfront : ∀ z ∈ front, z.title ≠ title) :
    modify.change title f (front ++ y :: back) = front ++ f y :: back := by
  induction front with
  | nil => rw [List.nil_append, modify.change, if_pos (beq_iff_eq.2 hy)]; rfl
  | cons z front ih =>
    rw [List.cons_append, modify.change, if_neg (by simpa using hfront z List.mem_cons_self),
      ih fun v hv => hfront v (List.mem_cons_of_mem z hv)]
    rfl

theorem find?_append (hw : w.sheets = front ++ y :: back) (hfront : ∀ z ∈ front, z.title ≠ y.title) :
    w.find? y.title = some y := by
  have hnone : front.find? (·.title == y.title) = none :=
    List.find?_eq_none.2 fun z hz => by simpa using hfront z hz
  rw [find?, hw, List.find?_append, hnone]
  simp

theorem place_unique {before after : List Sheet} (h : front ++ x :: back = before ++ y :: after)
    (hx : x.title = title) (hy : y.title = title) (hfront : ∀ z ∈ front, z.title ≠ title)
    (hbefore : ∀ z ∈ before, z.title ≠ title) : front = before ∧ x = y ∧ back = after := by
  have hcut : ∀ {l m : List Sheet} {z : Sheet}, z.title = title → (∀ v ∈ l, v.title ≠ title) →
      (l ++ z :: m).takeWhile (·.title != title) = l := by
    intro l m z hz hl
    rw [List.takeWhile_append_of_pos fun v hv => by simpa using hl v hv, List.takeWhile_cons]
    simp [hz]
  have hsame : front = before := by rw [← hcut hx hfront, h, hcut hy hbefore]
  rw [hsame] at h
  obtain ⟨hxy, hrest⟩ := List.cons.inj (List.append_cancel_left h)
  exact ⟨hsame, hxy, hrest⟩

theorem title_ne_of_nodup (hw : w.sheets = front ++ y :: back) (hnodup : w.titles.Nodup) :
    ∀ z ∈ front, z.title ≠ y.title := by
  intro z hz htitle
  rw [titles, hw, List.map_append, List.nodup_append] at hnodup
  exact hnodup.2.2 _ (List.mem_map_of_mem hz) _ (List.mem_map_of_mem List.mem_cons_self) htitle

theorem sheets_showActive : w.showActive.sheets = w.sheets := by
  have hfirst : (showActive.firstVisible w).sheets = w.sheets := by
    unfold showActive.firstVisible
    split
    · rfl
    · rfl
  unfold showActive
  split
  · split
    · exact hfirst
    · rfl
  · exact hfirst

structure Copied (w v : Workbook) (x : Sheet) (given anchor : String) : Prop where
  sheets : ∃ front back, w.sheets = front ++ back ∧
    v.sheets = front ++ x.duplicate given :: back ∧
    (anchor ∈ w.titles → ∃ before y, front = before ++ [y] ∧ y.title = anchor ∧
      ∀ z ∈ before, z.title ≠ anchor)

def withCopy (w : Workbook) (x : Sheet) (title anchor : String) : Workbook :=
  ((w.addCopy x).retitleLast title).moveLastAfter anchor

theorem sheets_retitleLast_addCopy (hx : x.title = origin) (title : String) :
    ((w.addCopy x).retitleLast title).sheets =
      w.sheets ++ [x.duplicate (givenTitle w.titles origin title)] := by
  rw [retitleLast, addCopy, hx, List.getLast?_concat]
  dsimp only
  rw [List.dropLast_concat]
  simp only [titles, List.map_append, List.map_cons, List.map_nil, Sheet.duplicate, givenTitle,
    passingTitle, beq_iff_eq]
  congr

theorem sheets_withCopy (hx : x.title = origin) (title anchor : String) :
    (w.withCopy x title anchor).sheets = w.sheets.insertIdx (w.placeAfter anchor)
      (x.duplicate (givenTitle w.titles origin title)) :=
  sheets_moveLastAfter (sheets_retitleLast_addCopy hx title) anchor

theorem copied_withCopy (hx : w.find? origin = some x) (title anchor : String) :
    Copied w (w.withCopy x title anchor) x (givenTitle w.titles origin title) anchor := by
  have hsheets := sheets_withCopy (w := w) (w.find?_title hx) title anchor
  obtain ⟨front, back, hw, hlength, hinsert⟩ := List.exists_of_modifyTailIdx
    (List.cons (x.duplicate (givenTitle w.titles origin title))) (w.placeAfter_le anchor)
  exact ⟨front, back, hw, hsheets.trans hinsert, fun h => exists_of_placeAfter h hw hlength⟩

end Workbook

open Workbook

namespace FillM

variable {s t : FillState} {origin title : String} {after? : Option String}

def anchorOf (origin : String) (after? : Option String) : String :=
  (after?.filter fun a => !a.isEmpty).getD origin

theorem copySheet_eq_ok (h : exec (copySheet origin title after?) s = (.ok (), t)) :
    ∃ x, s.book.find? origin = some x ∧
      t = { s with
        book := s.book.withCopy x title (anchorOf origin after?)
        deleted := s.deleted.filter (· != title) } ∧
      Copied s.book t.book x (givenTitle s.book.titles origin title) (anchorOf origin after?) := by
  obtain ⟨_, _, hget, h⟩ := bind_eq_ok.1 h
  cases hget
  split at h
  · cases h
  · next x hx =>
    obtain ⟨_, _, hbook, h⟩ := bind_eq_ok.1 h
    cases hbook
    dsimp only at h
    split at h
    · obtain ⟨_, _, hthrow, -⟩ := bind_eq_ok.1 h
      cases hthrow
    · obtain ⟨_, _, hbook, h⟩ := bind_eq_ok.1 h
      cases hbook
      obtain ⟨_, _, hget, h⟩ := bind_eq_ok.1 h
      cases hget
      split at h
      · cases h
      · obtain ⟨_, _, hbook, h⟩ := bind_eq_ok.1 h
        cases hbook
        cases h
        exact ⟨x, hx, rfl, copied_withCopy hx _ _⟩

end FillM

end SheetTemplate
