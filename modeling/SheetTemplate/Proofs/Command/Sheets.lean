import SheetTemplate.Proofs.Fill.Meaning
import SheetTemplate.Proofs.Fill.Retaining
import SheetTemplate.Proofs.Workbook.Numbering

namespace SheetTemplate

open FillM FillState Number Workbook

def Workbook.Grants (titles : List String) (origin title : String) : Prop :=
  passingTitle titles origin ∉ titles ∧ givenTitle titles origin title = title

instance (titles : List String) (origin title : String) : Decidable (Grants titles origin title) :=
  inferInstanceAs (Decidable (_ ∧ _))

def SheetPolicy.kept : SheetPolicy → Sheet → List Sheet
  | .keep, x => [x]
  | .hide, x => [{ x with hidden := true }]
  | .delete, _ => []

namespace FillM

variable {s t : FillState} {x : Sheet} {front back : List Sheet}

theorem deleteSheet_sheets (hs : s.book.sheets = front ++ x :: back)
    (hfront : ∀ y ∈ front, y.title ≠ x.title) (h : exec (deleteSheet x.title) s = (.ok (), t)) :
    t.book.sheets = front ++ back ∧ t.retired = s.retired := by
  obtain ⟨_, _, hget, h⟩ := bind_eq_ok.1 h
  cases hget
  rw [find?_append hs hfront] at h
  cases h
  refine ⟨?_, rfl⟩
  rw [sheets_showActive, Workbook.remove, hs,
    List.eraseP_append_right _ fun y hy => by simpa using hfront y hy]
  simp

theorem setHidden_sheets {hidden : Bool} (hs : s.book.sheets = front ++ x :: back)
    (hfront : ∀ y ∈ front, y.title ≠ x.title)
    (h : exec (setHidden x.title hidden) s = (.ok (), t)) :
    t.book.sheets = front ++ { x with hidden := hidden } :: back ∧ t.retired = s.retired := by
  obtain ⟨_, _, hget, h⟩ := bind_eq_ok.1 h
  cases hget
  rw [find?_append hs hfront] at h
  cases h
  refine ⟨?_, rfl⟩
  rw [sheets_showActive, Workbook.setHidden, Workbook.modify, hs, change_append rfl hfront]

theorem retireSheet_sheets (hs : s.book.sheets = front ++ x :: back)
    (hfront : ∀ y ∈ front, y.title ≠ x.title) (h : exec (retireSheet x.title) s = (.ok (), t)) :
    t.book.sheets =
      front ++ ((if x.title ∈ s.retired then [x] else s.policy.kept x) ++ back) ∧
      t.retired = if x.title ∈ s.retired then s.retired else s.retired ++ [x.title] := by
  obtain ⟨_, _, hget, h⟩ := bind_eq_ok.1 h
  cases hget
  by_cases hretired : x.title ∈ s.retired
  · rw [if_pos (List.contains_iff_mem.2 hretired)] at h
    cases h
    rw [if_pos hretired, if_pos hretired]
    exact ⟨hs, rfl⟩
  · rw [if_neg (mt List.contains_iff_mem.1 hretired)] at h
    rw [if_neg hretired, if_neg hretired]
    obtain ⟨_, _, hset, h⟩ := bind_eq_ok.1 h
    cases hset
    cases hpolicy : s.policy with
    | keep =>
      rw [hpolicy] at h
      cases h
      exact ⟨hs, rfl⟩
    | hide =>
      rw [hpolicy] at h
      exact setHidden_sheets (s := { s with retired := _, policy := _ }) hs hfront h
    | delete =>
      rw [hpolicy] at h
      exact deleteSheet_sheets (s := { s with retired := _, policy := _ }) hs hfront h

end FillM

namespace EachSpec

def nameFor (sheet : String) (names : List String) (index : Nat) : String :=
  names[index]?.getD (sheet ++ "_" ++ showInt (index + 1))

def titlesFrom (sheet : String) (names existing : List String) (index : Nat) : Nat → List String
  | 0 => []
  | n + 1 =>
    SheetTitle.safe (nameFor sheet names index) existing ::
      titlesFrom sheet names (SheetTitle.safe (nameFor sheet names index) existing :: existing)
        (index + 1) n

variable {sheet : String} {names existing : List String} {index n : Nat}

theorem length_titlesFrom : (titlesFrom sheet names existing index n).length = n := by
  induction n generalizing existing index with
  | zero => rfl
  | succ n ih => rw [titlesFrom, List.length_cons, ih]

theorem getElem?_titlesFrom (sheet : String) (names existing : List String) (index : Nat) {i n : Nat}
    (hi : i < n) :
    (titlesFrom sheet names existing index n)[i]? = some (SheetTitle.safe
      (nameFor sheet names (index + i))
      (((titlesFrom sheet names existing index n).take i).reverse ++ existing)) := by
  induction n generalizing existing index i with
  | zero => omega
  | succ n ih =>
    cases i with
    | zero => rfl
    | succ i =>
      rw [titlesFrom, List.getElem?_cons_succ, ih _ _ (by omega), List.take_succ_cons,
        List.reverse_cons, List.append_assoc, show index + 1 + i = index + (i + 1) by omega]
      rfl

theorem title_of_made {pages : List Sheet} {page : Sheet} {i : Nat}
    (hmade : pages.map (·.title) = titlesFrom sheet names existing index n)
    (hpage : pages[i]? = some page) :
    page.title = SheetTitle.safe (nameFor sheet names (index + i))
      (((pages.take i).map (·.title)).reverse ++ existing) := by
  have hlength := congrArg List.length hmade
  rw [List.length_map, length_titlesFrom] at hlength
  have hget := getElem?_titlesFrom sheet names existing index (hlength ▸ (List.getElem?_eq_some_iff.1 hpage).1)
  rw [← hmade, List.getElem?_map, hpage] at hget
  rw [List.map_take]
  exact Option.some.inj hget

def turnValue (e : EachSpec) (item : Value) (index : Nat) : Value :=
  if (e.varIndex?.filter fun n => !n.isEmpty) = some e.var then .int index else item

theorem get?_turn (e : EachSpec) (c : Context) (item : Value) (index : Nat) :
    ((Guard.open c e.var e.varIndex?).set c item (some (.int index))).get? e.var =
      some (e.turnValue item index) := by
  simp only [Guard.get?_set, Meaning.item, turnValue]
  cases e.varIndex?.filter fun n => !n.isEmpty with
  | none => simp [Meaning.bind]
  | some n =>
    by_cases hn : e.var = n
    · simp [Meaning.bind, hn]
    · simp [Meaning.bind, hn, Ne.symm hn]

theorem get?_index (e : EachSpec) (c : Context) (item : Value) (index : Nat) {n : String}
    (hn : (e.varIndex?.filter fun n => !n.isEmpty) = some n) :
    ((Guard.open c e.var e.varIndex?).set c item (some (.int index))).get? n =
      some (.int index) := by
  simp [Guard.get?_set, Meaning.item, hn, Meaning.bind]

/-- One pass: the inner area is replayed on a copy of the template sheet `x`, at the row and the column
of the command and with the loop variable bound. This makes the sheet `page`, on which every cell that
the replay neither writes to nor covers is the one of the template sheet. -/
structure Pass (e : EachSpec) (h : FillHost) (a : Area) (target : CellRef) (x : Sheet) (index : Nat)
    (item : Value) (page : Sheet) (u v : FillState) (size : Size) : Prop where
  replayed : exec (a.replay h (target.onSheet page.title)) u = (.ok size, v)
  copied : u.book.find? page.title = some (x.duplicate page.title)
  made : v.book.find? page.title = some page
  bound : u.context.get? e.var = some (e.turnValue item index)
  counted : ∀ n, (e.varIndex?.filter fun n => !n.isEmpty) = some n →
    u.context.get? n = some (.int index)
  kept : ∃ new, v.journal = new ++ u.journal ∧ (∀ w ∈ new, w.target.sheet = page.title) ∧
    ∀ p, (∀ w ∈ new, w.target ≠ .ofPos page.title p) → page.slots[p]? ≠ some .covered →
      page.look? p = some ((x.look? p).getD (Cell.settled {}))

section Loop

variable {e : EachSpec} {h : FillHost} {a : Area} {target : CellRef} {x : Sheet} {item : Value}
  {s t : FillState} {size : Size} {title : String} {front back : List Sheet}

theorem pass_of_binding (hh : h.Tidy) (ha : a.Uses Command.OneSheet)
    (hs : s.book.sheets = front ++ x.duplicate title :: back) (hfront : ∀ y ∈ front, y.title ≠ title)
    (hrun : exec (binding e.var e.varIndex? item (some (.int index))
      (a.replay h (target.onSheet title))) s = (.ok size, t)) :
    ∃ page, page.title = title ∧ t.book.sheets = front ++ page :: back ∧ t.policy = s.policy ∧
      t.retired = s.retired ∧ ∃ u v, Pass e h a target x index item page u v size := by
  obtain ⟨v, hreplay, rfl⟩ := binding_eq_ok hrun
  have halters : Alters title _ v :=
    (hh.preserving.replay ha (fun _ _ => trivial) _ rfl).ends (alters_self title _) hreplay
  obtain ⟨page, rfl, hv⟩ := halters.sheets front _ back hs rfl hfront
  have hcopied : s.book.find? page.title = some (x.duplicate page.title) := find?_append hs hfront
  have hmade : v.book.find? page.title = some page := find?_append hv hfront
  have hkept : ∃ new, v.journal = new ++ s.journal ∧ (∀ w ∈ new, w.target.sheet = page.title) ∧
      ∀ p, (∀ w ∈ new, w.target ≠ .ofPos page.title p) → page.slots[p]? ≠ some .covered →
        page.look? p = some ((x.look? p).getD (Cell.settled {})) := by
    obtain ⟨new, hnew, hsheet⟩ := halters.grown
    refine ⟨new, hnew, hsheet, fun p hwritten hcovered => ?_⟩
    have hpage := look?_of_find? (r := .ofPos page.title p) hmade
    have hcopy := look?_of_find? (r := .ofPos page.title p) hcopied
    obtain ⟨new', hnew', hlook⟩ :=
      ((hh.steps (r := .ofPos page.title p)).replay ha _).apply hreplay
    obtain rfl := List.append_cancel_right (hnew.symm.trans hnew')
    rcases hlook with ⟨w, hw, hr⟩ | hnone | hsame
    · exact absurd hr (hwritten w hw)
    · rw [hpage] at hnone
      exact absurd (Sheet.look?_eq_none.1 hnone) hcovered
    · rw [hpage, hcopy, Sheet.look?_duplicate] at hsame
      exact hsame
  exact ⟨page, rfl, hv, halters.policy, halters.retired, _, v,
    { replayed := hreplay
      copied := hcopied
      made := hmade
      bound := e.get?_turn _ _ _
      counted := fun n hn => e.get?_index _ _ _ hn
      kept := hkept }⟩

theorem copySheet_after {y : Sheet} {previous : String}
    (hrun : exec (copySheet target.sheet title (some previous)) s = (.ok (), t))
    (hx : s.book.find? target.sheet = some x) (hs : s.book.sheets = front ++ y :: back)
    (hnodup : s.book.titles.Nodup) (hy : y.title = previous)
    (hprevious : previous = "" → previous = target.sheet)
    (hgrants : Grants s.book.titles target.sheet title) :
    t.book.sheets = front ++ y :: x.duplicate title :: back ∧ t.policy = s.policy ∧
      t.retired = s.retired := by
  obtain ⟨x', hx', ht, hcopied⟩ := copySheet_eq_ok hrun
  rw [hx] at hx'
  cases hx'
  have hanchor : anchorOf target.sheet (some previous) = previous := by
    by_cases hempty : previous = ""
    · rw [← hprevious hempty, hempty]
      rfl
    · simp [anchorOf, Option.filter, hempty]
  obtain ⟨front', back', hs', ht', hplace⟩ := hcopied.sheets
  rw [hanchor, hgrants.2] at *
  have hmem : y ∈ s.book.sheets := by
    rw [hs]
    exact List.mem_append_right _ List.mem_cons_self
  obtain ⟨before, z, rfl, hz, hbefore⟩ := hplace (hy ▸ List.mem_map_of_mem hmem)
  rw [List.append_assoc] at hs' ht'
  have hfront := title_ne_of_nodup hs hnodup
  rw [hy] at hfront
  obtain ⟨rfl, rfl, rfl⟩ := place_unique (hs.symm.trans hs') hy hz hfront hbefore
  refine ⟨ht', ?_, ?_⟩
  · rw [ht]
  · rw [ht]

-- By induction on the items: each pass changes only the sheet that it made, so that the template
-- sheet is copied as it was when the loop began.
theorem runSheets_pages (hh : h.Tidy) (ha : a.Uses Command.OneSheet) {names existing : List String}
    {previous : String} {last : Size} {items : List Value} {y : Sheet}
    (hrun : exec (e.runSheets ⟨a.start, a.size, a.replay h⟩ target names existing index previous last
      items) s = (.ok size, t))
    (hx : s.book.find? target.sheet = some x) (hs : s.book.sheets = front ++ y :: back)
    (hnodup : s.book.titles.Nodup) (hy : y.title = previous)
    (hprevious : previous = "" → previous = target.sheet) (hexisting : s.book.titles ⊆ existing)
    (hgrants : ∀ i title,
      (titlesFrom target.sheet names existing index items.length)[i]? = some title →
      Grants (front.map (·.title) ++ previous ::
        ((titlesFrom target.sheet names existing index items.length).take i ++
          back.map (·.title))) target.sheet title) :
    ∃ pages, t.book.sheets = front ++ y :: (pages ++ back) ∧
      pages.map (·.title) = titlesFrom target.sheet names existing index items.length ∧
      t.policy = s.policy ∧ t.retired = s.retired ∧
      ∀ i item page, items[i]? = some item → pages[i]? = some page →
        ∃ u v size, Pass e h a target x (index + i) item page u v size := by
  induction items generalizing s existing index previous last front y with
  | nil =>
    cases hrun
    exact ⟨[], hs, rfl, rfl, rfl, fun i item page hitem => absurd hitem (by simp)⟩
  | cons item rest ih =>
    obtain ⟨_, s₁, hcopy, hrun⟩ := bind_eq_ok.1 hrun
    obtain ⟨size', s₂, hturn, hrun⟩ := bind_eq_ok.1 hrun
    rw [List.length_cons, titlesFrom] at hgrants ⊢
    change exec (copySheet target.sheet (SheetTitle.safe (nameFor target.sheet names index) existing)
      (some previous)) s = _ at hcopy
    change exec (binding e.var e.varIndex? item (some (.int index)) (a.replay h (target.onSheet
      (SheetTitle.safe (nameFor target.sheet names index) existing)))) s₁ = _ at hturn
    change exec (e.runSheets _ target names
      (SheetTitle.safe (nameFor target.sheet names index) existing :: existing) (index + 1)
      (SheetTitle.safe (nameFor target.sheet names index) existing) size' rest) s₂ = _ at hrun
    have hfresh := SheetTitle.safe_not_mem (nameFor target.sheet names index) existing
    have hfilled := SheetTitle.safe_ne_empty (nameFor target.sheet names index) existing
    generalize SheetTitle.safe (nameFor target.sheet names index) existing = title at *
    have htitles : s.book.titles = front.map (·.title) ++ previous :: back.map (·.title) := by
      rw [titles_eq_append hs, List.map_cons, hy]
    have hnew : title ∉ s.book.titles := fun hmem => hfresh (hexisting hmem)
    have hgranted : Grants s.book.titles target.sheet title := by
      rw [htitles]
      exact hgrants 0 title rfl
    obtain ⟨hs₁, hpolicy₁, hretired₁⟩ :=
      copySheet_after hcopy hx hs hnodup hy hprevious hgranted
    rw [List.append_cons] at hs hs₁
    have hfront : ∀ z ∈ front ++ [y], z.title ≠ title := by
      rintro z hz rfl
      exact hnew (List.mem_map_of_mem (hs ▸ List.mem_append_left _ hz))
    -- The copy is filled in its place, and no other sheet is changed meanwhile.
    obtain ⟨page, rfl, hs₂, hpolicy₂, hretired₂, u, v, hpass⟩ :=
      pass_of_binding hh ha hs₁ hfront hturn
    -- What the induction asks for holds after the pass: titles that differ, and all of them taken.
    have hperm : s₂.book.titles.Perm (page.title :: s.book.titles) := titles_perm hs hs₂
    have hne : target.sheet ≠ page.title := by
      rintro heq
      exact hnew (heq ▸ (mem_titles.2 (by rw [hx]; rfl)))
    have hnodup₂ : s₂.book.titles.Nodup := hperm.nodup_iff.2 (List.nodup_cons.2 ⟨hnew, hnodup⟩)
    have hexisting₂ : s₂.book.titles ⊆ page.title :: existing :=
      fun z hz => List.cons_subset_cons _ hexisting (hperm.subset hz)
    have hgrants₂ : ∀ i title, (titlesFrom target.sheet names (page.title :: existing) (index + 1)
        rest.length)[i]? = some title →
        Grants ((front ++ [y]).map (·.title) ++ page.title ::
          ((titlesFrom target.sheet names (page.title :: existing) (index + 1) rest.length).take i ++
            back.map (·.title))) target.sheet title := by
      intro i title htitle
      have := hgrants (i + 1) title htitle
      rw [List.take_succ_cons] at this
      simpa [hy] using this
    obtain ⟨pages, ht, hmade, hpolicy, hretired, hrest⟩ := ih hrun
      (by rw [find?_of_insert hs hs₂ hnew, if_neg hne, hx]) hs₂ hnodup₂ rfl
      (fun hempty => absurd hempty hfilled) hexisting₂ hgrants₂
    refine ⟨page :: pages, ?_, by rw [List.map_cons, hmade], ?_, ?_, fun i x y hx hy => ?_⟩
    · rw [ht, List.append_assoc]
      rfl
    · rw [hpolicy, hpolicy₂, hpolicy₁]
    · rw [hretired, hretired₂, hretired₁]
    · cases i with
      | zero =>
        cases hx
        cases hy
        exact ⟨u, v, size', hpass⟩
      | succ i =>
        rw [Nat.add_comm i 1, ← Nat.add_assoc]
        exact hrest i x y hx hy

end Loop

def namesOf (h : FillHost) (names : String) : FillM (List Value) := do
  let v ← evaluate h "multisheet" names
  itemsOr v (.sheetsNotList names) names "each" "multisheet"

theorem runMultisheet_eq_ok {e : EachSpec} {h : FillHost} {inner : Inner} {text : String}
    {items : List Value} {target : CellRef} {s t : FillState} {size : Size}
    (hrun : exec (runMultisheet h e inner text items target) s = (.ok size, t)) :
    ∃ values, ∃ u v w : FillState, exec (namesOf h text) s = (.ok values, u) ∧
      exec (e.runSheets inner target (values.map Value.shown) u.book.titles 0 target.sheet .zero
        items) u = (.ok size, v) ∧
      Untouched v w ∧ exec (retireSheet target.sheet) w = (.ok (), t) := by
  obtain ⟨value, s₁, hvalue, hrun⟩ := bind_eq_ok.1 hrun
  obtain ⟨values, u, hvalues, hrun⟩ := bind_eq_ok.1 hrun
  obtain ⟨_, _, hget, hrun⟩ := bind_eq_ok.1 hrun
  cases hget
  obtain ⟨_, v, hsheets, hrun⟩ := bind_eq_ok.1 hrun
  obtain ⟨_, _, hlog, hrun⟩ := bind_eq_ok.1 hrun
  cases hlog
  obtain ⟨_, _, hretire, hrun⟩ := bind_eq_ok.1 hrun
  cases hrun
  refine ⟨values, u, v, _, bind_eq_ok.2 ⟨value, s₁, hvalue, hvalues⟩, hsheets, ?_, hretire⟩
  exact ⟨rfl, rfl, rfl, rfl⟩

def withMade (origin : String) (made : List String) : List String → List String
  | [] => []
  | title :: rest =>
    if title = origin then title :: (made ++ rest) else title :: withMade origin made rest

theorem withMade_append {origin : String} {front : List String} (h : origin ∉ front)
    (made back : List String) :
    withMade origin made (front ++ origin :: back) = front ++ origin :: (made ++ back) := by
  induction front with
  | nil => exact if_pos rfl
  | cons title rest ih =>
    rw [List.mem_cons, not_or] at h
    rw [List.cons_append, withMade, if_neg (Ne.symm h.1), ih h.2]
    rfl

/-- Each copy of the sheet `origin` is given the title that is asked for. -/
def GrantsEach (titles : List String) (origin : String) (made : List String) : Prop :=
  ∀ i : Fin made.length, Grants (withMade origin (made.take i) titles) origin made[i]

instance (titles : List String) (origin : String) (made : List String) :
    Decidable (GrantsEach titles origin made) :=
  inferInstanceAs (Decidable (∀ _ : Fin _, _))

/-- A command that makes a sheet for each item puts them in right after the template sheet, in the order
of the items, and leaves the others in theirs. It retires the template sheet, unless one of its title
was retired before. -/
theorem run_makes_sheets {e : EachSpec} {h : FillHost} {a : Area} {target : CellRef} {text : String}
    {items values : List Value} {s s₁ s₂ t : FillState} {size : Size} (hh : h.Tidy)
    (ha : a.Uses Command.OneSheet) (htext : e.multisheet? = some text)
    (hitems : exec (e.resolve h) s = (.ok items, s₁)) (hne : items ≠ [])
    (hnames : exec (namesOf h text) s₁ = (.ok values, s₂)) (hnodup : s.book.titles.Nodup)
    (hgrants : GrantsEach s.book.titles target.sheet (titlesFrom target.sheet
      (values.map Value.shown) s.book.titles 0 items.length))
    (hrun : exec (e.run h (some ⟨a.start, a.size, a.replay h⟩) target) s = (.ok size, t)) :
    ∃ front x pages back,
      s.book.sheets = front ++ x :: back ∧ x.title = target.sheet ∧
      t.book.sheets = front ++
        ((if target.sheet ∈ s.retired then [x] else s.policy.kept x) ++ (pages ++ back)) ∧
      t.retired =
        (if target.sheet ∈ s.retired then s.retired else s.retired ++ [target.sheet]) ∧
      pages.length = items.length ∧
      ∀ i item page, items[i]? = some item → pages[i]? = some page →
        page.title = SheetTitle.safe (nameFor target.sheet (values.map Value.shown) i)
          (((pages.take i).map (·.title)).reverse ++ s.book.titles) ∧
        ∃ u v size, Pass e h a target x i item page u v size := by
  rw [EachSpec.run, bind_eq_ok] at hrun
  obtain ⟨_, _, hresolve, hrun⟩ := hrun
  cases hitems.symm.trans hresolve
  rw [if_neg (by simpa using hne), htext] at hrun
  obtain ⟨_, u, v, w, hvalues, hsheets, hlogged, hretire⟩ := runMultisheet_eq_ok hrun
  cases hnames.symm.trans hvalues
  have hasked : Untouched s s₂ := by
    have hnamesOf : Leads Evaluated (namesOf h text) :=
      (leads_within (h.leads_evaluate _) _ _).bind fun _ => leads_itemsOr _ _ _ _ _
    exact untouched_of_evaluated (trans_of Evaluated ((e.leads_resolve h).apply hitems)
      (hnamesOf.apply hnames))
  -- There are items, so that a first copy was made, of a sheet that is there.
  obtain ⟨x, hx⟩ : ∃ x, s₂.book.find? target.sheet = some x := by
    obtain ⟨item, rest, rfl⟩ := List.exists_cons_of_ne_nil hne
    obtain ⟨_, _, hcopy, -⟩ := bind_eq_ok.1 hsheets
    obtain ⟨x, hx, -⟩ := copySheet_eq_ok hcopy
    exact ⟨x, hx⟩
  have htitle : x.title = target.sheet := s₂.book.find?_title hx
  obtain ⟨-, front, back, hs, hfront⟩ := List.find?_eq_some_iff_append.1 hx
  have hfront : ∀ z ∈ front, z.title ≠ x.title := by
    intro z hz
    have := hfront z hz
    simpa [htitle] using this
  have htitles : s.book.titles = front.map (·.title) ++ target.sheet :: back.map (·.title) := by
    rw [← hasked.book, titles_eq_append hs, List.map_cons, htitle]
  have hnot : target.sheet ∉ front.map (·.title) := by
    intro hmem
    obtain ⟨z, hz, hz'⟩ := List.mem_map.1 hmem
    exact hfront z hz (hz'.trans htitle.symm)
  -- Up to the template sheet the titles stand as they did, and the new ones follow it.
  have hgranted : ∀ i title, (titlesFrom target.sheet (values.map Value.shown) s.book.titles 0
      items.length)[i]? = some title →
      Grants (front.map (·.title) ++ target.sheet ::
        ((titlesFrom target.sheet (values.map Value.shown) s.book.titles 0 items.length).take i ++
          back.map (·.title))) target.sheet title := by
    intro i title hi
    obtain ⟨hlt, rfl⟩ := List.getElem?_eq_some_iff.1 hi
    rw [← withMade_append hnot, ← htitles]
    exact hgrants ⟨i, hlt⟩
  rw [← hasked.book] at hnodup hgranted
  obtain ⟨pages, hv, hmade, hpolicy, hretired, hpasses⟩ := runSheets_pages hh ha hsheets hx hs hnodup
    htitle (fun _ => rfl) (List.Subset.refl _) hgranted
  have hlength : pages.length = items.length := by
    rw [← List.length_map, hmade, length_titlesFrom]
  rw [← htitle] at hretire
  obtain ⟨ht, hagain⟩ := retireSheet_sheets (hlogged.book ▸ hv) hfront hretire
  rw [htitle, hlogged.retired, hretired, hasked.retired] at ht hagain
  rw [hlogged.policy, hpolicy, hasked.policy] at ht
  refine ⟨front, x, pages, back, by rw [← hasked.book, hs], htitle, ht, hagain, hlength, ?_⟩
  intro i item page hitem hpage
  have htitles := title_of_made hmade hpage
  have hpass := hpasses i item page hitem hpage
  rw [Nat.zero_add] at htitles hpass
  rw [hasked.book] at htitles
  exact ⟨htitles, hpass⟩

def sheetEach : EachSpec := { items := "items", var := "e", multisheet? := some "names" }

def sheetArea : Area := { start := ⟨"T", 0, 0⟩, size := ⟨1, 1⟩ }

def sheetState : FillState :=
  { FillState.ofWorkbook
      { sheets := [({ title := "T" } : Sheet).setCell ⟨0, 0⟩ { value := .text "${e}" },
          { title := "U" }] } with
    context := { data := [("items", .list [.text "x", .text "y"]), ("names", .list [.text "P/Q"])] } }

def sheetRun (e : EachSpec) : Except Failure Size × FillState :=
  exec (e.run {} (some ⟨sheetArea.start, sheetArea.size, sheetArea.replay {}⟩) ⟨"T", 0, 0⟩) sheetState

theorem sheetEach_makes_sheets :
    ({} : FillHost).Tidy ∧ sheetArea.Uses Command.OneSheet ∧ sheetState.book.titles.Nodup ∧
      (sheetRun sheetEach).2.book.titles = ["P_Q", "T_2", "U"] ∧
      ∃ front x pages back,
        sheetState.book.sheets = front ++ x :: back ∧ x.title = "T" ∧
        (sheetRun sheetEach).2.book.sheets = front ++ ([] ++ (pages ++ back)) ∧
        (sheetRun sheetEach).2.retired = ["T"] ∧ pages.length = 2 ∧
        ∀ page, pages[1]? = some page → ∃ item u v size,
          sheetEach.Pass {} sheetArea ⟨"T", 0, 0⟩ x 1 item page u v size := by
  have hh : ({} : FillHost).Tidy :=
    ⟨fun _ _ _ => keepsTo_pure _, fun _ _ _ => keepsTo_pure _, fun _ _ _ => keepsTo_pure _,
      fun _ _ => keepsTo_pure _⟩
  have ha : sheetArea.Uses Command.OneSheet := by simp [sheetArea, Area.Uses, Area.UsesIn]
  have hnodup : sheetState.book.titles.Nodup := by decide
  have hrun := eq_ok_of_toOption
    (show (sheetRun sheetEach).1.toOption = some ⟨1, 1⟩ by decide +kernel)
  have hshown : (exec (sheetEach.resolve {}) sheetState).1.toOption.map (List.map Value.shown) =
      some ["x", "y"] := by decide +kernel
  obtain ⟨items, hitems, hx⟩ := Option.map_eq_some_iff.1 hshown
  have hlength : items.length = 2 := by rw [← List.length_map, hx]; rfl
  have hne : items ≠ [] := by
    rintro rfl
    cases hlength
  have hasked : ((exec (namesOf {} "names") (exec (sheetEach.resolve {}) sheetState).2).1.toOption.map
      (List.map Value.shown)) = some ["P/Q"] := by decide +kernel
  obtain ⟨values, hvalues, hp⟩ := Option.map_eq_some_iff.1 hasked
  have hgrants : GrantsEach sheetState.book.titles "T"
      (titlesFrom "T" ["P/Q"] sheetState.book.titles 0 2) := by decide +kernel
  rw [← hp, ← hlength] at hgrants
  obtain ⟨front, x, pages, back, hs, htitle, ht, hretired, hpages, hpasses⟩ :=
    run_makes_sheets hh ha rfl (eq_ok_of_toOption hitems) hne (eq_ok_of_toOption hvalues) hnodup
      hgrants hrun
  refine ⟨hh, ha, hnodup, by decide +kernel, front, x, pages, back, hs, htitle, ht, hretired,
    hpages.trans hlength, fun page hpage => ?_⟩
  obtain ⟨item, hitem⟩ : ∃ item, items[1]? = some item :=
    ⟨_, List.getElem?_eq_getElem (by omega)⟩
  exact ⟨item, (hpasses 1 item page hitem hpage).2⟩

theorem namesake_shows_index :
    (exec ({ sheetEach with varIndex? := some "e" }.resolve {}) sheetState).1.toOption.map
        (List.map Value.shown) = some ["x", "y"] ∧
      ((sheetRun { sheetEach with varIndex? := some "e" }).2.book.content
        ⟨"P_Q", 0, 0⟩).value.shown = "0" ∧
      ((sheetRun sheetEach).2.book.content ⟨"P_Q", 0, 0⟩).value.shown = "x" := by
  decide +kernel

end EachSpec

end SheetTemplate
