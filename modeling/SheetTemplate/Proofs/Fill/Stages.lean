import SheetTemplate.Proofs.Area.Built
import SheetTemplate.Proofs.Fill.Shown

namespace SheetTemplate

open FillM FillState

/-- A workbook as it is read from a file: the titles of its sheets differ, and what lies under a
merged block is covered. -/
structure Workbook.Regular (w : Workbook) : Prop where
  titles : w.titles.Nodup
  merged : ∀ s ∈ w.sheets, ∀ b ∈ s.merged, ∀ p ∈ b.hidden, s.slots[p]? = some .covered

namespace FillState

variable {w : Workbook}

theorem find?_filled (w : Workbook) (title : String) :
    Workbook.find? { w with sheets := w.sheets.map Sheet.filled } title =
      (w.find? title).map Sheet.filled :=
  w.find?_map Sheet.filled_title title

theorem ofWorkbook_template (w : Workbook) :
    (ofWorkbook w).template = .ofWorkbook (ofWorkbook w).book := rfl

theorem keyed_ofWorkbook (hw : w.Regular) : (ofWorkbook w).template.Keyed := by
  apply Template.keyed_ofWorkbook
  have : ∀ s ∈ w.sheets, s.filled.title = s.title := fun s _ => s.filled_title
  rw [Workbook.titles, List.map_map]
  exact (List.map_congr_left this).symm ▸ hw.titles

theorem sound_ofWorkbook (hw : w.Regular) : (ofWorkbook w).Sound := by
  intro r info hinfo
  rw [ofWorkbook_template, Template.cell?_ofWorkbook] at hinfo
  obtain ⟨slot, hslot, hkept⟩ := Option.bind_eq_some_iff.1 hinfo
  obtain ⟨sheet, hsheet, hslot'⟩ := Option.bind_eq_some_iff.1 hslot
  have hcell : slot ≠ .covered := by
    rintro rfl
    cases hkept
  refine ⟨?_, fun hcovers => ?_, fun hhides => ?_⟩
  · rw [sheet?, ofWorkbook]
    exact hsheet ▸ rfl
  · rw [Workbook.Covers, hslot] at hcovers
    cases hcovers
    exact hcell rfl
  · rw [ofWorkbook_template, Template.hides_ofWorkbook] at hhides
    obtain ⟨s, hs, b, hb, hp⟩ := hhides
    rw [hsheet] at hs
    cases hs
    rw [ofWorkbook, find?_filled] at hsheet
    obtain ⟨s, hfind, rfl⟩ := Option.map_eq_some_iff.1 hsheet
    rw [s.filled_merged] at hb
    have hcovered := hw.merged s (List.mem_of_find?_eq_some hfind) b hb r.pos hp
    rw [(s.covered_filled r.pos).2 hcovered] at hslot'
    cases hslot'
    exact hcell rfl

end FillState

namespace FillOptions

variable {o : FillOptions} {name : String} {c : Context} {streams : Streams} {book : Workbook}
  {roots : List Area} {s t : FillState}

theorem process_eq : o.process name c streams book =
    match exec (o.build c streams) (o.opened name book) with
    | (.error f, s) => (.error f, s, none)
    | (.ok roots, s) =>
      ((exec (o.fillAreas roots) s).1, (exec (o.fillAreas roots) s).2,
        some ⟨(exec (o.fillAreas roots) s).2, roots⟩) := rfl

theorem process_eq_ok :
    o.process name c streams book = (.ok (), t, some ⟨t, roots⟩) ↔
      ∃ s, exec (o.build c streams) (o.opened name book) = (.ok roots, s) ∧
        exec (o.fillAreas roots) s = (.ok (), t) := by
  rw [process_eq]
  rcases exec (o.build c streams) (o.opened name book) with ⟨f | built, s⟩
  · simp
  · simp only [Prod.mk.injEq, Option.some.injEq, Filled.mk.injEq, Except.ok.injEq]
    constructor
    · rintro ⟨hr, ht, -, rfl⟩
      exact ⟨s, ⟨rfl, rfl⟩, Prod.ext hr ht⟩
    · rintro ⟨_, ⟨rfl, rfl⟩, h⟩
      simp [h]

theorem process_of_toOption (h : (o.process name c streams book).1.toOption = some ()) :
    ∃ roots, o.process name c streams book =
      (.ok (), (o.process name c streams book).2.1,
        some ⟨(o.process name c streams book).2.1, roots⟩) := by
  rw [process_eq] at h ⊢
  generalize exec (o.build c streams) (o.opened name book) = built at h ⊢
  rcases built with ⟨f | roots, s⟩
  · cases h
  · refine ⟨roots, ?_⟩
    dsimp only at h ⊢
    generalize exec (o.fillAreas roots) s = filled at h ⊢
    rcases filled with ⟨f | _, t⟩
    · cases h
    · rfl

theorem build_annotated {r : Except Failure (List Area)}
    (h : exec (o.build c streams) (o.opened name book) = (r, s)) :
    Annotated { o.opened name book with context := c, streams := streams } s := by
  have hbuild := leads_buildAreas o.registry o.listeners
    { o.opened name book with context := c, streams := streams }
  rw [FillOptions.build, exec_bind, FillM.start, exec_modify] at h
  have hs : (exec (buildAreas o.registry o.listeners)
      { o.opened name book with context := c, streams := streams }).2 = s := congrArg Prod.snd h
  rwa [hs] at hbuild

theorem sound_opened (hw : book.Regular) :
    Sound { o.opened name book with context := c, streams := streams } := fun r info hinfo => by
  obtain ⟨hsheet, hcovers, hhides⟩ := sound_ofWorkbook hw r info hinfo
  exact ⟨hsheet, hcovers, hhides⟩

theorem fillAreas_singleton {area : Area} (h : exec (o.fillAreas [area]) s = (.ok (), t)) :
    ∃ s₁ s₂ s₃ s₄ s₅ size,
      exec (clearArea area.ref) s = (.ok (), s₁) ∧
      exec (area.replay o.host area.start) s₁ = (.ok size, s₂) ∧
      Unseen s₂ s₃ ∧
      exec (Formula.relocateArea area) s₃ = (.ok (), s₄) ∧
      exec o.clearTemplate s₄ = (.ok (), s₅) ∧
      exec (do removeComments Directive.mark; o.markRecalculation; o.beforeWrite) s₅ =
        (.ok (), t) := by
  obtain ⟨_, u₁, hfill, hrest⟩ := bind_eq_ok.1 h
  obtain ⟨_, u₂, hmove, hrest⟩ := bind_eq_ok.1 hrest
  obtain ⟨_, u₃, hclean, hlast⟩ := bind_eq_ok.1 hrest
  obtain ⟨_, v, hfill, hnil⟩ := bind_eq_ok.1 hfill
  cases hnil
  obtain ⟨_, w, hmove, hnil⟩ := bind_eq_ok.1 hmove
  cases hnil
  obtain ⟨_, s₁, hclear, hfill⟩ := bind_eq_ok.1 hfill
  obtain ⟨size, s₂, hreplay, hlog⟩ := bind_eq_ok.1 hfill
  rw [exec_ensuring] at hreplay
  obtain ⟨hr, hs₂⟩ := Prod.mk.inj hreplay
  cases hlog
  refine ⟨s₁, _, _, _, _, size, hclear, Prod.ext hr rfl, ?_, hmove, hclean, hlast⟩
  rw [← hs₂]
  exact ⟨rfl, rfl, rfl, rfl⟩

end FillOptions

end SheetTemplate
