import SheetTemplate.Proofs.Fill.Bystanders
import SheetTemplate.Proofs.Fill.Withstanding

namespace SheetTemplate

open FillM FillState

namespace FillState

def SameTemplate (s t : FillState) : Prop := t.template = s.template

instance : Writable SameTemplate where
  refl _ := rfl
  trans _ _ _ h h' := h'.trans h
  sheet _ _ _ _ := rfl
  written _ _ := rfl
  images _ _ _ := rfl
  context _ _ := rfl
  streams _ _ := rfl
  log _ _ := rfl

instance : Loose SameTemplate where
  book _ _ := rfl
  sheets _ _ _ := rfl

end FillState

namespace FillOptions

variable {o : FillOptions} {roots : List Area} {s₀ s₁ s : FillState}

theorem leads_sameTemplate_fillArea (hh : o.host.Keeps SameTemplate) (area : Area) :
    Leads SameTemplate (o.fillArea area) := by
  refine leads_fillArea (fun _ _ => rfl) (hh.steps (fun _ _ => rfl) fun _ _ => ?_) area
  exact o.host.leads_copy (leads_merge Loose.book) _ _ _ (fun _ => rfl) fun _ _ => rfl

theorem template_of_filled (hh : o.host.Keeps SameTemplate)
    (hfill : exec (roots.forM o.fillArea) s₀ = (.ok (), s₁))
    (hmove : exec (roots.forM Formula.relocateArea) s₁ = (.ok (), s)) :
    s.template = s₀.template := by
  have hfilled : SameTemplate s₀ s₁ :=
    (leads_forM fun a _ => leads_sameTemplate_fillArea hh a).apply hfill
  have hmoved : Settled s₁ s :=
    (leads_forM fun a _ => Formula.leads_settled_relocateArea a).apply hmove
  exact hmoved.template.trans hfilled

/-- After a fill, the cells that are erased are those that show the notation that the template has
in their place. Every other cell keeps what it shows, and no erased cell does: it makes no
difference whether a copy, a grid or an updater wrote to the cell. -/
theorem clearTemplate_erases (hh : o.host.Keeps SameTemplate)
    (hfill : exec (roots.forM o.fillArea) s₀ = (.ok (), s₁))
    (hmove : exec (roots.forM Formula.relocateArea) s₁ = (.ok (), s)) :
    ∃ erased t, exec o.clearTemplate s = (.ok (), t) ∧ Emptied erased s t ∧
      (∀ r, r ∈ erased ↔ o.clearsTemplate = true ∧ (s.sheet? r.sheet).isSome = true ∧
        ∃ info ∈ s₀.template.cells, info.ref = r ∧ o.Shows info (s.book.content r)) ∧
      ∀ r, t.book.content r = s.book.content r ↔ r ∉ erased := by
  obtain ⟨erased, t, ht, hemptied, herased⟩ := o.clearTemplate_emptied s
  rw [template_of_filled hh hfill hmove] at herased
  refine ⟨erased, t, ht, hemptied, herased, fun r => ⟨fun hkept hr => ?_, hemptied.kept r⟩⟩
  obtain ⟨-, -, info, -, -, hshows⟩ := (herased r).1 hr
  rw [← hkept, hemptied.emptied r hr] at hshows
  exact o.not_shows_empty info hshows

def priceStart : FillState :=
  .ofWorkbook
    { sheets := [({ title := "S" } : Sheet).setCell ⟨0, 0⟩
        { value := .text "cost $\x7b each", type := .text }] }

def priceArea : Area := { start := ⟨"S", 0, 0⟩, size := ⟨1, 1⟩ }

def priceFilled : FillState := (exec ([priceArea].forM (fillArea {})) priceStart).2

def priceMoved : FillState := (exec ([priceArea].forM Formula.relocateArea) priceFilled).2

theorem price_erased :
    exec ([priceArea].forM (fillArea {})) priceStart = (.ok (), priceFilled) ∧
      exec ([priceArea].forM Formula.relocateArea) priceFilled = (.ok (), priceMoved) ∧
      priceMoved.Written ⟨"S", 0, 0⟩ ∧
      priceMoved.history.targets ⟨"S", 0, 0⟩ = [⟨"S", 0, 0⟩] ∧
      (priceMoved.book.content ⟨"S", 0, 0⟩).value.text? = some "cost $\x7b each" ∧
      ∃ (erased : List CellRef) (t : FillState),
        exec (clearTemplate {}) priceMoved = (.ok (), t) ∧
        ⟨"S", 0, 0⟩ ∈ erased ∧ t.book.content ⟨"S", 0, 0⟩ = {} ∧
        ∀ r, t.book.content r = priceMoved.book.content r ↔ r ∉ erased := by
  have hh : FillHost.Keeps {} SameTemplate :=
    ⟨fun _ _ _ => leads_pure _, fun _ _ _ => leads_pure _, fun _ _ _ => leads_pure _,
      fun _ _ => leads_pure _⟩
  have hfill := eq_ok_of_toOption (p := exec ([priceArea].forM (fillArea {})) priceStart)
    (a := ()) (by decide +kernel)
  have hmove := eq_ok_of_toOption (p := exec ([priceArea].forM Formula.relocateArea) priceFilled)
    (a := ()) (by decide +kernel)
  rw [← priceFilled] at hfill
  rw [← priceMoved] at hmove
  obtain ⟨erased, t, ht, hemptied, herased, hkept⟩ := clearTemplate_erases hh hfill hmove
  have hshown : (priceMoved.book.content ⟨"S", 0, 0⟩).value.text? = some "cost $\x7b each" := by
    decide +kernel
  have hcell : (priceStart.template.cells.map fun info =>
      (info.ref, ({} : FillHost).expressionText? info.source)) =
        [(⟨"S", 0, 0⟩, some "cost $\x7b each")] := by decide +kernel
  obtain ⟨info, hinfo, hshows⟩ := List.map_eq_singleton_iff.1 hcell
  obtain ⟨href, hmarked⟩ := Prod.mk.inj hshows
  have hsource : (priceMoved.book.content ⟨"S", 0, 0⟩).source = .text "cost $\x7b each" :=
    FillHost.expressionText?_eq_some (h := {}) (by decide +kernel)
  have hmem : (⟨"S", 0, 0⟩ : CellRef) ∈ erased := by
    rw [herased]
    refine ⟨rfl, by decide +kernel, info, ?_, href, _, hmarked, hsource⟩
    rw [hinfo]
    exact List.mem_singleton_self info
  exact ⟨hfill, hmove, by decide +kernel, by decide +kernel, hshown, erased, t, ht, hmem,
    hemptied.emptied _ hmem, hkept⟩

end FillOptions

end SheetTemplate
