import SheetTemplate.Proofs.Area.Rehearsal
import SheetTemplate.Proofs.Fill.Shown

namespace SheetTemplate

open FillM FillState

namespace FillState

theorem Open.free_of {T : Template} {title : String} {s : FillState} (hs : s.Open T title)
    {r : CellRef} (hr : r.sheet = title) : s.Free r := by
  refine ⟨by rw [hr]; exact hs.sheet, hs.free r hr, ?_⟩
  rintro ⟨snapshot, hsnapshot, block, hblock, -⟩
  rw [hs.template, hr] at hsnapshot
  rw [hs.unmerged snapshot hsnapshot] at hblock
  cases hblock

end FillState

namespace FillM

variable {s : FillState} {r : CellRef} {formula : String}

theorem setFormula_ok (hr : s.Free r) (hadmits : Sheet.admits r.pos = true)
    (hheld : (Cell.heldText? (formulaText formula)).isSome = true) :
    ∃ t, exec (setFormula r formula) s = (.ok (), t) := by
  obtain ⟨sheet, hsheet⟩ := Option.isSome_iff_exists.1 hr.sheet
  obtain ⟨held, hheld⟩ := Option.isSome_iff_exists.1 hheld
  let u := { s with journal := Write.formula r formula :: s.journal }
  have hu : u.sheet? r.sheet = some sheet := hsheet
  have hopen := exec_open? hu hadmits
  rw [sheet.cell?_touch_of_free _ (free_of_not_covers hsheet hr.covers)] at hopen
  let c := (sheet.cell? r.pos).getD {}
  let d : Cell := { c with value := .text held, type := Cell.textType held }
  have hput : c.put? (.text (formulaText formula)) = some d := by
    rw [Cell.put?, hheld]
    rfl
  have hlast : ∀ v : FillState, exec (discard (putOr r c (c.put? (.text (formulaText formula))))) v =
      (.ok (), v.onSheet r.sheet fun s => s.setCell r.pos d) := by
    intro v
    rw [hput]
    exact exec_discard_putOr v r c d
  exact ⟨_, bind_eq_ok.2 ⟨_, u, rfl, bind_eq_ok.2 ⟨_, _, hopen, hlast _⟩⟩⟩

end FillM

namespace Formula

variable {area : Area} {s : FillState}

theorem putCopies_ok {copies : List (CellRef × Except Failure String)}
    (hfree : ∀ c ∈ copies, s.Free c.1 ∧ Sheet.admits c.1.pos = true)
    (hheld : ∀ c ∈ copies, ∃ formula, c.2 = .ok formula ∧
      (Cell.heldText? (formulaText formula)).isSome = true) :
    ∃ t, exec (copies.forM putCopy) s = (.ok (), t) := by
  induction copies generalizing s with
  | nil => exact ⟨s, rfl⟩
  | cons c rest ih =>
    obtain ⟨formula, hformula, hc⟩ := hheld c List.mem_cons_self
    obtain ⟨hcfree, hadmits⟩ := hfree c List.mem_cons_self
    obtain ⟨t, ht⟩ := setFormula_ok hcfree hadmits hc
    have hput : exec (putCopy c) s = (.ok (), t) :=
      bind_eq_ok.2 ⟨formula, s, by rw [exec_ofExcept, hformula], ht⟩
    have hst := (leads_settled_putCopy c).apply hput
    obtain ⟨u, hu⟩ := ih (s := t) (fun d hd => by
      obtain ⟨hdfree, hdadmits⟩ := hfree d (List.mem_cons_of_mem c hd)
      exact ⟨hdfree.mono hst, hdadmits⟩) fun d hd => hheld d (List.mem_cons_of_mem c hd)
    exact ⟨u, bind_eq_ok.2 ⟨_, _, hput, hu⟩⟩

theorem relocateArea_ok
    (hnodup : ((relocations area s.template s.history).map (·.1)).Nodup)
    (hfree : ∀ c ∈ relocations area s.template s.history, s.Free c.1 ∧ Sheet.admits c.1.pos = true)
    (hheld : ∀ c ∈ relocations area s.template s.history, ∃ formula, c.2 = .ok formula ∧
      (Cell.heldText? (formulaText formula)).isSome = true) :
    ∃ t, exec (relocateArea area) s = (.ok (), t) ∧ Settled s t ∧
      (∀ c ∈ relocations area s.template s.history, ∃ formula held, c.2 = .ok formula ∧
        Cell.heldText? (formulaText formula) = some held ∧
          t.book.content c.1 = ⟨.text held, Cell.textType held⟩) ∧
      ∀ x, (∀ c ∈ relocations area s.template s.history, c.1 ≠ x) →
        t.book.content x = s.book.content x := by
  obtain ⟨t, ht⟩ := putCopies_ok hfree hheld
  have hmove : exec (relocateArea area) s = (.ok (), { t with log := t.log ++ [⟨.info, "formula",
      "Processed " ++ Number.showInt (relocations area s.template s.history).length ++
        " formulas in " ++ area.ref.label⟩] }) :=
    bind_eq_ok.2 ⟨s, s, rfl, bind_eq_ok.2 ⟨_, t, ht, rfl⟩⟩
  have hput := putCopies_content hnodup (fun c hc => (hfree c hc).1) ht
  refine ⟨_, hmove, (leads_settled_relocateArea area).apply hmove, hput, fun x hx => ?_⟩
  have hleaves : Leads (Leaves (· = x)) ((relocations area s.template s.history).forM putCopy) := by
    refine leads_forM fun c hc s y hy => leaves_putCopy c s y ?_
    rw [hy]
    exact fun h => hx c hc h.symm
  exact hleaves.apply ht x rfl

end Formula

namespace RepeatedBlock

variable {b : RepeatedBlock} {h : FillHost} {T : Template} {n : Nat} {ps : List Piece}
  {s : FillState}

theorem relocateCopy_eq (hkeyed : s.template.Keyed)
    (htargets : s.history.targets = b.targets s.template n) {x target : CellRef} {info : CellInfo}
    {text : String} (hinfo : s.template.cell? x = some info)
    (hformula : formulaOf s.template s.history x target = some text) :
    Formula.relocateCopy b.root s.history info target =
      (b.move s.template n info target).relocate text := by
  have hmove : Formula.moveFor b.root s.history info target = b.move s.template n info target := by
    rw [Formula.moveFor, htargets, move]
  rw [formulaOf, hinfo] at hformula
  have hlookup : ((s.history.of x).formulas.lookup target).or info.formula? = some text := hformula
  simp only [Formula.relocateCopy, hkeyed.ref_of_cell? hinfo, hmove, hlookup]
  rfl

theorem mem_relocations (hkeyed : s.template.Keyed)
    (htargets : s.history.targets = b.targets s.template n)
    (hcopies : ps.map (·.1) = b.copies n) (hrenders : ∀ p ∈ ps, h.Renders s.template p)
    (hformula : ∀ p ∈ ps, ∀ text, p.2 = some (.formula text) →
      formulaOf s.template s.history p.1.origin p.1.target = some text)
    {e : CellRef × Except Failure String} :
    e ∈ Formula.relocations b.root s.template s.history ↔
      ∃ p ∈ ps, ∃ info text, s.template.cell? p.1.origin = some info ∧
        p.2 = some (.formula text) ∧
          e = (p.1.target, (b.move s.template n info p.1.target).relocate text) := by
  rw [Formula.relocations, List.mem_flatMap]
  constructor
  · rintro ⟨info, hmem, he⟩
    obtain ⟨hformulas, -⟩ := List.mem_filter.1 hmem
    obtain ⟨hcells, hhas⟩ := List.mem_filter.1 hformulas
    have hinfo := hkeyed.cell?_ref hcells
    obtain ⟨target, htarget, rfl⟩ := List.mem_map.1 he
    rw [htargets] at htarget
    obtain ⟨-, c, hc, horigin, rfl⟩ := mem_targets.1 htarget
    rw [← hcopies] at hc
    obtain ⟨p, hp, rfl⟩ := List.mem_map.1 hc
    rw [← horigin] at hinfo
    rcases (hrenders p hp).cases with ⟨hnone, -⟩ | ⟨i, text, hi, -, htext⟩ | ⟨i, c, hi, hnot, -⟩
    · rw [hnone] at hinfo
      cases hinfo
    · have hmoved := relocateCopy_eq hkeyed htargets hinfo (hformula p hp text htext)
      exact ⟨p, hp, info, text, hinfo, htext, Prod.ext rfl hmoved⟩
    · rw [hinfo] at hi
      cases hi
      rw [hhas] at hnot
      cases hnot
  · rintro ⟨p, hp, info, text, hinfo, htext, rfl⟩
    have href := hkeyed.ref_of_cell? hinfo
    have hmoved := relocateCopy_eq hkeyed htargets hinfo (hformula p hp text htext)
    have hmem : p.1 ∈ b.copies n := hcopies ▸ List.mem_map_of_mem hp
    have hhas : info.hasFormula = true := by
      rcases (hrenders p hp).cases with ⟨hnone, -⟩ | ⟨i, _, hi, hhas, -⟩ | ⟨i, c, -, -, hc⟩
      · rw [hnone] at hinfo
        cases hinfo
      · rw [hinfo] at hi
        cases hi
        exact hhas
      · rw [htext] at hc
        cases hc
    have htarget : p.1.target ∈ b.targets s.template n info.ref := by
      apply mem_targets.2
      rw [href]
      exact ⟨by rw [hinfo]; rfl, p.1, hmem, rfl, rfl⟩
    refine ⟨info, List.mem_filter.2 ⟨List.mem_filter.2 ⟨Template.mem_cells_of_cell? hinfo, hhas⟩, ?_⟩,
      List.mem_map.2 ⟨p.1.target, ?_, Prod.ext rfl hmoved⟩⟩
    · rw [href]
      exact origin_of_mem_copies hmem
    · rw [htargets]
      exact htarget

theorem nodup_relocations (hkeyed : s.template.Keyed)
    (htargets : s.history.targets = b.targets s.template n) :
    ((Formula.relocations b.root s.template s.history).map (·.1)).Nodup := by
  have hinjective := List.inj_on_of_nodup_map (nodup_copies b n)
  have hfst : (Formula.relocations b.root s.template s.history).map (·.1) =
      (s.template.formulas.filter fun i => b.root.contains i.ref).flatMap fun i =>
        b.targets s.template n i.ref := by
    rw [Formula.relocations, List.map_flatMap, htargets]
    apply List.flatMap_congr
    intro i _
    rw [List.map_map]
    exact List.map_id' _
  have hrefs : ((s.template.formulas.filter fun i => b.root.contains i.ref).map
      CellInfo.ref).Nodup :=
    hkeyed.nodup_refs.sublist ((List.filter_sublist.trans List.filter_sublist).map CellInfo.ref)
  rw [hfst]
  apply List.nodup_flatMap.2
  constructor
  · intro i _
    unfold targets
    split
    · exact (nodup_copies b n).sublist (List.filter_sublist.map _)
    · exact List.nodup_nil
  · apply (List.pairwise_map.1 hrefs).imp
    intro i j hij
    simp only [Function.onFun, List.disjoint_left]
    intro x hi hj
    obtain ⟨-, c, hc, hci, hcx⟩ := mem_targets.1 hi
    obtain ⟨-, d, hd, hdj, hdx⟩ := mem_targets.1 hj
    have heq := hinjective hc hd (hcx.trans hdx.symm)
    rw [← hci, ← hdj, heq] at hij
    exact hij rfl

theorem relocate_copies (hs : s.Open T b.start.sheet) (hkeyed : T.Keyed)
    (hroom : b.Room (b.head + n * b.body + b.foot))
    (htargets : s.history.targets = b.targets T n) (hcopies : ps.map (·.1) = b.copies n)
    (hrenders : ∀ p ∈ ps, h.Renders T p)
    (hformula : ∀ p ∈ ps, ∀ text, p.2 = some (.formula text) →
      formulaOf T s.history p.1.origin p.1.target = some text)
    (hheld : ∀ p ∈ ps, ∀ text info moved, p.2 = some (.formula text) →
      T.cell? p.1.origin = some info → (b.move T n info p.1.target).relocate text = .ok moved →
        (Cell.heldText? (formulaText moved)).isSome = true) :
    ∃ t, exec (Formula.relocateArea b.root) s = (.ok (), t) ∧ Settled s t ∧
      (∀ p ∈ ps, ∀ text info, p.2 = some (.formula text) → T.cell? p.1.origin = some info →
        ∃ moved held, (b.move T n info p.1.target).relocate text = .ok moved ∧
          Cell.heldText? (formulaText moved) = some held ∧
            t.book.content p.1.target = ⟨.text held, Cell.textType held⟩) ∧
      (∀ p ∈ ps, (∀ text, p.2 ≠ some (.formula text)) →
        t.book.content p.1.target = s.book.content p.1.target) ∧
      ∀ x, (∀ c ∈ b.copies n, c.target ≠ x) → t.book.content x = s.book.content x := by
  have htemplate := hs.template
  subst htemplate
  have hmem := fun e => mem_relocations (e := e) hkeyed htargets hcopies hrenders hformula
  have hcopied : ∀ p ∈ ps, p.1 ∈ b.copies n := fun p hp => hcopies ▸ List.mem_map_of_mem hp
  have hfree : ∀ e ∈ Formula.relocations b.root s.template s.history,
      s.Free e.1 ∧ Sheet.admits e.1.pos = true := by
    intro e he
    obtain ⟨p, hp, info, text, -, -, rfl⟩ := (hmem e).1 he
    have hsheet := (target_of_mem_copies (hcopied p hp)).1
    exact ⟨hs.free_of hsheet, admits_of_mem_copies hroom (hcopied p hp)⟩
  have hput : ∀ e ∈ Formula.relocations b.root s.template s.history, ∃ formula, e.2 = .ok formula ∧
      (Cell.heldText? (formulaText formula)).isSome = true := by
    intro e he
    obtain ⟨p, hp, info, text, hinfo, htext, rfl⟩ := (hmem e).1 he
    obtain ⟨moved, hmoved⟩ := Formula.Move.relocate_ok
      (m := b.move s.template n info p.1.target) (fun x y hy => named_of_mem_targets hroom hy) text
    exact ⟨moved, hmoved, hheld p hp text info moved htext hinfo hmoved⟩
  obtain ⟨t, ht, hsettled, hcontent, hkept⟩ :=
    Formula.relocateArea_ok (nodup_relocations hkeyed htargets) hfree hput
  refine ⟨t, ht, hsettled, fun p hp text info htext hinfo => ?_, fun p hp hnot => hkept _ ?_,
    fun x hx => hkept x ?_⟩
  · obtain ⟨moved, held, hmoved, hheld, hshown⟩ :=
      hcontent _ ((hmem _).2 ⟨p, hp, info, text, hinfo, htext, rfl⟩)
    exact ⟨moved, held, hmoved, hheld, hshown⟩
  · intro e he heq
    obtain ⟨q, hq, info, text, -, htext, rfl⟩ := (hmem e).1 he
    -- A target belongs to one piece only.
    have hsame : q = p := by
      have hnodup := nodup_copies b n
      rw [← hcopies, List.map_map] at hnodup
      exact List.inj_on_of_nodup_map hnodup hq hp heq
    rw [hsame] at htext
    exact hnot text htext
  · intro e he heq
    obtain ⟨q, hq, info, text, -, -, rfl⟩ := (hmem e).1 he
    exact hx q.1 (hcopied q hq) heq

end RepeatedBlock

end SheetTemplate
