import Mathlib.Data.List.Chain
import SheetTemplate.Proofs.Area.Rows
import SheetTemplate.Proofs.Fill.Journal

/-!
A replay stays inside the size that it reports. Each command asks for writes in the rectangle that it
reports only, when its inner areas do; the areas of a tree follow by induction on the tree. Passes of
a loop are laid out side by side, so that no pass writes where another does.
-/

namespace SheetTemplate

open FillM

namespace FillM

/-- When the program ends with a size, it asked for writes in the rectangle of that size only. -/
def Contained (target : CellRef) (m : FillM Size) : Prop :=
  ∀ s size t, exec m s = (.ok size, t) →
    0 ≤ size.width ∧ 0 ≤ size.height ∧ Grown (size.Holds target) s t

variable {α : Type} {target : CellRef} {m : FillM Size}

theorem contained_pure {size : Size} (hw : 0 ≤ size.width) (hh : 0 ≤ size.height) :
    Contained target (pure size) := by
  intro s n t h
  cases h
  exact ⟨hw, hh, refl_of _ s⟩

theorem contained_throw (f : Failure) : Contained target (throw f) := by
  intro s n t h
  cases h

theorem Contained.after {m : FillM α} {f : α → FillM Size}
    (hm : Leads (Grown fun _ => False) m) (hf : ∀ a, Contained target (f a)) :
    Contained target (m >>= f) := by
  intro s n t h
  obtain ⟨a, u, hu, ht⟩ := bind_eq_ok.1 h
  obtain ⟨hw, hh, hg⟩ := hf a u n t ht
  exact ⟨hw, hh, trans_of _ ((hm.apply hu).mono fun _ => False.elim) hg⟩

theorem Contained.mapFailure (hm : Contained target m) (g : Failure → Failure) :
    Contained target (mapFailure g m) := by
  intro s n t h
  exact hm s n t (mapFailure_eq_ok.1 h)

theorem Contained.then {f : Size → FillM Unit} (hm : Contained target m)
    (hf : ∀ n, Leads (Grown (n.Holds target)) (f n)) :
    Contained target (do let n ← m; f n; return n) := by
  intro s n t h
  obtain ⟨n', u, hu, h⟩ := bind_eq_ok.1 h
  obtain ⟨a, v, hv, h⟩ := bind_eq_ok.1 h
  cases h
  obtain ⟨hw, hh, hg⟩ := hm s n u hu
  exact ⟨hw, hh, trans_of _ hg ((hf n).apply hv)⟩

end FillM

def Inner.Tame (i : Inner) : Prop := ∀ target, Contained target (i.replay target)

section Commands

variable {h : FillHost} {target : CellRef}

namespace GridSpec

theorem leads_itemsOf (key text : String) : Leads Evaluated (itemsOf h key text) :=
  (leads_within (h.leads_evaluate text) _ _).bind fun _ => leads_itemsOr _ _ _ _ _

theorem leads_font? {R : FillState → FillState → Prop} [IsPreorder FillState R]
    (inner? : Option Inner) (row col : Int) : Leads R (font? inner? row col) := by
  cases inner? with
  | none => exact leads_pure _
  | some inner => exact leads_get.bind fun _ => leads_pure _

theorem leads_writeRow {P : CellRef → Prop} (inner? : Option Inner) (fontRow : Int)
    (start : CellRef) (col : Nat) (values : List Value)
    (hP : ∀ j : Nat, col ≤ j → j < col + values.length → P (start.offset 0 j)) :
    Leads (Grown P) (writeRow inner? fontRow start col values) := by
  induction values generalizing col with
  | nil => exact leads_pure ()
  | cons v rest ih =>
    have hhere : P (start.offset 0 col) := hP col (Nat.le_refl _) (by simp)
    refine (leads_font? _ _ _).bind fun font? => ?_
    refine (leads_setValue _ _ _ (grown_record hhere)).bind fun _ => ?_
    apply ih
    intro j hj hlt
    exact hP j (by omega) (by simp only [List.length_cons]; omega)

theorem leads_go {P : CellRef → Prop} (g : GridSpec) (inner? : Option Inner)
    (headers rows : List Value) (index : Nat)
    (hP : ∀ i j : Nat, i < index + rows.length → j < headers.length → P (target.offset i j)) :
    Leads (Grown P) (run.go g inner? target headers index rows) := by
  induction rows generalizing index with
  | nil => exact leads_pure ()
  | cons item rest ih =>
    have hrow : Leads (Grown P) (writeRow inner? 1 (target.offset index 0) 0
        ((item.rowCells g.fields).take headers.length)) := by
      apply leads_writeRow
      intro j _ hj
      have hlt : j < headers.length := by
        simp only [List.length_take] at hj
        omega
      have := hP index j (by simp) hlt
      simpa [CellRef.offset] using this
    refine hrow.bind fun _ => ih (index + 1) fun i j hi hj => ?_
    exact hP i j (by simp only [List.length_cons]; omega) hj

theorem run_contained (g : GridSpec) (inner? : Option Inner) :
    Contained target (g.run h inner? target) := by
  refine .after (leads_itemsOf _ _).lift fun headers => ?_
  refine .after (leads_itemsOf _ _).lift fun rows => ?_
  split
  · exact contained_pure (by decide) (by decide)
  · have hhold : ∀ i j : Nat, i < 1 + rows.length → j < headers.length →
        Size.Holds ⟨headers.length, 1 + rows.length⟩ target (target.offset i j) := by
      intro i j hi hj
      refine ⟨rfl, ?_, ?_, ?_, ?_⟩ <;> simp only [CellRef.offset] <;> omega
    have hheader : Leads (Grown (Size.Holds ⟨headers.length, 1 + rows.length⟩ target))
        (writeRow inner? 0 target 0 headers) := by
      apply leads_writeRow
      intro j _ hj
      exact hhold 0 j (by omega) (by omega)
    intro s n t ht
    obtain ⟨_, u, hu, ht⟩ := bind_eq_ok.1 ht
    obtain ⟨_, v, hv, ht⟩ := bind_eq_ok.1 ht
    cases ht
    refine ⟨by simp only; omega, by simp only; omega, ?_⟩
    exact trans_of _ (hheader.apply hu) ((leads_go g inner? headers rows 1 hhold).apply hv)

end GridSpec

theorem ImageSpec.run_contained (i : ImageSpec) : Contained target (i.run h target) := by
  refine .after (leads_within (h.leads_evaluate _).lift _ _) fun v => ?_
  have hone : Contained target (pure ⟨1, 1⟩) := contained_pure (by decide) (by decide)
  split
  · exact .after (leads_log _ _ _) fun _ => hone
  · split
    · exact .after (leads_addImage _ _ _ _) fun _ => hone
    · exact .after (leads_addImage _ _ _ _) fun _ => hone
    · exact contained_throw _

namespace Updater

theorem leads_resolve {R : FillState → FillState → Prop} [IsPreorder FillState R] (name : String) :
    Leads R (resolve name) := by
  unfold resolve
  refine leads_get.bind fun s => ?_
  split
  · exact leads_throw _
  · split
    · exact leads_throw _
    · exact leads_pure _
    · exact leads_throw _

theorem leads_updateCell {P : CellRef → Prop} (hq : h.Quiet) (id : Nat) {r : CellRef} (hr : P r) :
    Leads (Grown P) (updateCell h id r) := by
  refine (leads_outputCell r).bind fun before => ?_
  have hupdate : Leads (Grown P) (h.update id before r) := fun s =>
    grown_of_eq (hq.update id before r s)
  refine hupdate.bind fun after => ?_
  split
  · exact leads_pure ()
  · split
    · exact leads_setFormula _ _ (grown_record hr)
    · exact leads_setValue _ _ _ (grown_record hr)

theorem run_contained (hq : h.Quiet) (name : String) (inner? : Option Inner)
    (hi : ∀ i ∈ inner?, i.Tame) : Contained target (run h name inner? target) := by
  refine .after (leads_resolve name) fun id => ?_
  have hcells : ∀ n : Size, Leads (Grown (n.Holds target))
      ((n.cellsFrom target).forM (updateCell h id)) := fun n =>
    leads_forM fun r hr => leads_updateCell hq id (Size.mem_cellsFrom.1 hr)
  cases inner? with
  | none => exact (contained_pure (by decide) (by decide)).then hcells
  | some inner => exact (hi inner rfl target).then hcells

end Updater

theorem runAutoRowHeight_contained (inner? : Option Inner) (hi : ∀ i ∈ inner?, i.Tame) :
    Contained target (runAutoRowHeight inner? target) := by
  cases inner? with
  | none => exact contained_pure (by decide) (by decide)
  | some inner => exact (hi inner rfl target).then fun n => leads_forM fun _ _ => leads_clearRowHeight _ _

theorem runIf_contained (condition : String) (inners : List Inner) (hi : ∀ i ∈ inners, i.Tame) :
    Contained target (runIf h condition inners target) := by
  refine .after (leads_within (h.leads_isTrue _).lift _ _) fun holds => ?_
  split
  · exact contained_pure (by decide) (by decide)
  · next inner hinner =>
    apply hi
    cases holds with
    | true => exact List.mem_of_getElem? hinner
    | false => exact List.mem_of_getElem? hinner

end Commands

structure Pass where
  target : CellRef
  size : Size
  writes : List Write

namespace EachSpec

/-- A loop over items, pass by pass: each pass binds the loop variables to its item and replays the
area after the passes before it. -/
inductive Passes (e : EachSpec) (inner : Inner) (target : CellRef) :
    Nat → Size → List Value → FillState → List Pass → Size → FillState → Prop
  | nil (index : Nat) (done : Size) (s : FillState) :
    Passes e inner target index done [] s [] done s
  | cons {index : Nat} {done size final : Size} {item : Value} {rest : List Value}
    {s t u : FillState} {writes : List Write} {passes : List Pass}
    (run : exec (binding e.var e.varIndex? item (some (.int index))
      (inner.replay (e.nextTarget target done))) s = (.ok size, t))
    (journal : t.journal = writes ++ s.journal)
    (tail : Passes e inner target (index + 1) (e.extend done size) rest t passes final u) :
    Passes e inner target index done (item :: rest) s
      (⟨e.nextTarget target done, size, writes⟩ :: passes) final u

variable {e : EachSpec} {inner : Inner} {target : CellRef}

theorem binding_contained (hi : inner.Tame) (name : String) (index? : Option String)
    (item : Value) (index : Option Value) (target : CellRef) :
    Contained target (binding name index? item index (inner.replay target)) := by
  intro s n t h
  obtain ⟨u, hu, rfl⟩ := binding_eq_ok h
  obtain ⟨hw, hh, new, hj, hn⟩ := hi target _ n u hu
  exact ⟨hw, hh, new, hj, hn⟩

theorem runItems_passes (hi : inner.Tame) {items : List Value} {index : Nat} {done final : Size}
    {s u : FillState} (h : exec (e.runItems inner target index done items) s = (.ok final, u)) :
    ∃ passes, e.Passes inner target index done items s passes final u := by
  induction items generalizing index done s with
  | nil =>
    cases h
    exact ⟨[], .nil _ _ _⟩
  | cons item rest ih =>
    obtain ⟨size, t, ht, h⟩ := bind_eq_ok.1 h
    obtain ⟨-, -, writes, hj, -⟩ := binding_contained hi _ _ _ _ _ s size t ht
    obtain ⟨passes, hp⟩ := ih h
    exact ⟨_, .cons ht hj hp⟩

def Precedes (e : EachSpec) (p q : Pass) : Prop :=
  if e.direction == right then p.target.col + p.size.width ≤ q.target.col
  else p.target.row + p.size.height ≤ q.target.row

theorem Precedes.disjoint {p q : Pass} (h : e.Precedes p q) {r : CellRef}
    (hp : p.size.Holds p.target r) : ¬ q.size.Holds q.target r := by
  intro hq
  have hright := hp.right
  have hbottom := hp.bottom
  have hleft := hq.left
  have htop := hq.top
  unfold Precedes at h
  split at h <;> omega

theorem precedes_of_within {p q : Pass} {done before : Size}
    (hp : p.target = e.nextTarget target done) (hq : q.target = e.nextTarget target before)
    (h : (e.extend done p.size).Within before) : e.Precedes p q := by
  obtain ⟨hw, hh⟩ := h
  rw [Precedes, hp, hq]
  cases hd : e.direction == right with
  | true =>
    simp only [nextTarget, extend, hd, if_true, CellRef.offset] at *
    omega
  | false =>
    simp only [nextTarget, extend, hd, Bool.false_eq_true, if_false, CellRef.offset] at *
    omega

theorem holds_of_within {done size final : Size} (h0 : Size.zero.Within done)
    (h : (e.extend done size).Within final) {r : CellRef}
    (hr : size.Holds (e.nextTarget target done) r) : final.Holds target r := by
  obtain ⟨hw, hh⟩ := h
  obtain ⟨hw0, hh0⟩ := h0
  obtain ⟨hs, htop, hbottom, hleft, hright⟩ := hr
  cases hd : e.direction == right with
  | true =>
    simp only [nextTarget, extend, hd, if_true, CellRef.offset, Size.zero] at *
    exact ⟨hs, by omega, by omega, by omega, by omega⟩
  | false =>
    simp only [nextTarget, extend, hd, Bool.false_eq_true, if_false, CellRef.offset,
      Size.zero] at *
    exact ⟨hs, by omega, by omega, by omega, by omega⟩

def follow (e : EachSpec) (p : Pass) : CellRef :=
  if e.direction == right then p.target.offset 0 p.size.width
  else p.target.offset p.size.height 0

namespace Passes

variable {index : Nat} {done final : Size} {items : List Value} {s u : FillState}
  {passes : List Pass}

theorem journal (h : e.Passes inner target index done items s passes final u) :
    u.journal = passes.reverse.flatMap Pass.writes ++ s.journal := by
  induction h with
  | nil => rfl
  | cons _ hj _ ih => simp [ih, hj]

theorem inside (hi : inner.Tame) (h : e.Passes inner target index done items s passes final u)
    {p : Pass} (hp : p ∈ passes) :
    0 ≤ p.size.width ∧ 0 ≤ p.size.height ∧
      ∀ w ∈ p.writes, p.size.Holds p.target w.target := by
  induction h with
  | nil => exact absurd hp List.not_mem_nil
  | @cons _ _ _ _ _ _ s t _ writes _ run journal _ ih =>
    rcases List.mem_cons.1 hp with rfl | hp
    · obtain ⟨hw, hh, new, hj, hn⟩ := binding_contained hi _ _ _ _ _ _ _ _ run
      rw [journal] at hj
      rw [List.append_cancel_right hj]
      exact ⟨hw, hh, hn⟩
    · exact ih hp

theorem target_eq (h : e.Passes inner target index done items s passes final u) {p : Pass}
    (hp : p ∈ passes.head?) : p.target = e.nextTarget target done := by
  cases h with
  | nil => cases hp
  | cons _ _ _ =>
    cases hp
    rfl

theorem consecutive (h : e.Passes inner target index done items s passes final u) :
    passes.IsChain fun p q => q.target = e.follow p := by
  induction h with
  | nil => exact .nil
  | @cons index done size _ _ _ _ _ _ _ passes _ _ tail ih =>
    cases passes with
    | nil => exact .singleton _
    | cons q rest =>
      refine .cons_cons ?_ ih
      rw [tail.target_eq rfl]
      simp only [follow, nextTarget, extend, CellRef.offset]
      split <;> simp only [CellRef.mk.injEq, true_and] <;> omega

theorem exists_before (hi : inner.Tame)
    (h : e.Passes inner target index done items s passes final u) :
    done.Within final ∧ ∀ p ∈ passes, ∃ before : Size, p.target = e.nextTarget target before ∧
      done.Within before ∧ (e.extend before p.size).Within final := by
  induction h with
  | nil => exact ⟨.refl _, fun p hp => absurd hp List.not_mem_nil⟩
  | @cons index done size final item rest s t u writes passes run journal tail ih =>
    have hgrow : done.Within (e.extend done size) := by
      obtain ⟨hw, hh, -⟩ := binding_contained hi _ _ _ _ _ _ _ _ run
      constructor <;> simp only [extend] <;> split <;> simp only <;> omega
    obtain ⟨hfinal, hrest⟩ := ih
    refine ⟨hgrow.trans hfinal, fun p hp => ?_⟩
    rcases List.mem_cons.1 hp with rfl | hp
    · exact ⟨done, rfl, .refl _, hfinal⟩
    · obtain ⟨before, ht, hb, hf⟩ := hrest p hp
      exact ⟨before, ht, hgrow.trans hb, hf⟩

theorem pairwise_precedes (hi : inner.Tame)
    (h : e.Passes inner target index done items s passes final u) :
    passes.Pairwise e.Precedes := by
  induction h with
  | nil => exact .nil
  | cons _ _ tail ih =>
    refine .cons (fun q hq => ?_) ih
    obtain ⟨before, ht, hb, -⟩ := (tail.exists_before hi).2 q hq
    exact precedes_of_within rfl ht hb

theorem holds_final (hi : inner.Tame)
    (h : e.Passes inner target index .zero items s passes final u) {p : Pass} (hp : p ∈ passes)
    {r : CellRef} (hr : p.size.Holds p.target r) : final.Holds target r := by
  obtain ⟨before, ht, h0, hf⟩ := (h.exists_before hi).2 p hp
  rw [ht] at hr
  exact holds_of_within h0 hf hr

end Passes

theorem runItems_contained (hi : inner.Tame) (items : List Value) :
    Contained target (e.runItems inner target 0 .zero items) := by
  intro s size t h
  obtain ⟨passes, hp⟩ := runItems_passes hi h
  obtain ⟨⟨hw, hh⟩, -⟩ := hp.exists_before hi
  refine ⟨hw, hh, _, hp.journal, fun w hw => ?_⟩
  obtain ⟨p, hmem, hw⟩ := List.mem_flatMap.1 hw
  have hmem := List.mem_reverse.1 hmem
  exact hp.holds_final hi hmem ((hp.inside hi hmem).2.2 w hw)

theorem run_contained {h : FillHost} (hm : e.multisheet? = none) (inner? : Option Inner)
    (hi : ∀ i ∈ inner?, i.Tame) : Contained target (e.run h inner? target) := by
  refine .after (e.leads_resolve h).lift fun items => ?_
  split
  · exact contained_pure (by decide) (by decide)
  · cases inner? with
    | none => exact contained_throw _
    | some inner =>
      simp only [hm]
      exact runItems_contained (hi inner rfl) items

end EachSpec

def Command.IsPlain : Command → Prop
  | .each e => e.multisheet? = none
  | .mergeCells _ | .hosted _ => False
  | .if _ | .grid _ | .image _ | .updateCell _ | .autoRowHeight => True

theorem Command.run_contained {h : FillHost} (hq : h.Quiet) {c : Command} (hc : c.IsPlain)
    {inners : List Inner} (hi : ∀ i ∈ inners, i.Tame) (target : CellRef) :
    Contained target (c.run h inners target) := by
  have hhead : ∀ i ∈ inners.head?, i.Tame := fun i hmem => hi i (List.mem_of_mem_head? hmem)
  cases c with
  | each e => exact e.run_contained hc _ hhead
  | «if» condition => exact runIf_contained condition inners hi
  | grid g => exact g.run_contained _
  | image i => exact i.run_contained
  | mergeCells m => exact hc.elim
  | updateCell name => exact Updater.run_contained hq name _ hhead
  | autoRowHeight => exact runAutoRowHeight_contained _ hhead
  | hosted c => exact hc.elim

namespace Area

variable {h : FillHost}

mutual

/-- All areas of the tree have a positive size, every binding starts in its area, and all commands
are plain. -/
def Regular : Area → Prop
  | ⟨start, size, bindings, _, _⟩ =>
    0 < size.width ∧ 0 < size.height ∧ RegularBindings start size bindings

def RegularBindings (start : CellRef) (size : Size) : List Binding → Prop
  | [] => True
  | ⟨command, first, _, areas⟩ :: rest =>
    size.Holds start first ∧ command.IsPlain ∧ AllRegular areas ∧ RegularBindings start size rest

def AllRegular : List Area → Prop
  | [] => True
  | a :: rest => a.Regular ∧ AllRegular rest

end

def Advances (f : Frame) (p : Progress) (m : FillM Size) : Prop :=
  ∀ s final t, exec m s = (.ok final, t) →
    p.size.Within final ∧ Grown (final.Holds f.target) s t

theorem below_advances (hq : h.Quiet) {f : Frame} {p : Progress} (hh : 0 ≤ p.height)
    (hw : f.size.width ≤ p.width) :
    Advances f p (do copyAll h f (p.below f); return p.finish f) := by
  intro s final t ht
  obtain ⟨_, u, hu, ht⟩ := bind_eq_ok.1 ht
  cases ht
  exact ⟨p.size_within_finish f,
    (leads_copyAll hq f fun c hc => Progress.below_holds hh hw hc).apply hu⟩

theorem binding_advances (hq : h.Quiet) {f : Frame} {p : Progress} {b : Binding}
    {command : FillM Size} {source : Size → String} {rest : Size → FillM Size}
    (hh : 0 ≤ p.height) (hw : f.size.width ≤ p.width) (hl : 0 ≤ Progress.left f b)
    (hc : Contained ((p.atBinding b).commandTarget f b) command)
    (hrest : ∀ filled, 0 ≤ filled.height →
      Advances f ((p.atBinding b).afterCommand f b filled) (rest filled)) :
    Advances f p (do
      copyAll h f (p.above f b)
      copyAll h f ((p.atBinding b).beside f b)
      let filled ← command
      log .debug "area" (source filled)
      rest filled) := by
  intro s final t ht
  obtain ⟨_, s₁, h₁, ht⟩ := bind_eq_ok.1 ht
  obtain ⟨_, s₂, h₂, ht⟩ := bind_eq_ok.1 ht
  obtain ⟨filled, s₃, h₃, ht⟩ := bind_eq_ok.1 ht
  obtain ⟨_, s₄, h₄, ht⟩ := bind_eq_ok.1 ht
  cases h₄
  have hh' : 0 ≤ (p.atBinding b).height := by
    simp only [Progress.atBinding]
    omega
  have hw' : f.size.width ≤ (p.atBinding b).width := hw
  obtain ⟨hfw, hfh, hcommand⟩ := hc s₂ filled s₃ h₃
  obtain ⟨hfinal, hrest⟩ := hrest filled hfh _ final t ht
  have habove : Grown ((p.atBinding b).size.Holds f.target) s s₁ :=
    (leads_copyAll hq f fun c hc => Progress.above_holds hh hw hc).apply h₁
  have hbeside : Grown (((p.atBinding b).afterCommand f b filled).size.Holds f.target) s₁ s₂ :=
    (leads_copyAll hq f fun c hc => Progress.beside_holds hh' hw' hc).apply h₂
  have hat := (Progress.size_within_afterCommand f (p.atBinding b) b hfh).trans hfinal
  refine ⟨(p.size_within_atBinding b).trans hat, ?_⟩
  have habove := habove.mono fun r hr => hr.mono hat
  have hbeside := hbeside.mono fun r hr => hr.mono hfinal
  have hcommand := hcommand.mono fun r hr => (Progress.command_holds hh' hl hr).mono hfinal
  exact trans_of _ (trans_of _ (trans_of _ habove hbeside) hcommand) hrest

mutual

theorem replay_contained (hq : h.Quiet) :
    ∀ a : Area, a.Regular → ∀ target, Contained target (a.replay h target)
  | ⟨start, size, bindings, listeners, bound⟩, hr, target => by
    obtain ⟨hw, hh, hb⟩ := hr
    rw [replay]
    split
    · exact contained_throw _
    cases bindings with
    | nil =>
      have hcopies : Leads (Grown (size.Holds target)) (copyAll h ⟨start, size, listeners, target⟩
          (Frame.rows ⟨start, size, listeners, target⟩ start.row size.height 0 fun _ => false)) := by
        refine leads_copyAll hq _ fun c hc => ?_
        obtain ⟨r, col, hr, hcol, -, rfl⟩ := Frame.mem_rows.1 hc
        refine ⟨rfl, ?_, ?_, ?_, ?_⟩ <;> simp only at * <;> omega
      intro s n t ht
      obtain ⟨_, u, hu, ht⟩ := bind_eq_ok.1 ht
      cases ht
      exact ⟨Int.le_of_lt hw, Int.le_of_lt hh, hcopies.apply hu⟩
    | cons b rest =>
      intro s n t ht
      let f : Frame := ⟨start, size, listeners, target⟩
      obtain ⟨⟨hw', hh'⟩, hg⟩ := replayBindings_advances hq f (b :: rest) hb (.begin f)
        (Int.le_refl _) (Int.le_refl _) s n t ht
      exact ⟨Int.le_trans (Int.le_of_lt hw) hw', hh', hg⟩

theorem replayBindings_advances (hq : h.Quiet) (f : Frame) :
    ∀ bindings : List Binding, RegularBindings f.start f.size bindings →
      ∀ p : Progress, 0 ≤ p.height → f.size.width ≤ p.width →
        Advances f p (replayBindings h f p bindings)
  | [], _, p, hh, hw => below_advances hq hh hw
  | ⟨command, start, size, areas⟩ :: rest, hr, p, hh, hw => by
    obtain ⟨hs, hc, ha, hr⟩ := hr
    have hl : 0 ≤ Progress.left f ⟨command, start, size, []⟩ := by
      have := hs.left
      simp only [Progress.left]
      omega
    have hcommand := Command.run_contained hq hc (inners_tame hq areas ha)
      ((p.atBinding ⟨command, start, size, []⟩).commandTarget f ⟨command, start, size, []⟩)
    rw [replayBindings]
    refine binding_advances hq hh hw hl (hcommand.mapFailure _) fun filled hf => ?_
    have hbegun : 0 ≤ (p.atBinding ⟨command, start, size, []⟩).height :=
      Int.le_trans hh (p.size_within_atBinding _).height
    have hafter := Progress.size_within_afterCommand f
      (p.atBinding ⟨command, start, size, []⟩) ⟨command, start, size, []⟩ hf
    exact replayBindings_advances hq f rest hr _ (Int.le_trans hbegun hafter.height)
      (Int.le_trans hw hafter.width)

theorem inners_tame (hq : h.Quiet) :
    ∀ areas : List Area, AllRegular areas → ∀ i ∈ inners h areas, i.Tame
  | [], _, i, hi => absurd hi List.not_mem_nil
  | a :: rest, ⟨ha, hr⟩, i, hi => by
    rcases List.mem_cons.1 hi with rfl | hi
    · exact replay_contained hq a ha
    · exact inners_tame hq rest hr i hi

end

end Area

/-- The passes of a loop over a target: bands that follow each other without overlap, each of which
holds what its pass wrote, and nothing else was written between `s` and `t`. -/
structure EachSpec.Banded (e : EachSpec) (target : CellRef) (passes : List Pass)
    (s t : FillState) : Prop where
  inside : ∀ p ∈ passes, 0 ≤ p.size.width ∧ 0 ≤ p.size.height ∧
    ∀ w ∈ p.writes, p.size.Holds p.target w.target
  journal : t.journal = passes.reverse.flatMap Pass.writes ++ s.journal
  first : ∀ p ∈ passes.head?, p.target = target
  consecutive : passes.IsChain fun p q => q.target = e.follow p
  bands : passes.Pairwise e.Precedes
  disjoint : passes.Pairwise fun p q => ∀ r, p.size.Holds p.target r → ¬ q.size.Holds q.target r
  apart : passes.Pairwise fun p q => ∀ w ∈ p.writes, ∀ v ∈ q.writes, w.target ≠ v.target

namespace EachSpec

variable {e : EachSpec} {inner : Inner} {target : CellRef}

theorem nextTarget_zero (e : EachSpec) (target : CellRef) :
    e.nextTarget target .zero = target := by
  simp [nextTarget, CellRef.offset, Size.zero]

theorem Passes.banded (hi : inner.Tame) {items : List Value} {passes : List Pass} {size : Size}
    {s u t : FillState} (hs : u.journal = s.journal)
    (h : e.Passes inner target 0 .zero items u passes size t) : e.Banded target passes s t := by
  have hinside := fun p (hp : p ∈ passes) => h.inside hi hp
  have hbands := h.pairwise_precedes hi
  refine ⟨hinside, by rw [h.journal, hs], fun p hp => ?_, h.consecutive, hbands, ?_, ?_⟩
  · rw [h.target_eq hp, nextTarget_zero]
  · refine hbands.imp ?_
    intro p q hpq r hr
    exact hpq.disjoint hr
  · refine hbands.imp_of_mem fun {p q} hp hq hpq w hw v hv heq => ?_
    have hv := (hinside q hq).2.2 v hv
    rw [← heq] at hv
    exact hpq.disjoint ((hinside p hp).2.2 w hw) hv

theorem run_banded {h : FillHost} (hm : e.multisheet? = none) (hi : inner.Tame) {s t : FillState}
    {size : Size} (hr : exec (e.run h (some inner) target) s = (.ok size, t)) :
    ∃ items u passes, exec (e.resolve h) s = (.ok items, u) ∧
      e.Passes inner target 0 .zero items u passes size t ∧ e.Banded target passes s t := by
  obtain ⟨items, u, hu, hr⟩ := bind_eq_ok.1 hr
  have hs : u.journal = s.journal := by
    have := (e.leads_resolve h).apply hu
    rw [this]
  have hpasses : ∃ passes, e.Passes inner target 0 .zero items u passes size t := by
    cases items with
    | nil =>
      cases hr
      exact ⟨[], .nil _ _ _⟩
    | cons item rest =>
      simp only [List.isEmpty_cons, Bool.false_eq_true, if_false, hm] at hr
      exact runItems_passes hi hr
  obtain ⟨passes, hp⟩ := hpasses
  exact ⟨items, u, passes, hu, hp, hp.banded hi hs⟩

end EachSpec

namespace Area

/-- When a replay of a regular area reports a size, it has asked for writes in the rectangle of that
size at the target only. The passes of a loop over a regular area are bands of their own. -/
theorem replay_keeps_to_size (h : FillHost) (hq : h.Quiet) :
    (∀ a : Area, a.Regular → ∀ target, Contained target (a.replay h target)) ∧
    ∀ (e : EachSpec) (a : Area), e.multisheet? = none → a.Regular → ∀ target s size t,
      exec (e.run h (some ⟨a.start, a.size, a.replay h⟩) target) s = (.ok size, t) →
        ∃ items u passes, exec (e.resolve h) s = (.ok items, u) ∧
          e.Passes ⟨a.start, a.size, a.replay h⟩ target 0 .zero items u passes size t ∧
          e.Banded target passes s t := by
  refine ⟨replay_contained hq, fun e a hm ha target s size t hr => ?_⟩
  have hi : Inner.Tame ⟨a.start, a.size, a.replay h⟩ := replay_contained hq a ha
  exact EachSpec.run_banded hm hi hr

theorem quiet_default : ({} : FillHost).Quiet :=
  ⟨fun _ _ _ _ => rfl, fun _ _ _ _ => rfl, fun _ _ _ _ => rfl⟩

def cellLoop : EachSpec := { items := "items", var := "item" }

def loopCell : Area := { start := ⟨"S", 0, 0⟩, size := ⟨1, 1⟩ }

def loopArea : Area :=
  { start := ⟨"S", 0, 0⟩
    size := ⟨2, 2⟩
    bindings := [⟨.each cellLoop, ⟨"S", 0, 0⟩, ⟨1, 1⟩, [loopCell]⟩] }

def loopState : FillState :=
  { book := { sheets := [{ title := "S" }] }
    template := ⟨[]⟩
    context := { data := [("items", .list [.int 1, .int 2])] } }

theorem loopArea_keeps_to_size :
    ({} : FillHost).Quiet ∧ loopArea.Regular ∧ loopCell.Regular ∧
      (∃ t, exec (loopArea.replay {} ⟨"S", 4, 0⟩) loopState = (.ok ⟨2, 3⟩, t) ∧
        Grown (Size.Holds ⟨2, 3⟩ ⟨"S", 4, 0⟩) loopState t) ∧
      ∃ t passes, exec (cellLoop.run {} (some ⟨loopCell.start, loopCell.size, loopCell.replay {}⟩)
        ⟨"S", 4, 0⟩) loopState = (.ok ⟨1, 2⟩, t) ∧
        cellLoop.Banded ⟨"S", 4, 0⟩ passes loopState t := by
  have hcell : loopCell.Regular := ⟨by decide, by decide, trivial⟩
  have harea : loopArea.Regular :=
    ⟨by decide, by decide, by decide, rfl, ⟨hcell, trivial⟩, trivial⟩
  have hrun := eq_ok_of_toOption (p := exec (loopArea.replay {} ⟨"S", 4, 0⟩) loopState)
    (a := ⟨2, 3⟩) (by decide +kernel)
  have hpasses := eq_ok_of_toOption (p := exec (cellLoop.run {}
    (some ⟨loopCell.start, loopCell.size, loopCell.replay {}⟩) ⟨"S", 4, 0⟩) loopState)
    (a := ⟨1, 2⟩) (by decide +kernel)
  obtain ⟨hcontained, hbanded⟩ := replay_keeps_to_size {} quiet_default
  obtain ⟨-, -, hgrown⟩ := hcontained loopArea harea _ _ _ _ hrun
  obtain ⟨_, _, passes, -, -, hb⟩ := hbanded cellLoop loopCell rfl hcell _ _ _ _ hpasses
  exact ⟨quiet_default, harea, hcell, ⟨_, hrun, hgrown⟩, _, passes, hpasses, hb⟩

end Area

end SheetTemplate
