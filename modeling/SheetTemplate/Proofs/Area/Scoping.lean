import SheetTemplate.Proofs.Area.Steps

/-!
Loop variables are scoped. Whatever a replay comes to, names mean afterwards what they meant before;
and whenever names are asked for, each means what the innermost open turn binds it to.
-/

namespace SheetTemplate

open FillM

namespace Turn

def find? (t : Turn) (n : String) : Option Value :=
  match t.index? with
  | some (m, i) => if n = m then some i else if n = t.name then some t.value else none
  | none => if n = t.name then some t.value else none

def innermost? (turns : List Turn) (n : String) : Option Value := turns.findSome? fun t => t.find? n

theorem innermost?_concat (turns : List Turn) (t : Turn) (n : String) :
    innermost? (turns ++ [t]) n = (innermost? turns n).or (t.find? n) := by
  rw [innermost?, innermost?, List.findSome?_append]
  congr 1
  rw [List.findSome?_cons]
  cases t.find? n with
  | none => rfl
  | some v => rfl

end Turn

namespace Guard

open Turn

variable (c : Context) (name : String) (index? : Option String) (v : Value) (index : Option Value)

def turn : Turn :=
  match index?.filter fun n => !n.isEmpty, index with
  | some n, some i => ⟨name, v, some (n, i)⟩
  | _, _ => ⟨name, v, none⟩

theorem turns_set : ((Guard.open c name index?).set c v index).turns =
    turn name index? v index :: c.turns := by
  simp only [set, Guard.open, turn]
  cases index?.filter fun n => !n.isEmpty with
  | none => rfl
  | some m =>
    cases index with
    | none => rfl
    | some i => rfl

theorem sights_set : ((Guard.open c name index?).set c v index).sights = c.sights := by
  simp only [set]
  split
  · rfl
  · rfl

theorem run_set (n : String) : ((Guard.open c name index?).set c v index).runVars.find? n =
    ((turn name index? v index).find? n).or (c.runVars.find? n) := by
  have hvar : (c.setRun name v).runVars.find? n =
      ((find? ⟨name, v, none⟩ n).or (c.runVars.find? n)) := by
    rw [Context.run_setRun, Meaning.bind]
    by_cases hn : n = name
    · simp [find?, hn]
    · simp [find?, hn]
  simp only [set, Guard.open, turn]
  cases index?.filter fun n => !n.isEmpty with
  | none => exact hvar
  | some m =>
    cases index with
    | none => exact hvar
    | some i =>
      have hindex : ((c.setRun name v).setRun m i).runVars.find? n =
          ((find? ⟨name, v, some (m, i)⟩ n).or (c.runVars.find? n)) := by
        rw [Context.run_setRun, Meaning.bind, hvar]
        by_cases hm : n = m
        · simp [find?, hm]
        · simp [find?, hm]
      exact hindex

theorem sights_close (d : Context) :
    ((Guard.open c name index?).close d).2.sights = d.sights := by
  have hrestore : ∀ (x : Context) n (v? : Option Value), (x.restore n v?).sights = x.sights := by
    intro x n v?
    cases v? with
    | none => rfl
    | some v => rfl
  simp only [close, Guard.open, Bool.false_eq_true, if_false]
  split
  · rw [hrestore, hrestore]
  · rw [hrestore]

end Guard

/-- What was in sight at one moment of a replay that began in a context: the data of the context,
under the loop variables, which are those of the context under the turns that were opened since. -/
structure Sight.Within (v : Sight) (c : Context) : Prop where
  data : v.data = c.data
  view : v.view = v.data.override v.runVars
  visible : ∀ n, v.view.find? n = (v.runVars.find? n).or (v.data.find? n)
  turns : ∃ turns, v.turns = turns ++ c.turns ∧
    ∀ n, n ≠ Context.rowName → n ≠ Context.columnName →
      v.runVars.find? n = (Turn.innermost? turns n).or (c.runVars.find? n)

namespace Sight.Within

variable {v : Sight} {c d : Context}

theorem near (h : v.Within d) (hcd : Context.Near c d) (hturns : d.turns = c.turns) :
    v.Within c := by
  obtain ⟨turns, hv, hfind⟩ := h.turns
  refine ⟨h.data.trans hcd.data, h.view, h.visible, turns, by rw [hv, hturns], ?_⟩
  intro n hrow hcol
  rw [hfind n hrow hcol, hcd.run n hrow hcol]

theorem outside {name : String} {index? : Option String} {x : Value} {index : Option Value}
    (h : v.Within ((Guard.open c name index?).set c x index)) : v.Within c := by
  obtain ⟨turns, hv, hfind⟩ := h.turns
  refine ⟨h.data.trans ?_, h.view, h.visible, turns ++ [Guard.turn name index? x index], ?_, ?_⟩
  · exact Guard.set_data { items := "", var := name, varIndex? := index? } x index
  · rw [hv, Guard.turns_set, List.append_assoc]
    rfl
  · intro n hrow hcol
    rw [hfind n hrow hcol, Guard.run_set, Turn.innermost?_concat, Option.or_assoc]

theorem innermost (h : v.Within c) : ∃ turns, v.turns = turns ++ c.turns ∧
    ∀ n, n ≠ Context.rowName → n ≠ Context.columnName →
      v.view.find? n = (Turn.innermost? turns n).or (c.get? n) := by
  obtain ⟨turns, hv, hfind⟩ := h.turns
  refine ⟨turns, hv, fun n hrow hcol => ?_⟩
  rw [h.visible, hfind n hrow hcol, h.data, Option.or_assoc]
  rfl

end Sight.Within

namespace Context

variable {c d e : Context}

theorem sight_within (hc : c.Sound) : c.sight.Within c := by
  refine ⟨rfl, ?_, ?_, [], rfl, fun _ _ _ => rfl⟩
  · simp only [sight, view]
    cases hm : c.merged? with
    | none => rfl
    | some names => exact hc.kept names hm
  · intro n
    exact congrFun (view_find? hc) n

structure Follows (c d : Context) : Prop where
  sound : d.Sound
  near : Near c d
  turns : d.turns = c.turns
  sights : ∃ new, d.sights = new ++ c.sights ∧ ∀ v ∈ new, v.Within c

theorem Follows.refl (hc : c.Sound) : Follows c c :=
  ⟨hc, .refl c, rfl, [], rfl, fun _ hv => absurd hv List.not_mem_nil⟩

theorem Follows.trans (h : Follows c d) (h' : Follows d e) : Follows c e := by
  obtain ⟨new, hd, hnew⟩ := h.sights
  obtain ⟨new', he, hnew'⟩ := h'.sights
  refine ⟨h'.sound, h.near.trans h'.near, h'.turns.trans h.turns, new' ++ new, ?_, ?_⟩
  · rw [he, hd, List.append_assoc]
  · intro v hv
    rcases List.mem_append.1 hv with hv | hv
    · exact (hnew' v hv).near h.near h.turns
    · exact hnew v hv

theorem follows_keepView (hc : c.Sound) : Follows c c.keepView := by
  refine ⟨hc.keepView, near_of_kept (.inr rfl), rfl, [c.sight], rfl, fun v hv => ?_⟩
  rw [List.mem_singleton.1 hv]
  exact sight_within hc

theorem follows_place (hc : c.Sound) (r : CellRef) : Follows c (c.place r) :=
  ⟨hc.place r, near_place c r, rfl, [], rfl, fun _ hv => absurd hv List.not_mem_nil⟩

theorem follows_close {name : String} {index? : Option String} {x : Value} {index : Option Value}
    (h : Follows ((Guard.open c name index?).set c x index) d) :
    Follows c ((Guard.open c name index?).close d).2 := by
  obtain ⟨new, hd, hnew⟩ := h.sights
  refine ⟨Guard.sound_close h.sound _, ?_, rfl, new, ?_, fun v hv => (hnew v hv).outside⟩
  · exact Guard.near_close { items := "", var := name, varIndex? := index? } x index h.near
  · rw [Guard.sights_close, hd, Guard.sights_set]

end Context

def FillState.Scoped (s t : FillState) : Prop := s.context.Sound → s.context.Follows t.context

namespace FillState

theorem scoped_of_context {s t : FillState} (h : t.context = s.context) : Scoped s t := by
  intro hs
  rw [h]
  exact .refl hs

instance : IsPreorder FillState Scoped where
  refl _ := scoped_of_context rfl
  trans _ _ _ hst htu := fun hs => (hst hs).trans (htu (hst hs).sound)

instance : Loose Scoped where
  sheet _ _ _ _ := scoped_of_context rfl
  written _ _ := scoped_of_context rfl
  images _ _ _ := scoped_of_context rfl
  log _ _ := scoped_of_context rfl
  book _ _ := scoped_of_context rfl
  sheets _ _ _ := scoped_of_context rfl

end FillState

open FillState

structure FillHost.Discreet (h : FillHost) : Prop where
  before : ∀ l origin target s, (exec (h.before l origin target) s).2.context = s.context
  after : ∀ l origin target s, (exec (h.after l origin target) s).2.context = s.context
  update : ∀ n info r s, (exec (h.update n info r) s).2.context = s.context

namespace FillM

theorem leads_scoped_names : Leads Scoped names := by
  have hkeep : Leads Scoped (onContext Context.keepView) :=
    leads_modify fun _ => Context.follows_keepView
  exact hkeep.bind fun _ => leads_get.bind fun _ => leads_pure _

theorem leads_scoped_eval {α : Type} (m : EvalM α) : Leads Scoped (eval m) :=
  leads_eval m fun _ _ => scoped_of_context rfl

theorem leads_scoped_binding {α : Type} {m : FillM α} (hm : Leads Scoped m) (name : String)
    (index? : Option String) (item : Value) (index : Option Value) :
    Leads Scoped (binding name index? item index m) := by
  intro s hs
  rw [exec_binding]
  have hset : ((Guard.open s.context name index?).set s.context item index).Sound :=
    Guard.sound_set { items := "", var := name, varIndex? := index? } item index hs
  exact Context.follows_close (hm { s with context := _ } hset)

end FillM

def Command.IsBuiltIn : Command → Prop
  | .hosted _ => False
  | _ => True

theorem FillHost.Discreet.steps {h : FillHost} (hd : h.Discreet) :
    h.Steps Command.IsBuiltIn Scoped := by
  have hasks : h.Asks Scoped :=
    ⟨fun text => leads_scoped_names.bind fun n => leads_scoped_eval _⟩
  apply FillHost.steps_of_loose
  case hask => exact fun m => leads_scoped_names.bind fun n => leads_scoped_eval _
  case heval => exact leads_scoped_eval
  case hbind => exact fun name index? item index m hm => leads_scoped_binding hm _ _ _ _
  case hplace => exact fun r s hs => Context.follows_place hs r
  case hcopy =>
    intro origin target
    exact h.leads_copy (leads_merge Loose.book) _ _ _ (fun _ => scoped_of_context rfl)
      fun _ _ => scoped_of_context rfl
  case hjournal => exact fun _ _ => scoped_of_context rfl
  case hbefore => exact fun l origin target s => scoped_of_context (hd.before l origin target s)
  case hafter => exact fun l origin target s => scoped_of_context (hd.after l origin target s)
  case hupdate => exact fun n info r s => scoped_of_context (hd.update n info r s)
  case hhosted => exact fun _ hc => hc.elim

namespace Area

/-- Loop variables are scoped on every path. Whatever the replay of a tree of areas comes to, its
context then has the data that it had, and the loop variables mean what they meant, but for the row
and the column of a copy. At each moment when names were asked for, the data under the loop variables
were in sight, and a name meant what the innermost turn that had been opened for it bound it to. -/
theorem replay_scopes (h : FillHost) (hd : h.Discreet) (a : Area)
    (ha : a.Uses Command.IsBuiltIn) (target : CellRef) (s t : FillState)
    (hs : s.context.Sound) (r : Except Failure Size) (hr : exec (a.replay h target) s = (r, t)) :
    t.context.data = s.context.data ∧
    (∀ n, n ≠ Context.rowName → n ≠ Context.columnName →
      t.context.runVars.find? n = s.context.runVars.find? n) ∧
    t.context.Sound ∧ t.context.turns = s.context.turns ∧
    ∃ sights, t.context.sights = sights ++ s.context.sights ∧ ∀ v ∈ sights,
      v.data = s.context.data ∧ v.view = v.data.override v.runVars ∧
      (∀ n, v.view.find? n = (v.runVars.find? n).or (v.data.find? n)) ∧
      ∃ turns, v.turns = turns ++ s.context.turns ∧
        ∀ n, n ≠ Context.rowName → n ≠ Context.columnName →
          v.view.find? n = (Turn.innermost? turns n).or (s.context.get? n) := by
  have hfollows : s.context.Follows t.context := (hd.steps.replay ha target).apply hr hs
  obtain ⟨sights, ht, hsights⟩ := hfollows.sights
  refine ⟨hfollows.near.data, hfollows.near.run, hfollows.sound, hfollows.turns, sights, ht, ?_⟩
  intro v hv
  exact ⟨(hsights v hv).data, (hsights v hv).view, (hsights v hv).visible, (hsights v hv).innermost⟩

def rowArea : Area :=
  { start := ⟨"S", 0, 0⟩
    size := ⟨1, 2⟩
    bindings := [⟨.each { items := "e", var := "e", varIndex? := some "e" }, ⟨"S", 0, 0⟩, ⟨1, 1⟩,
      [{ start := ⟨"S", 0, 0⟩, size := ⟨1, 1⟩ }]⟩] }

def rowsArea : Area :=
  { start := ⟨"S", 0, 0⟩
    size := ⟨1, 2⟩
    bindings := [⟨.each { items := "rows", var := "e" }, ⟨"S", 0, 0⟩, ⟨1, 2⟩, [rowArea]⟩] }

def rowsState : FillState :=
  { FillState.ofWorkbook
      { sheets := [((({ title := "S" } : Sheet).setCell ⟨0, 0⟩ { value := .text "${e}" }).setCell
          ⟨1, 0⟩ { value := .text "${e}" })] } with
    context := { data := [("rows", .list [.list [.int 10, .int 20], .int 5])] } }

def rowsRun : Except Failure Size × FillState := exec (rowsArea.replay {} ⟨"S", 0, 0⟩) rowsState

theorem rowsArea_scopes :
    ({} : FillHost).Discreet ∧ rowsArea.Uses Command.IsBuiltIn ∧ rowsState.context.Sound ∧
      rowsRun.1.isOk = false ∧
      (rowsRun.2.context.sights.reverse.map fun v => (v.view.find? "e").map Value.shown) =
        [none, some "[10, 20]", some "0", some "1", some "[10, 20]", some "5"] ∧
      rowsRun.2.context.runVars.find? "e" = rowsState.context.runVars.find? "e" ∧
      ∀ v ∈ rowsRun.2.context.sights, v.view = v.data.override v.runVars := by
  have hd : ({} : FillHost).Discreet :=
    ⟨fun _ _ _ _ => rfl, fun _ _ _ _ => rfl, fun _ _ _ _ => rfl⟩
  have ha : rowsArea.Uses Command.IsBuiltIn := by
    simp [rowsArea, rowArea, Uses, UsesIn, UsesAll, Command.IsBuiltIn]
  have hs : rowsState.context.Sound := Context.sound_of_data _
  have hr : exec (rowsArea.replay {} ⟨"S", 0, 0⟩) rowsState = (rowsRun.1, rowsRun.2) := by
    rw [← rowsRun]
  obtain ⟨-, hrun, -, -, sights, ht, hsights⟩ :=
    replay_scopes {} hd rowsArea ha ⟨"S", 0, 0⟩ rowsState rowsRun.2 hs rowsRun.1 hr
  refine ⟨hd, ha, hs, by decide +kernel, by decide +kernel, hrun "e" (by decide) (by decide), ?_⟩
  intro v hv
  rw [ht] at hv
  rcases List.mem_append.1 hv with hv | hv
  · exact (hsights v hv).2.1
  · exact absurd hv List.not_mem_nil

end Area

end SheetTemplate
