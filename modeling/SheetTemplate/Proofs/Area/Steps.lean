import SheetTemplate.Fill.Run
import SheetTemplate.Proofs.Area.Contained
import SheetTemplate.Proofs.Fill.Meaning

/-!
Runs of a replay, step by step. What holds along each step that commands are made of holds along the
replay of a whole tree of areas, whatever its outcome.
-/

namespace SheetTemplate

open FillM

namespace Area

mutual

def Uses (P : Command → Prop) : Area → Prop
  | ⟨_, _, bindings, _, _⟩ => UsesIn P bindings

def UsesIn (P : Command → Prop) : List Binding → Prop
  | [] => True
  | ⟨command, _, _, areas⟩ :: rest => P command ∧ UsesAll P areas ∧ UsesIn P rest

def UsesAll (P : Command → Prop) : List Area → Prop
  | [] => True
  | a :: rest => a.Uses P ∧ UsesAll P rest

end

mutual

theorem uses_true : ∀ a : Area, a.Uses fun _ => True
  | ⟨_, _, bindings, _, _⟩ => usesIn_true bindings

theorem usesIn_true : ∀ bindings : List Binding, UsesIn (fun _ => True) bindings
  | [] => trivial
  | ⟨_, _, _, areas⟩ :: rest => ⟨trivial, usesAll_true areas, usesIn_true rest⟩

theorem usesAll_true : ∀ areas : List Area, UsesAll (fun _ => True) areas
  | [] => trivial
  | a :: rest => ⟨uses_true a, usesAll_true rest⟩

end

end Area

/-- Each step that a replay with commands in `P` can take leads along the relation. -/
structure FillHost.Steps (h : FillHost) (P : Command → Prop) (R : FillState → FillState → Prop) :
    Prop where
  ask : ∀ {α : Type} (m : Meaning → EvalM α), Leads R (do let n ← names; eval (m n))
  eval : ∀ {α : Type} (m : EvalM α), Leads R (eval m)
  bind : ∀ {α : Type} (name : String) (index? : Option String) (item : Value)
    (index : Option Value) (m : FillM α), Leads R m → Leads R (binding name index? item index m)
  place : ∀ r : CellRef, Leads R (onContext fun c => c.place r)
  log : ∀ level source text, Leads R (log level source text)
  copy : ∀ origin target, Leads R (h.copy origin target true)
  value : ∀ r v font?, Leads R (setValue r v font?)
  formula : ∀ r text, Leads R (setFormula r text)
  merge : ∀ title b, Leads R (merge title b)
  image : ∀ r v scaleX scaleY, Leads R (addImage r v scaleX scaleY)
  height : ∀ title row, Leads R (clearRowHeight title row)
  output : ∀ r, Leads R (outputCell r)
  before : ∀ l origin target, Leads R (h.before l origin target)
  after : ∀ l origin target, Leads R (h.after l origin target)
  update : ∀ n info r, Leads R (h.update n info r)
  sheets : ∀ e, P (.each e) → e.multisheet? ≠ none →
    (∀ origin title after?, Leads R (copySheet origin title after?)) ∧
      ∀ title, Leads R (retireSheet title)
  hosted : ∀ c, P (.hosted c) → ∀ target, Leads R (h.run c target)

namespace FillHost.Steps

variable {h : FillHost} {P : Command → Prop} {R : FillState → FillState → Prop} {target : CellRef}

theorem of_total (hR : ∀ s t, R s t) : h.Steps P R := by
  constructor
  case bind => exact fun _ _ _ _ _ _ _ => hR _ _
  case sheets => exact fun _ _ _ => ⟨fun _ _ _ _ => hR _ _, fun _ _ => hR _ _⟩
  all_goals intros; exact fun _ => hR _ _

theorem mono {P' : Command → Prop} (hs : h.Steps P' R) (hP : ∀ c, P c → P' c) : h.Steps P R :=
  { hs with
    sheets := fun e he => hs.sheets e (hP _ he)
    hosted := fun c hc => hs.hosted c (hP _ hc) }

theorem ofFault (hs : h.Steps P R) {α : Type} (r : Except Fault α) : Leads R (ofFault r) :=
  hs.eval _

theorem evaluate (hs : h.Steps P R) (command property text : String) :
    Leads R (within command property (h.evaluate text)) :=
  leads_within (hs.ask fun n => h.evaluator.evaluate n text) _ _

theorem isTrue (hs : h.Steps P R) (command property condition : String) :
    Leads R (within command property (h.isTrue condition)) :=
  leads_within (hs.ask fun n => h.evaluator.isTrue n condition) _ _

section Replay

variable [IsPreorder FillState R]

theorem itemsOr (hs : h.Steps P R) (v : Value) (cause : String → Cause)
    (expression command property : String) :
    Leads R (itemsOr v cause expression command property) := by
  refine (hs.eval _).tryCatch fun f => ?_
  split <;> exact leads_throw _

theorem isAllowed (hs : h.Steps P R) (c : CellCopy) (listeners : List Nat) :
    Leads R (Area.isAllowed h c listeners) := by
  induction listeners with
  | nil => exact leads_pure _
  | cons l rest ih =>
    refine (hs.before _ _ _).bind fun allowed => ?_
    split
    · exact ih
    · exact leads_pure _

theorem copyCell (hs : h.Steps P R) (listeners : List Nat) (c : CellCopy) :
    Leads R (Area.copyCell h listeners c) := by
  have hafter : Leads R (listeners.forM fun l => h.after l c.origin c.target) :=
    leads_forM fun l _ => hs.after _ _ _
  refine (hs.place c.target).bind fun _ => (hs.isAllowed c listeners).bind fun allowed => ?_
  split
  · exact (hs.copy _ _).bind fun _ => hafter
  · exact hafter

theorem copyAll (hs : h.Steps P R) (f : Frame) (copies : List CellCopy) :
    Leads R (Area.copyAll h f copies) :=
  leads_forM fun c _ => hs.copyCell f.listeners c

section Commands

theorem selected (hs : h.Steps P R) (e : EachSpec) (condition : String) (items : List Value) :
    Leads R (e.selected h condition items) := by
  induction items with
  | nil => exact leads_pure _
  | cons item rest ih =>
    refine (hs.bind _ _ _ _ _ (hs.isTrue _ _ _)).bind fun keep => ?_
    exact ih.bind fun _ => leads_pure _

theorem resolve (hs : h.Steps P R) (e : EachSpec) : Leads R (e.resolve h) := by
  unfold EachSpec.resolve
  refine (hs.evaluate _ _ _).bind fun v => (hs.itemsOr _ _ _ _ _).bind fun items => ?_
  split
  · exact leads_pure _
  extract_lets chosen
  have hchosen : ∀ items, Leads R (chosen items) := by
    intro items
    unfold chosen
    split
    · exact leads_pure _
    · exact hs.ofFault _
  split
  · exact (leads_pure _).bind hchosen
  · exact (hs.selected _ _ _).bind hchosen

variable {inner : Inner}

theorem runItems (hs : h.Steps P R) (hi : ∀ target, Leads R (inner.replay target)) (e : EachSpec)
    (index : Nat) (done : Size) (items : List Value) :
    Leads R (e.runItems inner target index done items) := by
  induction items generalizing index done with
  | nil => exact leads_pure _
  | cons item rest ih => exact (hs.bind _ _ _ _ _ (hi _)).bind fun size => ih _ _

theorem runSheets (hs : h.Steps P R) (hi : ∀ target, Leads R (inner.replay target)) (e : EachSpec)
    (hcopy : ∀ origin title after?, Leads R (copySheet origin title after?))
    (titles existing : List String) (index : Nat) (previous : String) (last : Size)
    (items : List Value) :
    Leads R (e.runSheets inner target titles existing index previous last items) := by
  induction items generalizing existing index previous last with
  | nil => exact leads_pure _
  | cons item rest ih =>
    refine (hcopy _ _ _).bind fun _ => ?_
    exact (hs.bind _ _ _ _ _ (hi _)).bind fun size => ih _ _ _ _

theorem runMultisheet (hs : h.Steps P R) (hi : ∀ target, Leads R (inner.replay target))
    (e : EachSpec) (hcopy : ∀ origin title after?, Leads R (copySheet origin title after?))
    (hretire : ∀ title, Leads R (retireSheet title)) (titles : String) (items : List Value) :
    Leads R (e.runMultisheet h inner titles items target) := by
  refine (hs.evaluate _ _ _).bind fun v => (hs.itemsOr _ _ _ _ _).bind fun names => ?_
  refine leads_get.bind fun s => (hs.runSheets hi e hcopy _ _ _ _ _ _).bind fun size => ?_
  exact (hs.log _ _ _).bind fun _ => (hretire _).bind fun _ => leads_pure _

theorem runEach (hs : h.Steps P R) {e : EachSpec} (he : P (.each e)) {inner? : Option Inner}
    (hi : ∀ i ∈ inner?, ∀ target, Leads R (i.replay target)) :
    Leads R (e.run h inner? target) := by
  refine (hs.resolve e).bind fun items => ?_
  split
  · exact leads_pure _
  · cases inner? with
    | none => exact leads_throw _
    | some inner =>
      have hi := hi inner rfl
      cases hm : e.multisheet? with
      | none =>
        exact hs.runItems hi e _ _ _
      | some titles =>
        obtain ⟨hcopy, hretire⟩ := hs.sheets e he (by rw [hm]; exact Option.some_ne_none _)
        exact hs.runMultisheet hi e hcopy hretire _ _

theorem itemsOf (hs : h.Steps P R) (key text : String) : Leads R (GridSpec.itemsOf h key text) :=
  (hs.evaluate _ _ _).bind fun _ => hs.itemsOr _ _ _ _ _

theorem writeRow (hs : h.Steps P R) (inner? : Option Inner) (fontRow : Int) (start : CellRef)
    (col : Nat) (values : List Value) :
    Leads R (GridSpec.writeRow inner? fontRow start col values) := by
  induction values generalizing col with
  | nil => exact leads_pure _
  | cons v rest ih =>
    exact (GridSpec.leads_font? _ _ _).bind fun font? => (hs.value _ _ _).bind fun _ => ih _

theorem writeRows (hs : h.Steps P R) (g : GridSpec) (inner? : Option Inner) (headers : List Value)
    (index : Nat) (rows : List Value) :
    Leads R (GridSpec.run.go g inner? target headers index rows) := by
  induction rows generalizing index with
  | nil => exact leads_pure _
  | cons item rest ih => exact (hs.writeRow _ _ _ _ _).bind fun _ => ih _

theorem writeGrid (hs : h.Steps P R) (g : GridSpec) (inner? : Option Inner)
    (headers rows : List Value) : Leads R (do
      GridSpec.writeRow inner? 0 target 0 headers
      GridSpec.run.go g inner? target headers 1 rows
      return (⟨headers.length, 1 + rows.length⟩ : Size)) :=
  (hs.writeRow _ _ _ _ _).bind fun _ => (hs.writeRows g _ _ _ _).bind fun _ => leads_pure _

theorem runGrid (hs : h.Steps P R) (g : GridSpec) (inner? : Option Inner) :
    Leads R (g.run h inner? target) := by
  refine (hs.itemsOf _ _).bind fun headers => (hs.itemsOf _ _).bind fun rows => ?_
  split
  · exact leads_pure _
  · exact hs.writeGrid g _ _ _

theorem runImage (hs : h.Steps P R) (i : ImageSpec) : Leads R (i.run h target) := by
  refine (hs.evaluate _ _ _).bind fun v => ?_
  split
  · exact (hs.log _ _ _).bind fun _ => leads_pure _
  · split
    · exact (hs.image _ _ _ _).bind fun _ => leads_pure _
    · exact (hs.image _ _ _ _).bind fun _ => leads_pure _
    · exact leads_throw _

theorem dimension (hs : h.Steps P R) (key : String) (given? : Option String) (replayed : Int) :
    Leads R (MergeSpec.dimension h key given? replayed) := by
  unfold MergeSpec.dimension
  split
  · exact leads_pure _
  · dsimp only
    split
    · exact hs.ofFault _
    · refine (hs.evaluate _ _ _).bind fun v => ?_
      split
      · exact leads_pure _
      · split <;> exact leads_throw _

theorem mergeTo (hs : h.Steps P R) (m : MergeSpec) (target : CellRef) (cols rows : Int) :
    Leads R (if cols < m.minCols || rows < m.minRows then do
        FillM.log .debug "merge_cells" ("mergeCells at " ++ target.label ++ ": " ++
          Number.showInt cols ++ "x" ++ Number.showInt rows ++ " below minimum, not merged")
        return (⟨cols, rows⟩ : Size)
      else if cols ≤ 1 && rows ≤ 1 then return ⟨1, 1⟩
      else do
        FillM.merge target.sheet ⟨target.pos, target.pos.offset (rows - 1) (cols - 1)⟩
        return ⟨cols, rows⟩) := by
  split
  · exact (hs.log _ _ _).bind fun _ => leads_pure _
  · split
    · exact leads_pure _
    · exact (hs.merge _ _).bind fun _ => leads_pure _

theorem runMerge (hs : h.Steps P R) (m : MergeSpec) {inner? : Option Inner}
    (hi : ∀ i ∈ inner?, ∀ target, Leads R (i.replay target)) :
    Leads R (m.run h inner? target) := by
  unfold MergeSpec.run
  extract_lets merged
  have hmerged : ∀ replayed, Leads R (merged replayed) := fun replayed =>
    (hs.dimension _ _ _).bind fun cols => (hs.dimension _ _ _).bind fun rows =>
      hs.mergeTo m target cols rows
  cases inner? with
  | none => exact (leads_pure _).bind hmerged
  | some inner => exact (hi inner rfl target).bind hmerged

theorem updateCell (hs : h.Steps P R) (id : Nat) (r : CellRef) :
    Leads R (Updater.updateCell h id r) := by
  refine (hs.output r).bind fun before => (hs.update _ _ _).bind fun after => ?_
  split
  · exact leads_pure _
  · split
    · exact hs.formula _ _
    · exact hs.value _ _ _

theorem runUpdater (hs : h.Steps P R) (name : String) {inner? : Option Inner}
    (hi : ∀ i ∈ inner?, ∀ target, Leads R (i.replay target)) :
    Leads R (Updater.run h name inner? target) := by
  refine (Updater.leads_resolve name).bind fun id => ?_
  have hcells : ∀ size : Size, Leads R (do
      (size.cellsFrom target).forM (Updater.updateCell h id)
      return size) := fun size =>
    (leads_forM fun r _ => hs.updateCell id r).bind fun _ => leads_pure _
  cases inner? with
  | none => exact (leads_pure _).bind hcells
  | some inner => exact (hi inner rfl target).bind hcells

theorem runAutoRowHeight (hs : h.Steps P R) {inner? : Option Inner}
    (hi : ∀ i ∈ inner?, ∀ target, Leads R (i.replay target)) :
    Leads R (SheetTemplate.runAutoRowHeight inner? target) := by
  cases inner? with
  | none => exact leads_pure _
  | some inner =>
    refine (hi inner rfl target).bind fun size => ?_
    exact (leads_forM fun _ _ => hs.height _ _).bind fun _ => leads_pure _

theorem runIf (hs : h.Steps P R) (condition : String) {inners : List Inner}
    (hi : ∀ i ∈ inners, ∀ target, Leads R (i.replay target)) :
    Leads R (SheetTemplate.runIf h condition inners target) := by
  refine (hs.isTrue _ _ _).bind fun holds => ?_
  split
  · exact leads_pure _
  · next inner hinner =>
    apply hi
    cases holds with
    | true => exact List.mem_of_getElem? hinner
    | false => exact List.mem_of_getElem? hinner

theorem run (hs : h.Steps P R) {c : Command} (hc : P c) {inners : List Inner}
    (hi : ∀ i ∈ inners, ∀ target, Leads R (i.replay target)) :
    Leads R (c.run h inners target) := by
  have hhead : ∀ i ∈ inners.head?, ∀ target, Leads R (i.replay target) :=
    fun i h => hi i (List.mem_of_head? h)
  cases c with
  | each e => exact hs.runEach hc hhead
  | «if» condition => exact hs.runIf condition hi
  | grid g => exact hs.runGrid g _
  | image i => exact hs.runImage i
  | mergeCells m => exact hs.runMerge m hhead
  | updateCell updater => exact hs.runUpdater updater hhead
  | autoRowHeight => exact hs.runAutoRowHeight hhead
  | hosted c => exact hs.hosted c hc target

end Commands

end Replay

-- By induction on the tree: an area runs its bindings one after another, each with inner areas.
mutual

theorem replay [IsPreorder FillState R] (hs : h.Steps P R) : ∀ {a : Area}, a.Uses P → ∀ target, Leads R (a.replay h target)
  | ⟨start, size, bindings, listeners, bound⟩, ha, target => by
    rw [Area.replay]
    split
    · exact leads_throw _
    · cases bindings with
      | nil => exact (hs.copyAll _ _).bind fun _ => leads_pure _
      | cons b rest => exact hs.replayBindings ha _ _

theorem replayBindings [IsPreorder FillState R] (hs : h.Steps P R) : ∀ {bindings : List Binding},
    Area.UsesIn P bindings → ∀ f p, Leads R (Area.replayBindings h f p bindings)
  | [], _, f, p => by
    rw [Area.replayBindings]
    exact (hs.copyAll _ _).bind fun _ => leads_pure _
  | ⟨command, start, size, areas⟩ :: rest, ⟨hc, hareas, hrest⟩, f, p => by
    rw [Area.replayBindings]
    refine (hs.copyAll _ _).bind fun _ => (hs.copyAll _ _).bind fun _ => ?_
    refine ((hs.run hc (hs.inners hareas)).mapFailure _).bind fun filled => ?_
    exact (hs.log _ _ _).bind fun _ => hs.replayBindings hrest _ _

theorem inners [IsPreorder FillState R] (hs : h.Steps P R) : ∀ {areas : List Area}, Area.UsesAll P areas →
    ∀ i ∈ Area.inners h areas, ∀ target, Leads R (i.replay target)
  | [], _, i, hi => by
    rw [Area.inners] at hi
    exact absurd hi List.not_mem_nil
  | a :: rest, ⟨ha, hrest⟩, i, hi => by
    rw [Area.inners, List.mem_cons] at hi
    rcases hi with rfl | hi
    · exact hs.replay ha
    · exact hs.inners hrest i hi

end

end FillHost.Steps

theorem FillHost.steps_of_confined {h : FillHost} {P : Command → Prop}
    {R : FillState → FillState → Prop} [Confined (fun _ => True) R]
    (hask : ∀ {α : Type} (m : Meaning → EvalM α), Leads R (do let n ← names; eval (m n)))
    (heval : ∀ {α : Type} (m : EvalM α), Leads R (eval m))
    (hbind : ∀ {α : Type} (name : String) (index? : Option String) (item : Value)
      (index : Option Value) (m : FillM α), Leads R m → Leads R (binding name index? item index m))
    (hplace : ∀ r : CellRef, Leads R (onContext fun c => c.place r))
    (hcopy : ∀ origin target, Leads R (h.copy origin target true))
    (hjournal : ∀ (s : FillState) w, R s { s with journal := w :: s.journal })
    (hmerge : ∀ title b, Leads R (merge title b))
    (himage : ∀ r v scaleX scaleY, Leads R (addImage r v scaleX scaleY))
    (hbefore : ∀ l origin target, Leads R (h.before l origin target))
    (hafter : ∀ l origin target, Leads R (h.after l origin target))
    (hupdate : ∀ n info r, Leads R (h.update n info r))
    (hsheets : ∀ e, P (.each e) → e.multisheet? ≠ none →
      (∀ origin title after?, Leads R (copySheet origin title after?)) ∧
        ∀ title, Leads R (retireSheet title))
    (hhosted : ∀ c, P (.hosted c) → ∀ target, Leads R (h.run c target)) : h.Steps P R where
  ask := hask
  eval := heval
  bind := hbind
  place := hplace
  log := leads_log
  copy := hcopy
  value := fun _ _ _ => leads_setValue _ _ _ fun s => hjournal s _
  formula := fun _ _ => leads_setFormula _ _ fun s => hjournal s _
  merge := hmerge
  image := himage
  height := leads_clearRowHeight
  output := leads_outputCell
  before := hbefore
  after := hafter
  update := hupdate
  sheets := hsheets
  hosted := hhosted

theorem FillHost.steps_of_loose {h : FillHost} {P : Command → Prop}
    {R : FillState → FillState → Prop} [Loose R]
    (hask : ∀ {α : Type} (m : Meaning → EvalM α), Leads R (do let n ← names; eval (m n)))
    (heval : ∀ {α : Type} (m : EvalM α), Leads R (eval m))
    (hbind : ∀ {α : Type} (name : String) (index? : Option String) (item : Value)
      (index : Option Value) (m : FillM α), Leads R m → Leads R (binding name index? item index m))
    (hplace : ∀ r : CellRef, Leads R (onContext fun c => c.place r))
    (hcopy : ∀ origin target, Leads R (h.copy origin target true))
    (hjournal : ∀ (s : FillState) w, R s { s with journal := w :: s.journal })
    (hbefore : ∀ l origin target, Leads R (h.before l origin target))
    (hafter : ∀ l origin target, Leads R (h.after l origin target))
    (hupdate : ∀ n info r, Leads R (h.update n info r))
    (hhosted : ∀ c, P (.hosted c) → ∀ target, Leads R (h.run c target)) : h.Steps P R :=
  steps_of_confined hask heval hbind hplace hcopy hjournal (leads_merge Loose.book) leads_addImage
    hbefore hafter hupdate (fun _ _ _ => ⟨leads_copySheet, leads_retireSheet⟩) hhosted

structure FillHost.Keeps (h : FillHost) (R : FillState → FillState → Prop) : Prop where
  before : ∀ l origin target, Leads R (h.before l origin target)
  after : ∀ l origin target, Leads R (h.after l origin target)
  update : ∀ n info r, Leads R (h.update n info r)
  run : ∀ c target, Leads R (h.run c target)

section Loose

variable {R : FillState → FillState → Prop} [Writable R] [Loose R]
  (hjournal : ∀ (s : FillState) w, R s { s with journal := w :: s.journal })

include hjournal

theorem FillHost.Keeps.steps {h : FillHost} (hh : h.Keeps R)
    (hcopy : ∀ origin target, Leads R (h.copy origin target true)) : h.Steps (fun _ => True) R := by
  apply FillHost.steps_of_loose
  case hask => exact fun m => (leads_names.bind fun _ => leads_evaluated_eval _).lift
  case heval => exact fun m => (leads_evaluated_eval m).lift
  case hbind => exact fun name index? item index m hm => hm.binding Writable.context _ _ _ _
  case hplace => exact fun r => (leads_onContext _).lift
  case hcopy => exact hcopy
  case hjournal => exact hjournal
  case hbefore => exact hh.before
  case hafter => exact hh.after
  case hupdate => exact hh.update
  case hhosted => exact fun c _ => hh.run c

theorem FillOptions.leads_fillArea {o : FillOptions} (hs : o.host.Steps (fun _ => True) R)
    (area : Area) : Leads R (o.fillArea area) := by
  have hreplay : Leads R (FillM.ensuring (area.replay o.host area.start) fun s =>
      { s with
        context := (s.context.removeRun Context.rowName).removeRun Context.columnName }) := by
    intro s
    rw [exec_ensuring]
    exact trans_of R (hs.replay area.uses_true _ s) (Writable.context _ _)
  have hclear : Leads R (clearArea area.ref) :=
    leads_clearArea (fun s x => Loose.book s x) (fun r s => hjournal s (.clear r)) _
  exact hclear.bind fun _ => hreplay.bind fun _ => leads_log _ _ _

end Loose

end SheetTemplate
