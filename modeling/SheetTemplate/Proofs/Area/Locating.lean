import SheetTemplate.Proofs.Area.Appearing
import SheetTemplate.Proofs.Command.Reaching

/-!
Where an expression error is told to be. The replay of a tree of areas comes to ask the evaluator
for a cell or for an attribute; the failure that leaves the tree is told of this cell, or of this
attribute, and of the innermost command around it.
-/

namespace SheetTemplate

open FillM FillState

structure TemplateFault.Bare (e : TemplateFault) : Prop where
  family : e.cause.family = .expression
  cell : e.cell = none
  command : e.command = none
  property : e.property = none

inductive Spot where
  | cell (r : CellRef)
  | property (key : String)

/-- An error with the location of its spot, which lies within bindings, the innermost first. A cell
is told of the command that replays it, and an attribute of its command and of where this begins. -/
def Spot.tell (around : List Binding) (e : TemplateFault) : Spot → TemplateFault
  | cell r =>
    { e with
      cell := some r.label
      command := around.head?.map fun b => b.command.name
      property := none }
  | property key =>
    { e with
      cell := around.head?.map fun b => b.start.label
      command := around.head?.map fun b => b.command.name
      property := some key }

namespace Spot

variable {e : TemplateFault} {b : Binding} {around : List Binding} {r : CellRef} {key : String}

theorem tell_cell (he : e.Bare) :
    (Failure.template e).locateExpression (some r.label) none none =
      .template ((cell r).tell [] e) := by
  obtain ⟨cause, place, command, property, expression⟩ := e
  obtain ⟨hfamily, rfl, rfl, rfl⟩ := he
  rw [Failure.locateExpression, if_pos hfamily]
  rfl

theorem tell_property (he : e.Bare) (hb : b.command.name.isEmpty = false) :
    ((Failure.template e).locateExpression none (some b.command.name) (some key)).locate
        (some b.start.label) (some b.command.name) none =
      .template ((property key).tell [b] e) := by
  obtain ⟨cause, place, command, property, expression⟩ := e
  obtain ⟨hfamily, rfl, rfl, rfl⟩ := he
  rw [Failure.locateExpression, if_pos hfamily]
  simp [Failure.locate, TemplateFault.locate, TemplateFault.isBlankName, hb, tell]

theorem locate_tell_cell (hb : b.command.name.isEmpty = false) :
    ((cell r).tell [] e).locate (some b.start.label) (some b.command.name) none =
      (cell r).tell [b] e := by
  simp [TemplateFault.locate, TemplateFault.isBlankName, hb, tell]

theorem locate_tell {spot : Spot} (hb : b.command.name.isEmpty = false)
    (cell command : Option String) :
    (spot.tell (b :: around) e).locate cell command none = spot.tell (b :: around) e := by
  cases spot <;> simp [TemplateFault.locate, TemplateFault.isBlankName, hb, tell]

theorem tell_append {spot : Spot} (c : Binding) :
    spot.tell (b :: around ++ [c]) e = spot.tell (b :: around) e := by
  cases spot <;> rfl

end Spot

namespace Area

inductive Task where
  | copies (c : CellCopy)
  | runs (b : Binding) (target : CellRef)

variable (h : FillHost)

def Task.Fails (listeners : List Nat) (s : FillState) (f : Failure) : Task → Prop
  | copies c => FillM.Fails (copyCell h listeners c) s f
  | runs b target => ∃ g, FillM.Fails (b.command.run h (inners h b.areas) target) s g ∧
      f = g.locate (some b.start.label) (some b.command.name) none

def ComesAmong (f : Frame) (copies : List CellCopy) (c : CellCopy) (u s : FillState) : Prop :=
  ∃ before after, copies = before ++ c :: after ∧ exec (copyAll h f before) s = (.ok (), u)

inductive ComesTo (f : Frame) (u : FillState) : Task → Progress → List Binding → FillState → Prop
  | last {p : Progress} {c : CellCopy} {s : FillState} (among : ComesAmong h f (p.below f) c u s) :
    ComesTo f u (.copies c) p [] s
  | above {p : Progress} {b : Binding} {rest : List Binding} {c : CellCopy} {s : FillState}
    (among : ComesAmong h f (p.above f b) c u s) : ComesTo f u (.copies c) p (b :: rest) s
  | beside {p : Progress} {b : Binding} {rest : List Binding} {c : CellCopy} {s t : FillState}
    (above : exec (copyAll h f (p.above f b)) s = (.ok (), t))
    (among : ComesAmong h f ((p.atBinding b).beside f b) c u t) :
    ComesTo f u (.copies c) p (b :: rest) s
  | run {p : Progress} {b : Binding} {rest : List Binding} {s t : FillState}
    (above : exec (copyAll h f (p.above f b)) s = (.ok (), t))
    (beside : exec (copyAll h f ((p.atBinding b).beside f b)) t = (.ok (), u)) :
    ComesTo f u (.runs b ((p.atBinding b).commandTarget f b)) p (b :: rest) s
  | later {task : Task} {p : Progress} {b : Binding} {rest : List Binding}
    {s₁ s₂ s₃ s₄ : FillState} {filled : Size}
    (above : exec (copyAll h f (p.above f b)) s₁ = (.ok (), s₂))
    (beside : exec (copyAll h f ((p.atBinding b).beside f b)) s₂ = (.ok (), s₃))
    (run : exec (b.command.run h (inners h b.areas) ((p.atBinding b).commandTarget f b)) s₃ =
      (.ok filled, s₄))
    (tail : ComesTo f u task ((p.atBinding b).afterCommand f b filled) rest
      (exec (log .debug "area" (b.command.name ++ " at " ++
        ((p.atBinding b).commandTarget f b).label ++ " -> " ++ filled.text)) s₄).2) :
    ComesTo f u task p (b :: rest) s₁

structure AsksText (listeners : List Nat) (c : CellCopy) (text : String) (s u : FillState) :
    Prop where
  asked : ∃ v x cell info,
    exec (isAllowed h c listeners) { s with context := s.context.place c.target } = (.ok true, v) ∧
      exec (open? c.target) { v with journal := .copy c.origin c.target :: v.journal } =
        (.ok (some cell), x) ∧
      x.template.cell? c.origin = some info ∧
      exec (do
        putCell c.target { cell with font? := info.font?.or cell.font? }
        FillHost.copySizes c.origin c.target true) x = (.ok (), u) ∧
      h.expressionText? info.source = some text

/-- The replay of an area at a target comes to ask the evaluator from `u`, within bindings, the
innermost first. -/
inductive Reaches : Spot → Question → FillState → List Binding → Area → CellRef → FillState → Prop
  | cell {a : Area} {target : CellRef} {c : CellCopy} {text : String} {s v u : FillState}
    (bound : a.bound = true)
    (comes : ComesTo h (a.frame target) v (.copies c) (.begin (a.frame target)) a.bindings s)
    (asked : AsksText h a.listeners c text v u) :
    Reaches (.cell c.origin) (.content text) u [] a target s
  | property {a : Area} {b : Binding} {target place : CellRef} {key : String} {q : Question}
    {s v u : FillState} (bound : a.bound = true)
    (comes : ComesTo h (a.frame target) v (.runs b place) (.begin (a.frame target)) a.bindings s)
    (asked : Command.Asks h (inners h b.areas) place v b.command key q u) :
    Reaches (.property key) q u [b] a target s
  | inner {spot : Spot} {q : Question} {around : List Binding} {a x : Area} {b : Binding}
    {target place place' : CellRef} {s v w u : FillState} (bound : a.bound = true)
    (comes : ComesTo h (a.frame target) v (.runs b place) (.begin (a.frame target)) a.bindings s)
    (mem : x ∈ b.areas)
    (entered : Command.Enters h (inners h b.areas) place v b.command ⟨x.start, x.size, x.replay h⟩
      place' w)
    (reaches : Reaches spot q u around x place' w) :
    Reaches spot q u (around ++ [b]) a target s

variable {h} {f : Frame} {a : Area} {target : CellRef} {task : Task} {p : Progress}
  {bindings : List Binding} {c : CellCopy} {copies : List CellCopy} {text : String}
  {listeners : List Nat} {s u : FillState} {g : Failure}

theorem ComesAmong.fails (hc : ComesAmong h f copies c u s)
    (hg : FillM.Fails (copyCell h f.listeners c) u g) : FillM.Fails (copyAll h f copies) s g := by
  obtain ⟨before, after, hcopies, hbefore⟩ := hc
  exact Fails.forM hcopies hbefore hg

theorem ComesTo.fails (hc : ComesTo h f u task p bindings s) (hg : task.Fails h f.listeners u g) :
    FillM.Fails (replayBindings h f p bindings) s g := by
  induction hc with
  | last among =>
    rw [replayBindings]
    exact (among.fails hg).bind
  | @above p b rest c s among =>
    obtain ⟨command, start, size, areas⟩ := b
    rw [replayBindings]
    exact (among.fails hg).bind
  | @beside p b rest c s t above among =>
    obtain ⟨command, start, size, areas⟩ := b
    rw [replayBindings]
    exact Fails.after above (among.fails hg).bind
  | @run p b rest s t above beside =>
    obtain ⟨command, start, size, areas⟩ := b
    obtain ⟨g, hrun, rfl⟩ := hg
    rw [replayBindings]
    refine Fails.after above (Fails.after beside ?_)
    exact (hrun.mapFailure fun e => e.locate (some start.label) (some command.name) none).bind
  | @later task p b rest s₁ s₂ s₃ s₄ filled above beside run tail ih =>
    obtain ⟨command, start, size, areas⟩ := b
    rw [replayBindings]
    refine Fails.after above (Fails.after beside ?_)
    exact Fails.after (mapFailure_eq_ok.2 run) (Fails.after rfl (ih hg))

theorem replay_fails (hbound : a.bound = true)
    (hc : ComesTo h (a.frame target) u task (.begin (a.frame target)) a.bindings s)
    (hg : task.Fails h a.listeners u g) : FillM.Fails (a.replay h target) s g := by
  obtain ⟨start, size, bindings, listeners, bound⟩ := a
  obtain rfl : bound = true := hbound
  rw [replay]
  cases bindings with
  | nil =>
    cases hc with
    | last among =>
      rw [below_begin] at among
      exact (among.fails hg).bind
  | cons b rest => exact hc.fails hg

theorem AsksText.fails (ha : AsksText h listeners c text s u)
    (hg : FillM.Fails (h.evaluateText text) u g) :
    FillM.Fails (copyCell h listeners c) s
      (g.locateExpression (some c.origin.label) none none) := by
  obtain ⟨v, x, cell, info, hallowed, hopen, hinfo, hsizes, htext⟩ := ha.asked
  -- The text is that of the formula, if the cell has one, and else that of the value.
  have hheld : FillM.Fails (h.copyHeld c.origin c.target
      { cell with font? := info.font?.or cell.font? } info) u
      (g.locateExpression (some c.origin.label) none none) := by
    have hat := hg.mapFailure fun f => f.locateExpression (some c.origin.label) none none
    rw [FillHost.copyHeld]
    rw [CellInfo.source] at htext
    cases hactive : info.activeFormula? with
    | some formula =>
      rw [hactive] at htext
      dsimp only at htext ⊢
      rw [FillHost.copyFormula, FillHost.formulaFor, htext]
      exact hat.bind.bind
    | none =>
      rw [hactive] at htext
      dsimp only at htext ⊢
      rw [FillHost.copyValue, htext]
      exact hat.bind
  have hcopy : FillM.Fails (h.copy c.origin c.target true) v
      (g.locateExpression (some c.origin.label) none none) := by
    refine Fails.after rfl (Fails.after hopen (Fails.after rfl ?_))
    rw [hinfo]
    obtain ⟨_, y, hput, hsizes⟩ := bind_eq_ok.1 hsizes
    exact Fails.after hput (Fails.after hsizes hheld.bind)
  refine Fails.after rfl (Fails.after hallowed ?_)
  exact hcopy.bind

variable {spot : Spot} {q : Question} {around : List Binding}

theorem Reaches.named (hr : Reaches h spot q u around a target s) :
    (∀ b ∈ around, b.command.name.isEmpty = false) ∧ (around = [] → ∃ r, spot = .cell r) := by
  induction hr with
  | cell => exact ⟨fun b hb => absurd hb List.not_mem_nil, fun _ => ⟨_, rfl⟩⟩
  | property bound comes asked =>
    refine ⟨fun b hb => ?_, fun hnil => absurd hnil (List.cons_ne_nil _ _)⟩
    rw [List.mem_singleton.1 hb]
    exact asked.name_ne
  | @inner spot q around a x b target place place' s v w u bound comes mem entered reaches ih =>
    refine ⟨fun c hc => ?_, fun hnil => absurd hnil (by simp)⟩
    rcases List.mem_append.1 hc with hc | hc
    · exact ih.1 c hc
    · rw [List.mem_singleton.1 hc]
      exact entered.name_ne

/-- An expression error that the evaluator raises without a location of its own leaves the tree with
the location of its spot: the cell, or the attribute, and the innermost command around it. -/
theorem Reaches.located (hr : Reaches h spot q u around a target s) {e : TemplateFault}
    (he : e.Bare) (hf : q.Fails h u (.template e)) :
    FillM.Fails (a.replay h target) s (.template (spot.tell around e)) := by
  induction hr with
  | cell bound comes asked =>
    have hcopy := asked.fails hf
    rw [Spot.tell_cell he] at hcopy
    exact replay_fails bound comes hcopy
  | property bound comes asked =>
    rw [← Spot.tell_property he asked.name_ne]
    exact replay_fails bound comes ⟨_, asked.fails hf, rfl⟩
  | @inner spot q around a x b target place place' s v w u bound comes mem entered reaches ih =>
    have hrun := entered.fails (ih hf)
    -- The binding locates what its command failed with: here it adds the command to a cell that
    -- has none yet, and nothing else.
    have htell : (spot.tell around e).locate (some b.start.label) (some b.command.name) none =
        spot.tell (around ++ [b]) e := by
      obtain ⟨hnamed, hnil⟩ := reaches.named
      cases around with
      | nil =>
        obtain ⟨r, rfl⟩ := hnil rfl
        exact Spot.locate_tell_cell entered.name_ne
      | cons c around =>
        rw [Spot.tell_append]
        exact Spot.locate_tell (hnamed c List.mem_cons_self) _ _
    rw [← htell]
    exact replay_fails bound comes ⟨_, hrun, rfl⟩

def faulty : Area := { start := ⟨"S", 0, 0⟩, size := ⟨1, 1⟩ }

def faultyCell : Cell := { value := .text "${1/0}", type := .text }

def faultyEach : EachSpec := { items := "xs", var := "x" }

def faultyLoop : Binding := ⟨.each faultyEach, faulty.start, faulty.size, [faulty]⟩

def faultyLoops : Area := { faulty with bindings := [faultyLoop] }

def faultyChoice : Binding := ⟨.if "true", faulty.start, faulty.size, [faultyLoops]⟩

def faultyRoot : Area := { faulty with bindings := [faultyChoice] }

def faultyStart : FillState :=
  { FillState.ofWorkbook
      { sheets := [({ title := "S" } : Sheet).setCell faulty.start.pos faultyCell] } with
    context := { data := [("xs", .list [.int 1])] } }

def faultyChosen : FillState :=
  (exec (within "if" "condition" (FillHost.isTrue {} "true")) faultyStart).2

def faultyListed : FillState := (exec (faultyEach.resolve {}) faultyChosen).2

def faultyTurned : FillState := turned "x" none (.int 1) (some (.int 0)) faultyListed

def faultyOpened : FillState :=
  (exec (open? faulty.start)
    { faultyTurned with
      context := faultyTurned.context.place faulty.start
      journal := .copy faulty.start faulty.start :: faultyTurned.journal }).2

def faultyAsked : FillState :=
  (exec (do
    putCell faulty.start faultyCell
    FillHost.copySizes faulty.start faulty.start true) faultyOpened).2

def divisionFault : TemplateFault :=
  { cause := .evaluation "1/0" ⟨.zeroDivision, "division by zero"⟩, expression := some "1/0" }

theorem faulty_asks :
    AsksText {} [] ⟨faulty.start, faulty.start⟩ "${1/0}" faultyTurned faultyAsked := by
  have hcell : (faultyOpened.template.cell? faulty.start).map
      (fun i => (i.font?, ({} : FillHost).expressionText? i.source)) =
        some (none, some "${1/0}") := by decide +kernel
  obtain ⟨info, hinfo, hshown⟩ := Option.map_eq_some_iff.1 hcell
  obtain ⟨hfont, htext⟩ := Prod.mk.inj hshown
  refine ⟨_, _, _, info, rfl, eq_ok_of_toOption (a := some faultyCell) rfl, hinfo, ?_, htext⟩
  rw [hfont]
  exact eq_ok_of_toOption (a := ()) rfl

theorem faulty_located :
    FillM.Fails (faultyRoot.replay {} faulty.start) faultyStart
      (.template { divisionFault with cell := some "S!A1", command := some "each" }) := by
  have hchosen : exec (within "if" "condition" (FillHost.isTrue {} "true")) faultyStart =
      (.ok true, faultyChosen) := eq_ok_of_toOption rfl
  have hlisted : exec (faultyEach.resolve {}) faultyChosen = (.ok [.int 1], faultyListed) :=
    eq_ok_of_toOption rfl
  have hcell : Reaches {} (.cell faulty.start) (.content "${1/0}") faultyAsked [] faulty
      faulty.start faultyTurned :=
    .cell (c := ⟨faulty.start, faulty.start⟩) rfl (.last ⟨[], [], rfl, rfl⟩) faulty_asks
  have hloop : Reaches {} (.cell faulty.start) (.content "${1/0}") faultyAsked ([] ++ [faultyLoop])
      faultyLoops faulty.start faultyChosen :=
    .inner rfl (.run rfl rfl) List.mem_cons_self
      (.items hlisted rfl rfl (.here rfl rfl)) hcell
  have hroot : Reaches {} (.cell faulty.start) (.content "${1/0}") faultyAsked
      ([faultyLoop] ++ [faultyChoice]) faultyRoot faulty.start faultyStart :=
    .inner rfl (.run rfl rfl) List.mem_cons_self (.branch hchosen rfl) hloop
  have hfails : FillM.Fails (FillHost.evaluateText {} "${1/0}") faultyAsked
      (.template divisionFault) := by decide +kernel
  have hlabel : faulty.start.label = "S!A1" := by decide +kernel
  rw [← hlabel]
  exact Reaches.located hroot (e := divisionFault) ⟨rfl, rfl, rfl, rfl⟩ hfails

end Area

end SheetTemplate
