import SheetTemplate.Proofs.Area.Locating
import SheetTemplate.Proofs.Area.Preserving

namespace SheetTemplate

open FillM FillState

/-- The replay of an area at a target from `s` comes to copy a cell to a place from `u`: no listener
objects, and the names are bound as they are for this copy. -/
inductive Area.Visits (h : FillHost) (origin place : CellRef) (u : FillState) :
    Area → CellRef → FillState → Prop
  | own {a : Area} {target : CellRef} {s v : FillState} (bound : a.bound = true)
    (comes : ComesTo h (a.frame target) v (.copies ⟨origin, place⟩) (.begin (a.frame target))
      a.bindings s)
    (allowed : exec (isAllowed h ⟨origin, place⟩ a.listeners)
      { v with context := v.context.place place } = (.ok true, u)) :
    Visits h origin place u a target s
  | inner {a x : Area} {b : Binding} {target corner corner' : CellRef}
    {s v w : FillState} (bound : a.bound = true)
    (comes : ComesTo h (a.frame target) v (.runs b corner) (.begin (a.frame target)) a.bindings s)
    (mem : x ∈ b.areas)
    (entered : Command.Enters h (inners h b.areas) corner v b.command ⟨x.start, x.size, x.replay h⟩
      corner' w)
    (visits : Visits h origin place u x corner' w) : Visits h origin place u a target s

namespace FillM

variable {α β : Type} {I : FillState → Prop} {F : Failure → Prop} {s : FillState}

def KeepsFrom (I : FillState → Prop) (s : FillState) (m : FillM α) : Prop :=
  ∀ a t, I s → exec m s = (.ok a, t) → I t

theorem Preserves.keepsFrom {m : FillM α} (hm : Preserves I F m) (s : FillState) :
    KeepsFrom I s m := fun _ _ hs h => hm.ends hs h

theorem keepsFrom_pure (a : α) : KeepsFrom I s (pure a) :=
  (preserves_pure (F := fun _ => True) a).keepsFrom s

theorem KeepsFrom.bind {m : FillM α} {k : α → FillM β} (hm : KeepsFrom I s m)
    (hk : ∀ a t, exec m s = (.ok a, t) → KeepsFrom I t (k a)) : KeepsFrom I s (m >>= k) := by
  intro b u hs h
  obtain ⟨a, t, hrun, h⟩ := bind_eq_ok.1 h
  exact hk a t hrun b u (hm a t hs hrun) h

theorem KeepsFrom.mapFailure {m : FillM α} (hm : KeepsFrom I s m) (g : Failure → Failure) :
    KeepsFrom I s (FillM.mapFailure g m) :=
  fun a t hs h => hm a t hs (mapFailure_eq_ok.1 h)

theorem KeepsFrom.binding {m : FillM α} {name : String} {index? : Option String} {item : Value}
    {index : Option Value} (hI : ∀ s c, I s → I { s with context := c })
    (hm : KeepsFrom I (turned name index? item index s) m) :
    KeepsFrom I s (FillM.binding name index? item index m) := by
  intro a t hs h
  obtain ⟨u, hrun, rfl⟩ := binding_eq_ok h
  exact hI u _ (hm a u (hI s _ hs) hrun)

end FillM

variable {I : FillState → Prop} {s : FillState} {target : CellRef} {inner : Inner}
  {inners : List Inner}

namespace EachSpec

variable {e : EachSpec} {index : Nat} {items : List Value}
  (hI : ∀ s c, I s → I { s with context := c })

include hI

theorem runItems_keeps {done : Size}
    (hi : ∀ place u, e.Turns inner target place u index done items s →
      KeepsFrom I u (inner.replay place)) :
    KeepsFrom I s (e.runItems inner target index done items) := by
  induction items generalizing index done s with
  | nil => exact keepsFrom_pure _
  | cons item rest ih =>
    refine ((hi _ _ (.here rfl rfl)).binding hI).bind fun size t hrun => ih fun place u hu => ?_
    exact hi place u (.later hrun hu)

theorem runSheets_keeps {F : Failure → Prop} {names existing : List String} {previous : String}
    {last : Size} (hcopy : ∀ title after?, Preserves I F (copySheet target.sheet title after?))
    (hi : ∀ place u, e.SheetTurns inner target names place u existing index previous items s →
      KeepsFrom I u (inner.replay place)) :
    KeepsFrom I s (e.runSheets inner target names existing index previous last items) := by
  induction items generalizing existing index previous last s with
  | nil => exact keepsFrom_pure _
  | cons item rest ih =>
    refine ((hcopy _ _).keepsFrom s).bind fun _ t hcopied => ?_
    refine ((hi _ _ (.here rfl hcopied rfl rfl)).binding hI).bind fun size v hrun => ?_
    exact ih fun place u hu => hi place u (.later rfl hcopied hrun hu)

end EachSpec

namespace FillHost.Preserving

variable {h : FillHost} {P : Command → Prop} {O : CellRef → Prop} {F : Failure → Prop}
  (hp : h.Preserving P O (fun _ => True) I F)

include hp

theorem runEach_keeps (hI : ∀ s c, I s → I { s with context := c })
    {e : EachSpec} (he : P (.each e))
    (hi : ∀ inner place u, Command.Enters h inners target s (.each e) inner place u →
      KeepsFrom I u (inner.replay place)) : KeepsFrom I s (e.run h inners.head? target) := by
  obtain ⟨hresolve, hnone⟩ := hp.resolve e he
  refine (hresolve.keepsFrom s).bind fun items t hresolved => ?_
  split
  · exact keepsFrom_pure _
  cases hhead : inners.head? with
  | none => exact (preserves_throw hnone).keepsFrom t
  | some inner =>
    cases hsheets : e.multisheet? with
    | none =>
      exact EachSpec.runItems_keeps hI fun place u hu =>
        hi inner place u (.items hresolved hhead hsheets hu)
    | some names =>
      obtain ⟨htitles, hcopy, hretire, -⟩ := hp.titles e names he hsheets
      intro size v hs hrun
      obtain ⟨v₁, t₁, hvalue, hrun⟩ := bind_eq_ok.1 hrun
      obtain ⟨titles, t₂, hlisted, hrun⟩ := bind_eq_ok.1 hrun
      have ht₂ : I t₂ := htitles.ends hs (bind_eq_ok.2 ⟨v₁, t₁, hvalue, hlisted⟩)
      refine KeepsFrom.bind ((preserves_get (F := F)).keepsFrom t₂) (fun _ _ hget => ?_) size v
        ht₂ hrun
      cases hget
      refine (EachSpec.runSheets_keeps hI (fun _ _ => hcopy _ _ _ trivial) fun place u hu => ?_).bind
        fun size w _ => ?_
      · exact hi inner place u (.sheets hresolved hhead hsheets hvalue hlisted hu)
      · exact ((hp.log _ _ _).bind fun _ => (hretire _ trivial).bind fun _ =>
          preserves_pure _).keepsFrom w

theorem runIf_keeps {condition : String} (hc : P (.if condition))
    (hi : ∀ inner place u, Command.Enters h inners target s (.if condition) inner place u →
      KeepsFrom I u (inner.replay place)) :
    KeepsFrom I s (SheetTemplate.runIf h condition inners target) := by
  refine ((hp.condition condition hc).keepsFrom s).bind fun holds t hasked => ?_
  split
  · exact keepsFrom_pure _
  · next inner htaken => exact hi inner target t (.branch hasked htaken)

theorem runMerge_keeps {m : MergeSpec} (hm : P (.mergeCells m))
    (hi : ∀ inner place u, Command.Enters h inners target s (.mergeCells m) inner place u →
      KeepsFrom I u (inner.replay place)) : KeepsFrom I s (m.run h inners.head? target) := by
  cases hhead : inners.head? with
  | none =>
    have hrun : Preserves I F (m.run h none target) := hp.runMerge hm nofun trivial
    exact hrun.keepsFrom s
  | some inner =>
    intro size t hs hrun
    obtain ⟨replayed, u, hreplay, hrun⟩ := bind_eq_ok.1 hrun
    -- What is left to do is what the command does for an area that is filled already.
    have hfilled : Tame (fun _ => True) I F { inner with replay := fun _ => pure replayed } :=
      fun _ _ => preserves_pure replayed
    have hrest : Preserves I F
        (m.run h (some { inner with replay := fun _ => pure replayed }) target) :=
      hp.runMerge hm (fun i hi => Option.some.inj hi ▸ hfilled) trivial
    have hdone : exec (m.run h (some { inner with replay := fun _ => pure replayed }) target) u =
        (.ok size, t) := bind_eq_ok.2 ⟨replayed, u, rfl, hrun⟩
    exact hrest.ends (hi inner target s (.merged hhead) replayed u hs hreplay) hdone

theorem runUpdater_keeps {name : String} (hn : P (.updateCell name))
    (hi : ∀ inner place u, Command.Enters h inners target s (.updateCell name) inner place u →
      KeepsFrom I u (inner.replay place)) :
    KeepsFrom I s (Updater.run h name inners.head? target) := by
  obtain ⟨hresolve, hupdate⟩ := hp.updater name hn
  refine (hresolve.keepsFrom s).bind fun id t hresolved => ?_
  have hcells : ∀ size : Size, Preserves I F (do
      (size.cellsFrom target).forM (Updater.updateCell h id)
      return size) := by
    intro size
    exact (preserves_forM fun r _ => hupdate id r trivial).bind fun _ => preserves_pure _
  cases hhead : inners.head? with
  | none => exact (keepsFrom_pure _).bind fun size u _ => (hcells size).keepsFrom u
  | some inner =>
    exact (hi inner target t (.updated hresolved hhead)).bind fun size u _ =>
      (hcells size).keepsFrom u

theorem runAutoRowHeight_keeps (ha : P .autoRowHeight)
    (hi : ∀ inner place u, Command.Enters h inners target s .autoRowHeight inner place u →
      KeepsFrom I u (inner.replay place)) :
    KeepsFrom I s (SheetTemplate.runAutoRowHeight inners.head? target) := by
  cases hhead : inners.head? with
  | none => exact keepsFrom_pure _
  | some inner =>
    refine (hi inner target s (.fitted hhead)).bind fun size u _ => ?_
    exact ((preserves_forM fun _ _ => hp.height ha _ _ trivial).bind fun _ =>
      preserves_pure _).keepsFrom u

theorem run_keeps (hI : ∀ s c, I s → I { s with context := c })
    {c : Command} (hc : P c)
    (hi : ∀ inner place u, Command.Enters h inners target s c inner place u →
      KeepsFrom I u (inner.replay place)) : KeepsFrom I s (c.run h inners target) := by
  cases c with
  | each e => exact hp.runEach_keeps hI hc hi
  | «if» condition => exact hp.runIf_keeps hc hi
  | grid g => exact (hp.runGrid hc _ trivial).keepsFrom s
  | image i => exact (hp.image i hc target trivial).keepsFrom s
  | mergeCells m => exact hp.runMerge_keeps hc hi
  | updateCell name => exact hp.runUpdater_keeps hc hi
  | autoRowHeight => exact hp.runAutoRowHeight_keeps hc hi
  | hosted c => exact (hp.hosted c hc target trivial).keepsFrom s

theorem copyCell_keeps {listeners : List Nat} {c : CellCopy}
    (hc : ∀ u, exec (Area.isAllowed h c listeners)
      { s with context := s.context.place c.target } = (.ok true, u) →
        KeepsFrom I u (h.copy c.origin c.target true)) :
    KeepsFrom I s (Area.copyCell h listeners c) := by
  have hafter : Preserves I F (listeners.forM fun l => h.after l c.origin c.target) :=
    preserves_forM fun l _ => hp.after _ _ _ trivial
  refine ((hp.place c.target).keepsFrom s).bind fun _ t hplace => ?_
  cases hplace
  refine ((hp.isAllowed trivial listeners).keepsFrom _).bind fun allowed u hasked => ?_
  cases allowed with
  | true => exact (hc u hasked).bind fun _ v _ => hafter.keepsFrom v
  | false => exact hafter.keepsFrom u

end FillHost.Preserving

namespace Area

variable {h : FillHost} {f : Frame} {copies : List CellCopy} {p : Progress}
  {bindings : List Binding}

def Task.Kept (h : FillHost) (listeners : List Nat) (I : FillState → Prop) (s : FillState) :
    Task → Prop
  | .copies c => KeepsFrom I s (copyCell h listeners c)
  | .runs b target => KeepsFrom I s (b.command.run h (Area.inners h b.areas) target)

def Kept (h : FillHost) (I : FillState → Prop) (a : Area) : Prop :=
  ∀ target s, (∀ origin place u, a.Visits h origin place u target s →
    KeepsFrom I u (h.copy origin place true)) → KeepsFrom I s (a.replay h target)

theorem copyAll_keeps
    (hc : ∀ c u, ComesAmong h f copies c u s → KeepsFrom I u (copyCell h f.listeners c)) :
    KeepsFrom I s (copyAll h f copies) := by
  induction copies generalizing s with
  | nil => exact keepsFrom_pure _
  | cons c rest ih =>
    refine (hc c s ⟨[], rest, rfl, rfl⟩).bind fun _ t hrun => ih fun d u hu => ?_
    obtain ⟨before, after, rfl, hbefore⟩ := hu
    exact hc d u ⟨c :: before, after, rfl, bind_eq_ok.2 ⟨(), t, hrun, hbefore⟩⟩

theorem replayBindings_keeps {F : Failure → Prop}
    (hlog : ∀ level source text, Preserves I F (log level source text))
    (ht : ∀ task u, ComesTo h f u task p bindings s → task.Kept h f.listeners I u) :
    KeepsFrom I s (replayBindings h f p bindings) := by
  induction bindings generalizing p s with
  | nil =>
    rw [replayBindings]
    exact (copyAll_keeps fun c u hu => ht (.copies c) u (.last hu)).bind fun _ _ _ =>
      keepsFrom_pure _
  | cons b rest ih =>
    obtain ⟨command, start, size, areas⟩ := b
    rw [replayBindings]
    refine (copyAll_keeps fun c u hu => ht (.copies c) u (.above hu)).bind fun _ t habove => ?_
    refine (copyAll_keeps fun c u hu => ht (.copies c) u (.beside habove hu)).bind
      fun _ u hbeside => ?_
    refine ((ht (.runs ⟨command, start, size, areas⟩ _) u (.run habove hbeside)).mapFailure _).bind
      fun filled v hrun => ((hlog _ _ _).keepsFrom v).bind fun _ w hlogged => ?_
    obtain rfl : _ = w := congrArg Prod.snd hlogged
    exact ih fun task u hu => ht task u (.later habove hbeside (mapFailure_eq_ok.1 hrun) hu)

theorem ComesTo.mem {b : Binding} {u : FillState}
    (hc : ComesTo h f u (.runs b target) p bindings s) : b ∈ bindings := by
  generalize htask : Task.runs b target = task at hc
  induction hc with
  | last => cases htask
  | above => cases htask
  | beside => cases htask
  | run =>
    cases htask
    exact List.mem_cons_self
  | later above beside run tail ih => exact List.mem_cons_of_mem _ (ih htask)

theorem exists_of_mem_inners {areas : List Area} (hi : inner ∈ Area.inners h areas) :
    ∃ x ∈ areas, inner = ⟨x.start, x.size, x.replay h⟩ := by
  induction areas with
  | nil =>
    rw [Area.inners] at hi
    exact absurd hi List.not_mem_nil
  | cons a rest ih =>
    rw [Area.inners, List.mem_cons] at hi
    rcases hi with rfl | hi
    · exact ⟨a, List.mem_cons_self, rfl⟩
    · obtain ⟨x, hx, rfl⟩ := ih hi
      exact ⟨x, List.mem_cons_of_mem a hx, rfl⟩

end Area

theorem Command.Enters.mem {h : FillHost} {c : Command} {place : CellRef} {u : FillState}
    (he : Command.Enters h inners target s c inner place u) : inner ∈ inners := by
  cases he with
  | branch asked taken =>
    split at taken
    · exact List.mem_of_getElem? taken
    · exact List.mem_of_getElem? taken
  | items resolved head => exact List.mem_of_head? head
  | sheets resolved head => exact List.mem_of_head? head
  | merged head => exact List.mem_of_head? head
  | updated resolved head => exact List.mem_of_head? head
  | fitted head => exact List.mem_of_head? head

namespace FillHost.Preserving

variable {h : FillHost} {P : Command → Prop} {O : CellRef → Prop} {F : Failure → Prop}

mutual

theorem keeps (hp : h.Preserving P O (fun _ => True) I F)
    (hI : ∀ s c, I s → I { s with context := c }) : ∀ {a : Area}, a.Uses P → a.Kept h I
  | ⟨start, size, bindings, listeners, bound⟩, ha => by
    intro target s hvisits
    rw [Area.replay]
    split
    · exact (preserves_throw (hp.unbound _)).keepsFrom s
    next hbound =>
    have hbound : bound = true := by simpa using hbound
    have htasks : ∀ task u, Area.ComesTo h ⟨start, size, listeners, target⟩ u task
        (.begin ⟨start, size, listeners, target⟩) bindings s → task.Kept h listeners I u := by
      intro task u hu
      cases task with
      | copies c =>
        exact hp.copyCell_keeps fun v hallowed => hvisits c.origin c.target v (.own hbound hu hallowed)
      | runs b corner =>
        obtain ⟨hc, hareas⟩ := hp.keepsIn hI ha b hu.mem
        refine hp.run_keeps hI hc fun inner corner' w hw => ?_
        obtain ⟨x, hx, rfl⟩ := Area.exists_of_mem_inners hw.mem
        exact hareas x hx corner' w fun origin place v hv =>
          hvisits origin place v (.inner hbound hu hx hw hv)
    cases bindings with
    | nil =>
      refine (Area.copyAll_keeps (f := ⟨start, size, listeners, target⟩) fun c u hu =>
        htasks (.copies c) u (.last ?_)).bind fun _ _ _ => keepsFrom_pure _
      rwa [Area.below_begin]
    | cons b rest => exact Area.replayBindings_keeps hp.log htasks

theorem keepsIn (hp : h.Preserving P O (fun _ => True) I F)
    (hI : ∀ s c, I s → I { s with context := c }) : ∀ {bindings : List Binding},
    Area.UsesIn P bindings → ∀ b ∈ bindings, P b.command ∧ ∀ x ∈ b.areas, x.Kept h I
  | ⟨command, start, size, areas⟩ :: rest, ⟨hc, hareas, hrest⟩, b, hb => by
    rcases List.mem_cons.1 hb with hhead | hb
    · exact hhead ▸ ⟨hc, hp.keepsAll hI hareas⟩
    · exact hp.keepsIn hI hrest b hb

theorem keepsAll (hp : h.Preserving P O (fun _ => True) I F)
    (hI : ∀ s c, I s → I { s with context := c }) : ∀ {areas : List Area},
    Area.UsesAll P areas → ∀ x ∈ areas, x.Kept h I
  | a :: rest, ⟨ha, hrest⟩, x, hx => by
    rcases List.mem_cons.1 hx with hhead | hx
    · exact hhead ▸ hp.keeps hI ha
    · exact hp.keepsAll hI hrest x hx

end

end FillHost.Preserving

end SheetTemplate
