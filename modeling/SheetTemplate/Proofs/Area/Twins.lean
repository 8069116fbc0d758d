import SheetTemplate.Proofs.Area.Steps
import SheetTemplate.Proofs.Fill.Agreeing

namespace SheetTemplate

open FillM

structure FillHost.Twins (h : FillHost) (P : Command → Prop) (Good : FillState → Prop)
    (pair : CellRef → CellRef → Prop) (V : Value → Prop) (R : FillState → FillState → Prop) :
    Prop where
  steps : h.Steps P (Spoils Good)
  offset : ∀ {r r' : CellRef}, pair r r' → ∀ i j, pair (r.offset i j) (r'.offset i j)
  log : ∀ level source text text', AgreeOn Good R (log level source text) (log level source text')
  bind : ∀ {Q : Size → Size → Prop} (name : String) (index? : Option String) (item : Value) (i : Nat)
    (m m' : FillM Size), V item → Agree Good R Q m m' →
      Agree Good R Q (binding name index? item (some (.int i)) m)
        (binding name index? item (some (.int i)) m')
  copy : ∀ listeners origin {r r' : CellRef}, pair r r' →
    AgreeOn Good R (Area.copyCell h listeners ⟨origin, r⟩) (Area.copyCell h listeners ⟨origin, r'⟩)
  font : ∀ inner? row col, Agree Good R Eq (GridSpec.font? inner? row col)
    (GridSpec.font? inner? row col)
  value : ∀ {r r' : CellRef}, pair r r' → ∀ v font?,
    AgreeOn Good R (setValue r v font?) (setValue r' v font?)
  merge : ∀ m, P (.mergeCells m) → ∀ {r r' : CellRef}, pair r r' → ∀ i j,
    AgreeOn Good R (merge r.sheet ⟨r.pos, r.pos.offset i j⟩) (merge r'.sheet ⟨r'.pos, r'.pos.offset i j⟩)
  height : ∀ {r r' : CellRef}, pair r r' → ∀ i : Int,
    AgreeOn Good R (clearRowHeight r.sheet (r.row + i)) (clearRowHeight r'.sheet (r'.row + i))
  resolve : ∀ e, P (.each e) → e.multisheet? = none ∧
    Agree Good R (fun items items' => items' = items ∧ ∀ v ∈ items, V v) (e.resolve h) (e.resolve h)
  condition : ∀ c, P (.if c) → Agree Good R Eq (within "if" "condition" (h.isTrue c))
    (within "if" "condition" (h.isTrue c))
  grid : ∀ g, P (.grid g) →
    Agree Good R Eq (GridSpec.itemsOf h "headers" g.headers) (GridSpec.itemsOf h "headers" g.headers) ∧
      Agree Good R Eq (GridSpec.itemsOf h "data" g.rows) (GridSpec.itemsOf h "data" g.rows)
  image : ∀ i, P (.image i) → ∀ {r r' : CellRef}, pair r r' →
    Agree Good R Eq (i.run h r) (i.run h r')
  dimension : ∀ m, P (.mergeCells m) → ∀ replayed : Size,
    Agree Good R Eq (MergeSpec.dimension h "cols" m.cols? replayed.width)
        (MergeSpec.dimension h "cols" m.cols? replayed.width) ∧
      Agree Good R Eq (MergeSpec.dimension h "rows" m.rows? replayed.height)
        (MergeSpec.dimension h "rows" m.rows? replayed.height)
  updater : ∀ name, P (.updateCell name) → ∃ Q : Nat → Nat → Prop,
    Agree Good R Q (Updater.resolve name) (Updater.resolve name) ∧
      ∀ id id', Q id id' → ∀ {r r' : CellRef}, pair r r' →
        AgreeOn Good R (Updater.updateCell h id r) (Updater.updateCell h id' r')
  hosted : ∀ c, P (.hosted c) → ∀ {r r' : CellRef}, pair r r' → Agree Good R Eq (h.run c r) (h.run c r')

namespace FillHost.Twins

variable {h : FillHost} {P : Command → Prop} {Good : FillState → Prop}
  {pair : CellRef → CellRef → Prop} {V : Value → Prop} {R : FillState → FillState → Prop}
  {target target' : CellRef}

def Paired (pair : CellRef → CellRef → Prop) : List CellCopy → List CellCopy → Prop :=
  List.Forall₂ fun c c' => c'.origin = c.origin ∧ pair c.target c'.target

theorem forall₂_flatMap_map {β : Type} {S : β → β → Prop} (l k : List Nat) {f g : Nat → Nat → β}
    (h : ∀ i j, S (f i j) (g i j)) :
    List.Forall₂ S (l.flatMap fun i => k.map (f i)) (l.flatMap fun i => k.map (g i)) := by
  have hmap : ∀ i, List.Forall₂ S (k.map (f i)) (k.map (g i)) := by
    intro i
    rw [List.forall₂_map_left_iff, List.forall₂_map_right_iff]
    exact List.forall₂_same.2 fun j _ => h i j
  induction l with
  | nil => exact .nil
  | cons i rest ih =>
    rw [List.flatMap_cons, List.flatMap_cons]
    exact List.rel_append (hmap i) ih

theorem rows_paired (ht : h.Twins P Good pair V R) (f : Frame) (hp : pair f.target target')
    (first count down : Int) (skip : Int → Bool) :
    Paired pair (f.rows first count down skip)
      ({ f with target := target' }.rows first count down skip) := by
  apply forall₂_flatMap_map
  intro r c
  refine ⟨rfl, ?_⟩
  have := ht.offset hp (down + r) c
  simpa only [CellRef.offset, Int.add_assoc] using this

theorem cellsFrom_paired (ht : h.Twins P Good pair V R) (size : Size)
    (hp : pair target target') :
    List.Forall₂ pair (size.cellsFrom target) (size.cellsFrom target') :=
  forall₂_flatMap_map _ _ fun r c => ht.offset hp r c

theorem copyAll (ht : h.Twins P Good pair V R) (f f' : Frame) (hf : f'.listeners = f.listeners)
    {copies copies' : List CellCopy} (hc : Paired pair copies copies') :
    AgreeOn Good R (Area.copyAll h f copies) (Area.copyAll h f' copies') := by
  unfold Area.copyAll
  rw [hf]
  refine agree_forM (hc.imp ?_) (ht.steps.copyCell _)
  rintro ⟨origin, r⟩ ⟨origin', r'⟩ ⟨rfl, hp⟩
  exact ht.copy f.listeners origin' hp

section Commands

variable {inner : Inner}

theorem runItems (ht : h.Twins P Good pair V R)
    (hs : ∀ target, Leads (Spoils Good) (inner.replay target))
    (hi : ∀ {r r'}, pair r r' → Agree Good R Eq (inner.replay r) (inner.replay r'))
    (e : EachSpec) (hp : pair target target') (index : Nat) (done : Size) {items : List Value}
    (hv : ∀ v ∈ items, V v) :
    Agree Good R Eq (e.runItems inner target index done items)
      (e.runItems inner target' index done items) := by
  induction items generalizing index done with
  | nil => exact agree_pure rfl
  | cons item rest ih =>
    have hnext : pair (e.nextTarget target done) (e.nextTarget target' done) := by
      unfold EachSpec.nextTarget
      split
      · exact ht.offset hp _ _
      · exact ht.offset hp _ _
    refine (ht.bind _ _ _ _ _ _ (hv item List.mem_cons_self) (hi hnext)).bind ?agree ?_
    case agree =>
      rintro size _ rfl
      exact ih _ _ fun v hmem => hv v (List.mem_cons_of_mem _ hmem)
    exact fun _ => ht.steps.runItems hs e _ _ _

theorem runEach (ht : h.Twins P Good pair V R) {e : EachSpec} (he : P (.each e))
    {inner? : Option Inner} (hs : ∀ i ∈ inner?, ∀ target, Leads (Spoils Good) (i.replay target))
    (hi : ∀ i ∈ inner?, ∀ {r r'}, pair r r' → Agree Good R Eq (i.replay r) (i.replay r'))
    (hp : pair target target') : Agree Good R Eq (e.run h inner? target) (e.run h inner? target') := by
  obtain ⟨hsheets, hresolve⟩ := ht.resolve e he
  refine hresolve.bind ?agree ?_
  case agree =>
    rintro items _ ⟨rfl, hv⟩
    rw [hsheets]
    split
    · exact agree_pure rfl
    · cases inner? with
      | none => exact agree_throw _ _
      | some inner => exact ht.runItems (hs inner rfl) (hi inner rfl) e hp _ _ hv
  intro items
  rw [hsheets]
  split
  · exact leads_pure _
  · cases inner? with
    | none => exact leads_throw _
    | some inner => exact ht.steps.runItems (hs inner rfl) e _ _ _

theorem writeRow (ht : h.Twins P Good pair V R) (inner? : Option Inner) (fontRow : Int)
    (hp : pair target target') (col : Nat) (values : List Value) :
    AgreeOn Good R (GridSpec.writeRow inner? fontRow target col values)
      (GridSpec.writeRow inner? fontRow target' col values) := by
  induction values generalizing col with
  | nil => exact agree_pure trivial
  | cons v rest ih =>
    refine (ht.font inner? fontRow col).bind ?agree ?_
    case agree =>
      rintro font? _ rfl
      exact (ht.value (ht.offset hp 0 col) v font?).bind (fun _ _ _ => ih _)
        fun _ => ht.steps.writeRow _ _ _ _ _
    intro font?
    exact (ht.steps.value _ _ _).bind fun _ => ht.steps.writeRow _ _ _ _ _

theorem writeRows (ht : h.Twins P Good pair V R) (g : GridSpec) (inner? : Option Inner)
    (hp : pair target target') (headers : List Value) (index : Nat) (rows : List Value) :
    AgreeOn Good R (GridSpec.run.go g inner? target headers index rows)
      (GridSpec.run.go g inner? target' headers index rows) := by
  induction rows generalizing index with
  | nil => exact agree_pure trivial
  | cons item rest ih =>
    have hrow := ht.writeRow inner? 1 (ht.offset hp index 0) 0
      ((item.rowCells g.fields).take headers.length)
    exact hrow.bind (fun _ _ _ => ih _) fun _ => ht.steps.writeRows g _ _ _ _

theorem runGrid (ht : h.Twins P Good pair V R) {g : GridSpec} (hg : P (.grid g))
    (inner? : Option Inner) (hp : pair target target') :
    Agree Good R Eq (g.run h inner? target) (g.run h inner? target') := by
  obtain ⟨hheaders, hrows⟩ := ht.grid g hg
  refine hheaders.bind ?agree ?_
  case agree =>
    rintro headers _ rfl
    refine hrows.bind ?agree ?_
    case agree =>
      rintro rows _ rfl
      split
      · exact agree_pure rfl
      · refine (ht.writeRow inner? 0 hp 0 headers).bind ?agree ?_
        case agree =>
          intro _ _ _
          exact (ht.writeRows g inner? hp headers 1 rows).bind (fun _ _ _ => agree_pure rfl)
            fun _ => leads_pure _
        exact fun _ => (ht.steps.writeRows g _ _ _ _).bind fun _ => leads_pure _
    intro rows
    split
    · exact leads_pure _
    · exact ht.steps.writeGrid g _ _ _
  refine fun headers => (ht.steps.itemsOf _ _).bind fun rows => ?_
  split
  · exact leads_pure _
  · exact ht.steps.writeGrid g _ _ _

theorem runMerge (ht : h.Twins P Good pair V R) {m : MergeSpec} (hm : P (.mergeCells m))
    {inner? : Option Inner} (hs : ∀ i ∈ inner?, ∀ target, Leads (Spoils Good) (i.replay target))
    (hi : ∀ i ∈ inner?, ∀ {r r'}, pair r r' → Agree Good R Eq (i.replay r) (i.replay r'))
    (hp : pair target target') : Agree Good R Eq (m.run h inner? target) (m.run h inner? target') := by
  unfold MergeSpec.run
  extract_lets merged merged'
  have hmerged : ∀ replayed, Agree Good R Eq (merged replayed) (merged' replayed) := by
    intro replayed
    obtain ⟨hcols, hrows⟩ := ht.dimension m hm replayed
    refine hcols.bind ?agree ?_
    case agree =>
      rintro cols _ rfl
      refine hrows.bind ?agree ?_
      case agree =>
        rintro rows _ rfl
        split
        · exact (ht.log _ _ _ _).bind (fun _ _ _ => agree_pure rfl) fun _ => leads_pure _
        · split
          · exact agree_pure rfl
          · exact (ht.merge m hm hp _ _).bind (fun _ _ _ => agree_pure rfl) fun _ => leads_pure _
      exact fun rows => ht.steps.mergeTo m _ cols rows
    exact fun cols => (ht.steps.dimension _ _ _).bind fun rows => ht.steps.mergeTo m _ cols rows
  have hspoils : ∀ replayed, Leads (Spoils Good) (merged replayed) := fun replayed =>
    (ht.steps.dimension _ _ _).bind fun cols => (ht.steps.dimension _ _ _).bind fun rows =>
      ht.steps.mergeTo m _ cols rows
  have hagree : ∀ size size', size = size' → Agree Good R Eq (merged size) (merged' size') := by
    rintro size _ rfl
    exact hmerged size
  cases inner? with
  | none => exact (agree_pure rfl).bind hagree hspoils
  | some inner => exact (hi inner rfl hp).bind hagree hspoils

theorem runUpdater (ht : h.Twins P Good pair V R) {name : String} (hn : P (.updateCell name))
    {inner? : Option Inner} (hs : ∀ i ∈ inner?, ∀ target, Leads (Spoils Good) (i.replay target))
    (hi : ∀ i ∈ inner?, ∀ {r r'}, pair r r' → Agree Good R Eq (i.replay r) (i.replay r'))
    (hp : pair target target') :
    Agree Good R Eq (Updater.run h name inner? target) (Updater.run h name inner? target') := by
  have hcells : ∀ (id : Nat) (size : Size) target, Leads (Spoils Good) (do
      (size.cellsFrom target).forM (Updater.updateCell h id)
      return size) := fun id size target =>
    (leads_forM fun r _ => ht.steps.updateCell id r).bind fun _ => leads_pure _
  obtain ⟨Q, hresolve, hupdate⟩ := ht.updater name hn
  have hupdates : ∀ (id id' : Nat) (size size' : Size), Q id id' → size = size' → Agree Good R Eq
      (do (size.cellsFrom target).forM (Updater.updateCell h id); return size)
      (do (size'.cellsFrom target').forM (Updater.updateCell h id'); return size') := by
    rintro id id' size _ hid rfl
    have hpaired := ht.cellsFrom_paired size hp
    have hall := agree_forM (hpaired.imp fun _ _ h => hupdate id id' hid h) (ht.steps.updateCell id)
    exact hall.bind (fun _ _ _ => agree_pure rfl) fun _ => leads_pure _
  refine hresolve.bind ?agree ?_
  case agree =>
    intro id id' hid
    cases inner? with
    | none =>
      exact (agree_pure rfl).bind (fun size size' => hupdates id id' size size' hid)
        fun size => hcells id size _
    | some inner =>
      exact (hi inner rfl hp).bind (fun size size' => hupdates id id' size size' hid)
        fun size => hcells id size _
  intro id
  cases inner? with
  | none => exact (leads_pure _).bind fun size => hcells id size _
  | some inner => exact (hs inner rfl _).bind fun size => hcells id size _

theorem runAutoRowHeight (ht : h.Twins P Good pair V R) {inner? : Option Inner}
    (hi : ∀ i ∈ inner?, ∀ {r r'}, pair r r' → Agree Good R Eq (i.replay r) (i.replay r'))
    (hp : pair target target') : Agree Good R Eq (SheetTemplate.runAutoRowHeight inner? target)
      (SheetTemplate.runAutoRowHeight inner? target') := by
  cases inner? with
  | none => exact agree_pure rfl
  | some inner =>
    refine (hi inner rfl hp).bind ?agree ?_
    case agree =>
      rintro size _ rfl
      have hrows : ∀ rows : List Nat, AgreeOn Good R
          (rows.forM fun (row : Nat) => clearRowHeight target.sheet (target.row + row))
          (rows.forM fun (row : Nat) => clearRowHeight target'.sheet (target'.row + row)) := by
        intro rows
        exact agree_forM (List.forall₂_same.2 fun row _ => ht.height hp row)
          fun _ => ht.steps.height _ _
      exact (hrows _).bind (fun _ _ _ => agree_pure rfl) fun _ => leads_pure _
    exact fun size => (leads_forM fun _ _ => ht.steps.height _ _).bind fun _ => leads_pure _

theorem runIf (ht : h.Twins P Good pair V R) {condition : String} (hc : P (.if condition))
    {inners : List Inner} (hs : ∀ i ∈ inners, ∀ target, Leads (Spoils Good) (i.replay target))
    (hi : ∀ i ∈ inners, ∀ {r r'}, pair r r' → Agree Good R Eq (i.replay r) (i.replay r'))
    (hp : pair target target') : Agree Good R Eq (SheetTemplate.runIf h condition inners target)
      (SheetTemplate.runIf h condition inners target') := by
  have hmem : ∀ (holds : Bool) inner, (if holds then inners[0]? else inners[1]?) = some inner →
      inner ∈ inners := by
    intro holds inner h
    cases holds with
    | true => exact List.mem_of_getElem? h
    | false => exact List.mem_of_getElem? h
  refine (ht.condition condition hc).bind ?agree ?_
  case agree =>
    rintro holds _ rfl
    split
    · exact agree_pure rfl
    · next inner hinner => exact hi inner (hmem _ _ hinner) hp
  intro holds
  split
  · exact leads_pure _
  · next inner hinner => exact hs inner (hmem _ _ hinner) _

theorem run (ht : h.Twins P Good pair V R) {c : Command} (hc : P c) {inners : List Inner}
    (hs : ∀ i ∈ inners, ∀ target, Leads (Spoils Good) (i.replay target))
    (hi : ∀ i ∈ inners, ∀ {r r'}, pair r r' → Agree Good R Eq (i.replay r) (i.replay r'))
    (hp : pair target target') : Agree Good R Eq (c.run h inners target) (c.run h inners target') := by
  have hhead : ∀ i ∈ inners.head?, i ∈ inners := fun i h => List.mem_of_head? h
  have hs' : ∀ i ∈ inners.head?, ∀ target, Leads (Spoils Good) (i.replay target) :=
    fun i h => hs i (hhead i h)
  have hi' : ∀ i ∈ inners.head?, ∀ {r r'}, pair r r' → Agree Good R Eq (i.replay r) (i.replay r') :=
    fun i h => hi i (hhead i h)
  cases c with
  | each e => exact ht.runEach hc hs' hi' hp
  | «if» condition => exact ht.runIf hc hs hi hp
  | grid g => exact ht.runGrid hc _ hp
  | image i => exact ht.image i hc hp
  | mergeCells m => exact ht.runMerge hc hs' hi' hp
  | updateCell updater => exact ht.runUpdater hc hs' hi' hp
  | autoRowHeight => exact ht.runAutoRowHeight hi' hp
  | hosted c => exact ht.hosted c hc hp

end Commands

-- By induction on the tree: a command that agrees reports one size in both runs, so that what follows
-- it moves by as much in both.
mutual

theorem replay (ht : h.Twins P Good pair V R) : ∀ {a : Area}, a.Uses P → ∀ {r r'}, pair r r' →
    Agree Good R Eq (a.replay h r) (a.replay h r')
  | ⟨start, size, bindings, listeners, bound⟩, ha, r, r', hp => by
    rw [Area.replay, Area.replay]
    split
    · exact agree_throw _ _
    · cases bindings with
      | nil =>
        have hrows := ht.rows_paired ⟨start, size, listeners, r⟩ hp start.row size.height 0 fun _ => false
        exact (ht.copyAll _ _ rfl hrows).bind (fun _ _ _ => agree_pure rfl) fun _ => leads_pure _
      | cons b rest => exact ht.replayBindings ha ⟨start, size, listeners, r⟩ hp _

theorem replayBindings (ht : h.Twins P Good pair V R) : ∀ {bindings : List Binding},
    Area.UsesIn P bindings → ∀ (f : Frame) {r'}, pair f.target r' → ∀ p : Progress,
      Agree Good R Eq (Area.replayBindings h f p bindings)
        (Area.replayBindings h { f with target := r' } p bindings)
  | [], _, f, r', hp, p => by
    rw [Area.replayBindings, Area.replayBindings]
    exact (ht.copyAll _ _ rfl (ht.rows_paired f hp _ _ _ _)).bind (fun _ _ _ => agree_pure rfl)
      fun _ => leads_pure _
  | ⟨command, start, size, areas⟩ :: rest, ⟨hc, hareas, hrest⟩, f, r', hp, p => by
    rw [Area.replayBindings, Area.replayBindings]
    let b : Binding := ⟨command, start, size, []⟩
    have habove := ht.rows_paired f hp p.next (b.start.row - p.next) p.height fun _ => false
    have hbeside := ht.rows_paired f hp b.start.row b.size.height (p.atBinding b).height
      fun c => Progress.left f b ≤ c && c < Progress.right f b
    have htarget := ht.offset hp (p.atBinding b).height (Progress.left f b)
    have hrun := (ht.run hc (ht.steps.inners hareas) (ht.inners hareas) htarget).mapFailure
      (fun e => e.locate (some start.label) (some command.name) none)
      (fun e => e.locate (some start.label) (some command.name) none)
    refine (ht.copyAll _ _ rfl habove).bind ?agree ?_
    case agree =>
      intro _ _ _
      refine (ht.copyAll _ _ rfl hbeside).bind ?agree ?_
      case agree =>
        intro _ _ _
        refine hrun.bind ?agree ?_
        case agree =>
          rintro filled _ rfl
          have htail := ht.replayBindings hrest f hp ((p.atBinding b).afterCommand f b filled)
          exact (ht.log _ _ _ _).bind (fun _ _ _ => htail)
            fun _ => ht.steps.replayBindings hrest _ _
        exact fun _ => (ht.steps.log _ _ _).bind fun _ => ht.steps.replayBindings hrest _ _
      intro _
      refine ((ht.steps.run hc (ht.steps.inners hareas)).mapFailure _).bind fun _ => ?_
      exact (ht.steps.log _ _ _).bind fun _ => ht.steps.replayBindings hrest _ _
    intro _
    refine (ht.steps.copyAll _ _).bind fun _ => ?_
    refine ((ht.steps.run hc (ht.steps.inners hareas)).mapFailure _).bind fun _ => ?_
    exact (ht.steps.log _ _ _).bind fun _ => ht.steps.replayBindings hrest _ _

theorem inners (ht : h.Twins P Good pair V R) : ∀ {areas : List Area}, Area.UsesAll P areas →
    ∀ i ∈ Area.inners h areas, ∀ {r r'}, pair r r' → Agree Good R Eq (i.replay r) (i.replay r')
  | [], _, i, hi => by
    rw [Area.inners] at hi
    exact absurd hi List.not_mem_nil
  | a :: rest, ⟨ha, hrest⟩, i, hi => by
    rw [Area.inners, List.mem_cons] at hi
    rcases hi with rfl | hi
    · exact ht.replay ha
    · exact ht.inners hrest i hi

end

end FillHost.Twins

end SheetTemplate
