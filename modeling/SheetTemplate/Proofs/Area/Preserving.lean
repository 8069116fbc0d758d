import SheetTemplate.Proofs.Area.Steps
import SheetTemplate.Proofs.Fill.Preserving

namespace SheetTemplate

open FillM

namespace Area

def drawn (start : CellRef) (size : Size) (first count : Int) (skip : Int → Bool) : List CellRef :=
  ((⟨start, size, [], start⟩ : Frame).rows first count 0 skip).map (·.origin)

mutual

def origins : Area → List CellRef
  | ⟨start, size, bindings, _, _⟩ => originsIn start size start.row bindings

def originsIn (start : CellRef) (size : Size) (next : Int) : List Binding → List CellRef
  | [] => drawn start size next (start.row + size.height - next) fun _ => false
  | ⟨_, place, extent, areas⟩ :: rest =>
    drawn start size next (place.row - next) (fun _ => false) ++
      drawn start size place.row extent.height
        (fun c => place.col - start.col ≤ c && c < place.col - start.col + extent.width) ++
      originsAll areas ++ originsIn start size (place.row + extent.height) rest

def originsAll : List Area → List CellRef
  | [] => []
  | a :: rest => a.origins ++ originsAll rest

end

variable {f : Frame} {first count down : Int} {skip : Int → Bool}

theorem origin_mem_drawn {c : CellCopy} (hc : c ∈ f.rows first count down skip) :
    c.origin ∈ drawn f.start f.size first count skip := by
  simp only [Frame.rows, List.mem_flatMap, List.mem_map] at hc
  obtain ⟨r, hr, k, hk, rfl⟩ := hc
  simp only [drawn, Frame.rows, List.mem_map, List.mem_flatMap]
  exact ⟨_, ⟨r, hr, k, hk, rfl⟩, rfl⟩

theorem target_sheet_of_mem {c : CellCopy} (hc : c ∈ f.rows first count down skip) :
    c.target.sheet = f.target.sheet := by
  simp only [Frame.rows, List.mem_flatMap, List.mem_map] at hc
  obtain ⟨r, hr, k, hk, rfl⟩ := hc
  rfl

end Area

/-- Each step keeps `I`, and fails as `F` allows, that a replay with commands in `P` can take when it
draws on template cells in `O` and writes to sheets in `T`. -/
structure FillHost.Preserving (h : FillHost) (P : Command → Prop) (O : CellRef → Prop)
    (T : String → Prop) (I : FillState → Prop) (F : Failure → Prop) : Prop where
  located : ∀ f cell command, F f → F (f.locate cell command none)
  unbound : ∀ label, F (.template { cause := .noTransformer, cell := some label })
  log : ∀ level source text, Preserves I F (log level source text)
  place : ∀ r : CellRef, Preserves I F (onContext fun c => c.place r)
  before : ∀ l origin target, T target.sheet → Preserves I F (h.before l origin target)
  after : ∀ l origin target, T target.sheet → Preserves I F (h.after l origin target)
  copy : ∀ origin target, O origin → T target.sheet → Preserves I F (h.copy origin target true)
  resolve : ∀ e, P (.each e) → Preserves I F (e.resolve h) ∧
    F (.template { cause := .noInnerArea, command := some "each" })
  bind : ∀ e, P (.each e) → ∀ item index (m : FillM Size), Preserves I F m →
    Preserves I F (binding e.var e.varIndex? item (some index) m)
  titles : ∀ e names, P (.each e) → e.multisheet? = some names →
    Preserves I F (do
      let v ← EachSpec.evaluate h "multisheet" names
      itemsOr v (.sheetsNotList names) names "each" "multisheet") ∧
    (∀ origin title after?, T origin → Preserves I F (copySheet origin title after?)) ∧
    (∀ title, T title → Preserves I F (retireSheet title)) ∧ ∀ title, T title
  condition : ∀ c, P (.if c) → Preserves I F (within "if" "condition" (h.isTrue c))
  grid : ∀ g, P (.grid g) → Preserves I F (GridSpec.itemsOf h "headers" g.headers) ∧
    Preserves I F (GridSpec.itemsOf h "data" g.rows) ∧
    ∀ r v font?, T r.sheet → Preserves I F (setValue r v font?)
  image : ∀ i, P (.image i) → ∀ r, T r.sheet → Preserves I F (i.run h r)
  merge : ∀ m, P (.mergeCells m) → (∀ n, Preserves I F (MergeSpec.dimension h "cols" m.cols? n)) ∧
    (∀ n, Preserves I F (MergeSpec.dimension h "rows" m.rows? n)) ∧
    ∀ title b, T title → Preserves I F (merge title b)
  updater : ∀ name, P (.updateCell name) → Preserves I F (Updater.resolve name) ∧
    ∀ id r, T r.sheet → Preserves I F (Updater.updateCell h id r)
  height : P .autoRowHeight → ∀ title row, T title → Preserves I F (clearRowHeight title row)
  hosted : ∀ c, P (.hosted c) → ∀ r, T r.sheet → Preserves I F (h.run c r)

namespace FillHost.Preserving

variable {h : FillHost} {P : Command → Prop} {O : CellRef → Prop} {T : String → Prop}
  {I : FillState → Prop} {F : Failure → Prop}

theorem isAllowed (hp : h.Preserving P O T I F) {c : CellCopy} (ht : T c.target.sheet)
    (listeners : List Nat) : Preserves I F (Area.isAllowed h c listeners) := by
  induction listeners with
  | nil => exact preserves_pure _
  | cons l rest ih =>
    refine (hp.before _ _ _ ht).bind fun allowed => ?_
    split
    · exact ih
    · exact preserves_pure _

theorem copyCell (hp : h.Preserving P O T I F) (listeners : List Nat) {c : CellCopy}
    (ho : O c.origin) (ht : T c.target.sheet) : Preserves I F (Area.copyCell h listeners c) := by
  have hafter : Preserves I F (listeners.forM fun l => h.after l c.origin c.target) :=
    preserves_forM fun l _ => hp.after _ _ _ ht
  refine (hp.place c.target).bind fun _ => (hp.isAllowed ht listeners).bind fun allowed => ?_
  split
  · exact (hp.copy _ _ ho ht).bind fun _ => hafter
  · exact hafter

theorem copyAll (hp : h.Preserving P O T I F) (f : Frame) (ht : T f.target.sheet)
    {first count down : Int} {skip : Int → Bool}
    (ho : ∀ r ∈ Area.drawn f.start f.size first count skip, O r) :
    Preserves I F (Area.copyAll h f (f.rows first count down skip)) := by
  apply preserves_forM
  intro c hc
  apply hp.copyCell f.listeners (ho _ (Area.origin_mem_drawn hc))
  rwa [Area.target_sheet_of_mem hc]

abbrev Tame (T : String → Prop) (I : FillState → Prop) (F : Failure → Prop) (i : Inner) : Prop :=
  ∀ target, T target.sheet → Preserves I F (i.replay target)

section Commands

variable {inner : Inner} {target : CellRef}

theorem runItems (hp : h.Preserving P O T I F) (hi : Tame T I F inner) {e : EachSpec}
    (he : P (.each e)) (ht : T target.sheet) (index : Nat) (done : Size) (items : List Value) :
    Preserves I F (e.runItems inner target index done items) := by
  induction items generalizing index done with
  | nil => exact preserves_pure _
  | cons item rest ih =>
    refine (hp.bind e he _ _ _ (hi _ ?_)).bind fun size => ih _ _
    unfold EachSpec.nextTarget
    split <;> exact ht

theorem runSheets (hp : h.Preserving P O T I F) (hi : Tame T I F inner) {e : EachSpec}
    (he : P (.each e)) (ht : ∀ title, T title)
    (hcopy : ∀ origin title after?, T origin → Preserves I F (copySheet origin title after?))
    (titles existing : List String) (index : Nat) (previous : String) (last : Size)
    (items : List Value) :
    Preserves I F (e.runSheets inner target titles existing index previous last items) := by
  induction items generalizing existing index previous last with
  | nil => exact preserves_pure _
  | cons item rest ih =>
    refine (hcopy _ _ _ (ht _)).bind fun _ => ?_
    exact (hp.bind e he _ _ _ (hi _ (ht _))).bind fun size => ih _ _ _ _

theorem runMultisheet (hp : h.Preserving P O T I F) (hi : Tame T I F inner) {e : EachSpec}
    (he : P (.each e)) {names : String} (hm : e.multisheet? = some names) (items : List Value) :
    Preserves I F (e.runMultisheet h inner names items target) := by
  obtain ⟨htitles, hcopy, hretire, ht⟩ := hp.titles e names he hm
  have hrest : ∀ titles : List Value, Preserves I F (do
      let existing := (← get).book.titles
      let size ← e.runSheets inner target (titles.map Value.shown) existing 0 target.sheet .zero items
      FillM.log .info "each" ("Multisheet: " ++ Number.showInt items.length ++
        " sheets generated from '" ++ target.sheet ++ "'")
      FillM.retireSheet target.sheet
      return size) := fun titles => preserves_get.bind fun s =>
    (hp.runSheets hi he ht hcopy _ _ _ _ _ _).bind fun size =>
      (hp.log _ _ _).bind fun _ => (hretire _ (ht _)).bind fun _ => preserves_pure _
  have hall := htitles.bind hrest
  simp only [bind_assoc] at hall
  exact hall

theorem runEach (hp : h.Preserving P O T I F) {e : EachSpec} (he : P (.each e))
    {inner? : Option Inner} (hi : ∀ i ∈ inner?, Tame T I F i) (ht : T target.sheet) :
    Preserves I F (e.run h inner? target) := by
  obtain ⟨hresolve, hnone⟩ := hp.resolve e he
  refine hresolve.bind fun items => ?_
  split
  · exact preserves_pure _
  · cases inner? with
    | none => exact preserves_throw hnone
    | some inner =>
      cases hm : e.multisheet? with
      | none => exact hp.runItems (hi inner rfl) he ht _ _ _
      | some names => exact hp.runMultisheet (hi inner rfl) he hm _

theorem writeRow (hvalue : ∀ r v font?, T r.sheet → Preserves I F (setValue r v font?))
    (inner? : Option Inner) (fontRow : Int) (start : CellRef) (ht : T start.sheet) (col : Nat)
    (values : List Value) : Preserves I F (GridSpec.writeRow inner? fontRow start col values) := by
  induction values generalizing col with
  | nil => exact preserves_pure _
  | cons v rest ih =>
    have hfont : Preserves I F (GridSpec.font? inner? fontRow col) := by
      unfold GridSpec.font?
      cases inner? with
      | none => exact preserves_pure _
      | some inner => exact preserves_get.bind fun _ => preserves_pure _
    exact hfont.bind fun font? => (hvalue (start.offset 0 col) v font? ht).bind fun _ => ih _

theorem writeRows (hvalue : ∀ r v font?, T r.sheet → Preserves I F (setValue r v font?))
    (g : GridSpec) (inner? : Option Inner) (headers : List Value) (ht : T target.sheet)
    (index : Nat) (rows : List Value) :
    Preserves I F (GridSpec.run.go g inner? target headers index rows) := by
  induction rows generalizing index with
  | nil => exact preserves_pure _
  | cons item rest ih =>
    have hrow := writeRow hvalue inner? 1 (target.offset index 0) ht 0
      ((item.rowCells g.fields).take headers.length)
    exact hrow.bind fun _ => ih _

theorem runGrid (hp : h.Preserving P O T I F) {g : GridSpec} (hg : P (.grid g))
    (inner? : Option Inner) (ht : T target.sheet) : Preserves I F (g.run h inner? target) := by
  obtain ⟨hheaders, hrows, hvalue⟩ := hp.grid g hg
  refine hheaders.bind fun headers => hrows.bind fun rows => ?_
  split
  · exact preserves_pure _
  · refine (writeRow hvalue inner? 0 target ht 0 headers).bind fun _ => ?_
    exact (writeRows hvalue g inner? headers ht 1 rows).bind fun _ => preserves_pure _

theorem runMerge (hp : h.Preserving P O T I F) {m : MergeSpec} (hm : P (.mergeCells m))
    {inner? : Option Inner} (hi : ∀ i ∈ inner?, Tame T I F i) (ht : T target.sheet) :
    Preserves I F (m.run h inner? target) := by
  obtain ⟨hcols, hrows, hmerge⟩ := hp.merge m hm
  unfold MergeSpec.run
  extract_lets merged
  have hmerged : ∀ replayed, Preserves I F (merged replayed) := by
    intro replayed
    refine (hcols _).bind fun cols => (hrows _).bind fun rows => ?_
    split
    · exact (hp.log _ _ _).bind fun _ => preserves_pure _
    · split
      · exact preserves_pure _
      · exact (hmerge _ _ ht).bind fun _ => preserves_pure _
  cases inner? with
  | none => exact (preserves_pure _).bind hmerged
  | some inner => exact (hi inner rfl target ht).bind hmerged

theorem runUpdater (hp : h.Preserving P O T I F) {name : String} (hn : P (.updateCell name))
    {inner? : Option Inner} (hi : ∀ i ∈ inner?, Tame T I F i) (ht : T target.sheet) :
    Preserves I F (Updater.run h name inner? target) := by
  obtain ⟨hresolve, hupdate⟩ := hp.updater name hn
  refine hresolve.bind fun id => ?_
  have hcells : ∀ size : Size, Preserves I F (do
      (size.cellsFrom target).forM (Updater.updateCell h id)
      return size) := by
    intro size
    refine (preserves_forM fun r hr => hupdate id r ?_).bind fun _ => preserves_pure _
    rwa [(Size.mem_cellsFrom.1 hr).sheet]
  cases inner? with
  | none => exact (preserves_pure _).bind hcells
  | some inner => exact (hi inner rfl target ht).bind hcells

theorem runAutoRowHeight (hp : h.Preserving P O T I F) (ha : P .autoRowHeight)
    {inner? : Option Inner} (hi : ∀ i ∈ inner?, Tame T I F i) (ht : T target.sheet) :
    Preserves I F (SheetTemplate.runAutoRowHeight inner? target) := by
  cases inner? with
  | none => exact preserves_pure _
  | some inner =>
    refine (hi inner rfl target ht).bind fun size => ?_
    exact (preserves_forM fun _ _ => hp.height ha _ _ ht).bind fun _ => preserves_pure _

theorem runIf (hp : h.Preserving P O T I F) {condition : String} (hc : P (.if condition))
    {inners : List Inner} (hi : ∀ i ∈ inners, Tame T I F i) (ht : T target.sheet) :
    Preserves I F (SheetTemplate.runIf h condition inners target) := by
  refine (hp.condition condition hc).bind fun holds => ?_
  split
  · exact preserves_pure _
  · next inner hinner =>
    apply hi inner _ target ht
    cases holds with
    | true => exact List.mem_of_getElem? hinner
    | false => exact List.mem_of_getElem? hinner

theorem run (hp : h.Preserving P O T I F) {c : Command} (hc : P c) {inners : List Inner}
    (hi : ∀ i ∈ inners, Tame T I F i) (target : CellRef) (ht : T target.sheet) :
    Preserves I F (c.run h inners target) := by
  have hhead : ∀ i ∈ inners.head?, Tame T I F i := fun i h => hi i (List.mem_of_head? h)
  cases c with
  | each e => exact hp.runEach hc hhead ht
  | «if» condition => exact hp.runIf hc hi ht
  | grid g => exact hp.runGrid hc _ ht
  | image i => exact hp.image i hc target ht
  | mergeCells m => exact hp.runMerge hc hhead ht
  | updateCell updater => exact hp.runUpdater hc hhead ht
  | autoRowHeight => exact hp.runAutoRowHeight hc hhead ht
  | hosted c => exact hp.hosted c hc target ht

end Commands

-- By induction on the tree, whose cells are those of its rows and of the trees below.
mutual

theorem replay (hp : h.Preserving P O T I F) : ∀ {a : Area}, a.Uses P → (∀ r ∈ a.origins, O r) →
    ∀ target : CellRef, T target.sheet → Preserves I F (a.replay h target)
  | ⟨start, size, bindings, listeners, bound⟩, ha, ho, target, ht => by
    rw [Area.origins] at ho
    rw [Area.replay]
    split
    · exact preserves_throw (hp.unbound _)
    · cases bindings with
      | nil =>
        rw [Area.originsIn, show start.row + size.height - start.row = size.height by omega] at ho
        exact (hp.copyAll ⟨start, size, listeners, target⟩ ht ho).bind fun _ => preserves_pure _
      | cons b rest =>
        have hall := hp.replayBindings ha ⟨start, size, listeners, target⟩
          (.begin ⟨start, size, listeners, target⟩) ho ht
        exact hall

theorem replayBindings (hp : h.Preserving P O T I F) : ∀ {bindings : List Binding},
    Area.UsesIn P bindings → ∀ (f : Frame) (p : Progress),
    (∀ r ∈ Area.originsIn f.start f.size p.next bindings, O r) → T f.target.sheet →
    Preserves I F (Area.replayBindings h f p bindings)
  | [], _, f, p, ho, ht => by
    rw [Area.replayBindings]
    rw [Area.originsIn] at ho
    exact (hp.copyAll f ht ho).bind fun _ => preserves_pure _
  | ⟨command, start, size, areas⟩ :: rest, ⟨hc, hareas, hrest⟩, f, p, ho, ht => by
    rw [Area.originsIn] at ho
    simp only [List.mem_append, or_assoc] at ho
    have habove := fun r hr => ho r (.inl hr)
    have hbeside := fun r hr => ho r (.inr (.inl hr))
    have hinner := fun r hr => ho r (.inr (.inr (.inl hr)))
    have hbelow := fun r hr => ho r (.inr (.inr (.inr hr)))
    rw [Area.replayBindings]
    refine (hp.copyAll f ht habove).bind fun _ => (hp.copyAll f ht hbeside).bind fun _ => ?_
    have hrun := hp.run hc (hp.inners hareas hinner)
      ((p.atBinding ⟨command, start, size, []⟩).commandTarget f ⟨command, start, size, []⟩) ht
    refine (hrun.mapFailure fun e he => hp.located e _ _ he).bind fun filled => ?_
    exact (hp.log _ _ _).bind fun _ => hp.replayBindings hrest _ _ hbelow ht

theorem inners (hp : h.Preserving P O T I F) : ∀ {areas : List Area}, Area.UsesAll P areas →
    (∀ r ∈ Area.originsAll areas, O r) → ∀ i ∈ Area.inners h areas, Tame T I F i
  | [], _, _, i, hi => by
    rw [Area.inners] at hi
    exact absurd hi List.not_mem_nil
  | a :: rest, ⟨ha, hrest⟩, ho, i, hi => by
    rw [Area.originsAll] at ho
    simp only [List.mem_append] at ho
    rw [Area.inners, List.mem_cons] at hi
    rcases hi with rfl | hi
    · exact hp.replay ha fun r hr => ho r (.inl hr)
    · exact hp.inners hrest (fun r hr => ho r (.inr hr)) i hi

end

end FillHost.Preserving

end SheetTemplate
