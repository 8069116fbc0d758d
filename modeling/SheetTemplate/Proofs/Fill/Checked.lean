import SheetTemplate.Check
import SheetTemplate.Proofs.Area.Built
import SheetTemplate.Proofs.Area.Forest
import SheetTemplate.Proofs.Fill.Readily
import SheetTemplate.Proofs.Fill.Stages
import SheetTemplate.Proofs.Fill.Unmoved

namespace SheetTemplate

open FillM

namespace FillM

variable {α β : Type}

def Told (m : FillM α) : Prop :=
  ∀ s s', s'.template = s.template →
    (exec m s').1 = (exec m s).1 ∧ (exec m s').2.template = (exec m s).2.template

theorem told_pure (a : α) : Told (pure a) := fun _ _ h => ⟨rfl, h⟩

theorem told_throw (f : Failure) : Told (throw f : FillM α) := fun _ _ h => ⟨rfl, h⟩

theorem told_ofExcept (r : Except Failure α) : Told (ofExcept r) := by
  cases r with
  | ok a => exact told_pure a
  | error f => exact told_throw f

theorem told_modify {g : FillState → FillState}
    (hg : ∀ s s', s'.template = s.template → (g s').template = (g s).template) :
    Told (modify g) := fun s s' h => ⟨rfl, hg s s' h⟩

theorem told_log (level : LogLevel) (source text : String) : Told (log level source text) :=
  told_modify fun _ _ h => h

theorem Told.bind {m : FillM α} {f : α → FillM β} (hm : Told m) (hf : ∀ a, Told (f a)) :
    Told (m >>= f) := by
  intro s s' h
  obtain ⟨hr, ht⟩ := hm s s' h
  rw [exec_bind, exec_bind]
  rcases hx : exec m s with ⟨e | a, t⟩
  · rcases hx' : exec m s' with ⟨e' | a', t'⟩
    · rw [hx, hx'] at hr ht
      cases hr
      exact ⟨rfl, ht⟩
    · rw [hx, hx'] at hr
      cases hr
  · rcases hx' : exec m s' with ⟨e' | a', t'⟩
    · rw [hx, hx'] at hr
      cases hr
    · rw [hx, hx'] at hr ht
      cases hr
      exact hf a t t' ht

theorem told_foldlM {f : β → α → FillM β} (hf : ∀ b a, Told (f b a)) (l : List α) (b : β) :
    Told (l.foldlM f b) := by
  induction l generalizing b with
  | nil => exact told_pure b
  | cons a l ih => exact (hf b a).bind fun b => ih b

theorem told_readDirective (r : Registry) (p : Plan) (d : Directive) : Told (readDirective r p d) := by
  unfold readDirective
  extract_lets jp
  have hjp : ∀ last, Told (jp last) := by
    intro last
    refine (told_ofExcept _).bind fun size => ?_
    split
    · exact told_pure _
    · refine (told_ofExcept _).bind fun command? => ?_
      split
      · exact Told.bind (told_modify fun s s' h => h) fun _ => told_pure _
      · exact told_pure _
  split
  · exact (told_pure _).bind hjp
  · exact (told_throw _).bind hjp

theorem told_readComment (r : Registry) (p : Plan) (i : CellInfo) : Told (readComment r p i) := by
  unfold readComment
  refine (told_ofExcept _).bind fun found => ?_
  obtain ⟨directives, params?⟩ := found
  have hread : ∀ _ : Unit, Told (directives.foldlM (readDirective r) p) := fun _ =>
    told_foldlM (told_readDirective r) _ _
  cases params? with
  | none => exact (told_pure ()).bind hread
  | some params =>
    refine Told.bind (told_modify fun s s' h => ?_) hread
    dsimp only
    rw [h]

theorem told_bindEntry (p : Plan) (entry : CommandEntry × Nat) : Told (bindEntry p entry) := by
  unfold bindEntry
  dsimp only
  split
  · exact (told_log _ _ _).bind fun _ => told_pure _
  · exact (told_log _ _ _).bind fun _ => told_pure _

theorem told_readAreas (r : Registry) : Told (readAreas r) := by
  have hread : ∀ commented : List CellInfo, Told (do
      if commented.isEmpty then throw (.ofCause .noComments)
      else
        let p ← commented.foldlM (readComment r) { roots := [], entries := [] }
        if p.roots.isEmpty then throw (.ofCause .noRoots) else return p) := by
    intro commented
    split
    · exact told_throw _
    · refine (told_foldlM (told_readComment r) _ _).bind fun p => ?_
      split
      · exact told_throw _
      · exact told_pure _
  intro s s' h
  rw [readAreas, exec_bind, exec_bind, exec_get, exec_get]
  dsimp only
  rw [h]
  exact hread s.template.commented s s' h

theorem told_buildAreas (r : Registry) (listeners : List Nat) : Told (buildAreas r listeners) := by
  have hplan : Told (planAreas r) := by
    refine (told_readAreas r).bind fun p => (told_foldlM told_bindEntry _ _).bind fun p => ?_
    exact (told_log _ _ _).bind fun _ => told_pure _
  intro s s' h
  obtain ⟨hr, ht⟩ := hplan s s' h
  rw [exec_buildAreas, exec_buildAreas, hr]
  exact ⟨rfl, ht⟩

end FillM

namespace Check

variable {t : Template} {m : Marks} {a : Area} {issues : List Issue}

def Passable (issues : List Issue) : Prop := ∀ i ∈ issues, i.severity ≠ .error

theorem readable_of_defect? {text : String} (h : defect? text = .ok none) : Readable text := by
  intro f hf
  rw [defect?, hf] at h
  split at h
  · next he => cases he
  · split at h
    · cases h
    · cases h
  · cases h

theorem readable_of_readings {l : List Reading} (h : readings l = .ok issues)
    (hissues : Passable issues) : ∀ x ∈ l, Readable x.text := by
  intro x hx
  obtain ⟨found, hfound, h⟩ := Outcomes.bind_eq_ok.1 h
  cases h
  obtain ⟨issue?, hmem, hissue⟩ := Outcomes.exists_of_mapM hfound hx
  obtain ⟨defect, hdefect, hissue⟩ := Outcomes.bind_eq_ok.1 hissue
  cases hissue
  cases defect with
  | none => exact readable_of_defect? hdefect
  | some message => exact absurd rfl (hissues _ (List.mem_filterMap.2 ⟨_, hmem, rfl⟩))

theorem readable_of_cellReadings {info : CellInfo}
    (h : ∀ x ∈ cellReadings m info, Readable x.text) : info.Readable m := by
  constructor
  · intro text htext e he
    refine h { cell := info.ref, text := String.ofList e } (List.mem_append_left _ ?_)
    rw [htext]
    exact List.mem_filterMap.2 ⟨_, he, rfl⟩
  · intro text htext e he
    refine h { cell := info.ref, text := String.ofList e } (List.mem_append_right _ ?_)
    rw [htext]
    exact List.mem_filterMap.2 ⟨_, he, rfl⟩

theorem readable_of_cells (h : cells t m a = .ok issues) (hissues : Passable issues) {r : CellRef}
    {info : CellInfo} (hr : a.contains r = true) (hinfo : t.cell? r = some info) :
    info.Readable m := by
  refine readable_of_cellReadings fun x hx => readable_of_readings h hissues x ?_
  exact List.mem_flatMap.2 ⟨info, List.mem_filterMap.2 ⟨r, Area.mem_cells.2 hr, hinfo⟩, hx⟩

theorem readable_of_commands (h : commands a = .ok issues) (hissues : Passable issues) :
    ∀ b ∈ a.bindings, b.command.Readable := by
  intro b hb
  obtain ⟨found, hfound, h⟩ := Outcomes.bind_eq_ok.1 h
  cases h
  obtain ⟨own, hmem, hown⟩ := Outcomes.exists_of_mapM hfound hb
  obtain ⟨l, hread, hown⟩ := Outcomes.bind_eq_ok.1 hown
  cases hown
  have hl : Passable l := fun i hi =>
    hissues i (List.mem_flatten.2 ⟨_, hmem, List.mem_append_left _ hi⟩)
  intro x hx
  have hreading := readable_of_readings hread hl _ (List.mem_map_of_mem hx)
  exact hreading

theorem readable_of_root (h : root t m a = .ok issues) (hissues : Passable issues) :
    (∀ r info, a.contains r = true → t.cell? r = some info → info.Readable m) ∧
      ∀ x ∈ a.walk 0, ∀ b ∈ x.1.bindings, b.command.Readable := by
  obtain ⟨inCells, hcells, h⟩ := Outcomes.bind_eq_ok.1 h
  obtain ⟨inAreas, hareas, h⟩ := Outcomes.bind_eq_ok.1 h
  cases h
  constructor
  · intro r info hr hinfo
    have hpassable : Passable inCells := fun i hi => hissues i (List.mem_append_left _ hi)
    exact readable_of_cells hcells hpassable hr hinfo
  · intro x hx b hb
    obtain ⟨all, hmem, hall⟩ := Outcomes.exists_of_mapM hareas hx
    obtain ⟨own, hown, hall⟩ := Outcomes.bind_eq_ok.1 hall
    cases hall
    have hpassable : Passable own := fun i hi =>
      hissues i (List.mem_append_right _ (List.mem_flatten.2 ⟨_, hmem, List.mem_append_right _ hi⟩))
    exact readable_of_commands hown hpassable b hb

end Check

namespace Area

variable {P : Command → Prop}

-- By induction on the tree, which the walk follows.
mutual

theorem uses_of_walk : ∀ (a : Area) {depth : Nat},
    (∀ x ∈ a.walk depth, ∀ b ∈ x.1.bindings, P b.command) → a.Uses P
  | ⟨start, size, bindings, listeners, bound⟩, depth, h =>
    usesIn_of_walk bindings (h (⟨start, size, bindings, listeners, bound⟩, depth) (by simp [walk]))
      fun x hx => h x (by rw [walk]; exact List.mem_cons_of_mem _ hx)

theorem usesIn_of_walk : ∀ (bindings : List Binding) {depth : Nat},
    (∀ b ∈ bindings, P b.command) →
      (∀ x ∈ walkBindings depth bindings, ∀ b ∈ x.1.bindings, P b.command) → UsesIn P bindings
  | [], _, _, _ => trivial
  | ⟨command, start, size, areas⟩ :: rest, depth, hown, h =>
    ⟨hown ⟨command, start, size, areas⟩ List.mem_cons_self,
      usesAll_of_walk areas fun x hx => h x (by rw [walkBindings]; exact List.mem_append_left _ hx),
      usesIn_of_walk rest (fun b hb => hown b (List.mem_cons_of_mem _ hb)) fun x hx =>
        h x (by rw [walkBindings]; exact List.mem_append_right _ hx)⟩

theorem usesAll_of_walk : ∀ (areas : List Area) {depth : Nat},
    (∀ x ∈ walkAll depth areas, ∀ b ∈ x.1.bindings, P b.command) → UsesAll P areas
  | [], _, _ => trivial
  | a :: rest, depth, h =>
    ⟨uses_of_walk a fun x hx => h x (by rw [walkAll]; exact List.mem_append_left _ hx),
      usesAll_of_walk rest fun x hx => h x (by rw [walkAll]; exact List.mem_append_right _ hx)⟩

end

end Area

namespace Formula

variable {α β : Type}

def Composed (r : Except Failure α) : Prop := ∀ f, r = .error f → ¬ f.IsSyntax

theorem composed_ok (a : α) : Composed (.ok a) := fun _ h => nomatch h

theorem Composed.bind {r : Except Failure α} {f : α → Except Failure β} (hr : Composed r)
    (hf : ∀ a, Composed (f a)) : Composed (r >>= f) := by
  cases r with
  | ok a => exact hf a
  | error e => exact fun _ h => hr _ (Except.error.inj h ▸ rfl)

theorem composed_mapM {f : α → Except Failure β} (hf : ∀ a, Composed (f a)) (l : List α) :
    Composed (l.mapM f) := by
  induction l with
  | nil => exact composed_ok []
  | cons a l ih =>
    rw [List.mapM_cons]
    exact (hf a).bind fun b => ih.bind fun bs => composed_ok (b :: bs)

theorem composed_name (r : CellRef) : Composed r.name := fun _ h => CellRef.name_not_isSyntax h

namespace Move

variable (m : Move)

theorem composed_render (qualified : Bool) (refs : List CellRef) :
    Composed (m.render qualified refs) := by
  unfold render
  split
  · exact (composed_name _).bind fun _ => composed_ok _
  · split
    · exact (composed_name _).bind fun _ => (composed_name _).bind fun _ => composed_ok _
    · refine (composed_mapM (fun r => ?_) _).bind fun _ => composed_ok _
      exact (composed_name r).bind fun _ => composed_ok _

theorem composed_renderBounds (qualified : Bool) (refs : List CellRef) :
    Composed (m.renderBounds qualified refs) := by
  unfold renderBounds
  split
  · exact composed_ok _
  · exact (composed_name _).bind fun _ => (composed_name _).bind fun _ => composed_ok _

theorem composed_relocate (formula : String) : Composed (m.relocate formula) := by
  refine (composed_mapM (fun piece => ?_) _).bind fun _ => composed_ok _
  cases piece with
  | char c => exact composed_ok _
  | reference r written =>
    rw [relocatePiece]
    unfold relocateRef
    extract_lets home sheet qualified sources history copies fixed
    split
    · exact composed_ok _
    · split
      · exact composed_ok _
      · split
        · exact composed_renderBounds m _ _
        · exact composed_render m _ _

end Move

theorem readily_relocateArea {T : Template} (a : Area) : FillM.Readily T (relocateArea a) := by
  refine preserves_get.bind fun s => ?_
  refine (preserves_forM fun c hc => ?_).bind fun _ => readily_log _ _ _
  obtain ⟨i, -, hc⟩ := List.mem_flatMap.1 hc
  obtain ⟨target, -, rfl⟩ := List.mem_map.1 hc
  refine (preserves_ofExcept fun f hf => ?_).bind fun _ => withstands_reads.setFormula trivial _
  exact Move.composed_relocate _ _ f hf

end Formula

namespace FillOptions

variable {o : FillOptions} {T : Template}

theorem readily_fillArea (hh : o.host.Readily) {a : Area} (ha : a.Uses Command.Readable)
    (ho : ∀ r ∈ a.origins, ∀ info, T.cell? r = some info → info.Readable o.host.marks) :
    FillM.Readily T (o.fillArea a) := by
  have hreplay := hh.preserving.replay ha ho a.start trivial
  refine (withstands_reads.clearArea trivial).bind fun _ => ?_
  refine Preserves.bind ?_ fun _ => readily_log _ _ _
  exact hreplay.ensuring fun s hs => ⟨hs.template, hs.streams⟩

theorem readily_clearTemplate : FillM.Readily T o.clearTemplate := by
  unfold clearTemplate
  split
  · refine preserves_get.bind fun s => preserves_forM fun info _ => ?_
    unfold clearUnused
    split
    · exact preserves_pure _
    · refine (withstands_reads.outputCell _).bind fun c => ?_
      split
      · split
        · exact withstands_reads.clearCell trivial
        · exact preserves_pure _
      · exact preserves_pure _
  · exact preserves_pure _

theorem readily_fillAreas (hh : o.host.Readily) (hbefore : FillM.Readily T o.beforeWrite)
    {roots : List Area} (ha : ∀ a ∈ roots, a.Uses Command.Readable)
    (ho : ∀ a ∈ roots, ∀ r ∈ a.origins, ∀ info, T.cell? r = some info →
      info.Readable o.host.marks) : FillM.Readily T (o.fillAreas roots) := by
  have hmark : FillM.Readily T o.markRecalculation := by
    unfold markRecalculation
    split
    · exact readily_modify fun _ => ⟨rfl, rfl⟩
    · exact preserves_pure _
  refine (preserves_forM fun a hmem => readily_fillArea hh (ha a hmem) (ho a hmem)).bind fun _ => ?_
  refine (preserves_forM fun a _ => Formula.readily_relocateArea a).bind fun _ => ?_
  refine readily_clearTemplate.bind fun _ => ?_
  exact Preserves.bind (readily_modify fun _ => ⟨rfl, rfl⟩) fun _ => hmark.bind fun _ => hbefore

theorem check_reads {name : String} {book : Workbook} {issues : List Issue} {u : FillState}
    (h : o.check name book = (.ok issues, u)) (hissues : Check.Passable issues) :
    ∃ roots t, exec o.areas (o.opened name book) = (.ok roots, t) ∧
      (∀ a ∈ roots, a.Uses Command.Readable) ∧
      ∀ a ∈ roots, ∀ r info, a.contains r = true → t.template.cell? r = some info →
        info.Readable o.host.marks := by
  obtain ⟨roots, t, hbuild, h⟩ := bind_eq_ok.1 h
  obtain ⟨s, _, hget, h⟩ := bind_eq_ok.1 h
  cases hget
  obtain ⟨found, v, hfound, h⟩ := bind_eq_ok.1 h
  obtain ⟨_, w, -, h⟩ := bind_eq_ok.1 h
  cases h
  obtain ⟨all, hall, hfound⟩ := Outcomes.bind_eq_ok.1 (ofExcept_eq_ok.1 hfound).1
  cases hfound
  have hroot : ∀ a ∈ roots, ∃ own, Check.root t.template o.host.marks a = .ok own ∧
      Check.Passable own := by
    intro a ha
    obtain ⟨own, hmem, hown⟩ := Outcomes.exists_of_mapM hall ha
    exact ⟨own, hown, fun i hi => hissues i (List.mem_flatten.2 ⟨own, hmem, hi⟩)⟩
  refine ⟨roots, t, hbuild, fun a ha => ?_, fun a ha => ?_⟩
  · obtain ⟨own, hown, hpassable⟩ := hroot a ha
    exact a.uses_of_walk (Check.readable_of_root hown hpassable).2
  · obtain ⟨own, hown, hpassable⟩ := hroot a ha
    exact (Check.readable_of_root hown hpassable).1

theorem build_of_areas {name : String} {book : Workbook} {roots : List Area} {t : FillState}
    (h : exec o.areas (o.opened name book) = (.ok roots, t)) (c : Context) (streams : Streams) :
    ∃ s, exec (o.build c streams) (o.opened name book) = (.ok roots, s) ∧
      s.template = t.template ∧ s.streams = streams := by
  obtain ⟨hroots, htemplate⟩ := told_buildAreas o.registry o.listeners (o.opened name book)
    { o.opened name book with context := c, streams := streams } rfl
  rw [show exec (buildAreas o.registry o.listeners) (o.opened name book) = _ from h]
    at hroots htemplate
  have hbuild : exec (o.build c streams) (o.opened name book) =
      (.ok roots, (exec (o.build c streams) (o.opened name book)).2) := Prod.ext hroots rfl
  exact ⟨_, hbuild, htemplate, (build_annotated hbuild).streams⟩

/-- No fill of a template that was checked without an error fails to read an expression, when those in
cells outside all root areas that its areas draw on can be read. -/
theorem process_reads_checked {name : String} {book : Workbook} {issues : List Issue} {u : FillState}
    (hcheck : o.check name book = (.ok issues, u)) (hissues : Check.Passable issues)
    (houtside : ∀ roots t, exec o.areas (o.opened name book) = (.ok roots, t) →
      ∀ a ∈ roots, ∀ r ∈ a.origins, (∀ b ∈ roots, b.contains r = false) →
        ∀ info, t.template.cell? r = some info → info.Readable o.host.marks)
    (hh : o.host.Readily) (hbefore : ∀ T, FillM.Readily T o.beforeWrite) (c : Context)
    {streams : Streams} (hstreams : streams.Safe) {f : Failure}
    (hf : (o.process name c streams book).1 = .error f) : ¬ f.IsSyntax := by
  obtain ⟨roots, t, hareas, huses, hinside⟩ := check_reads hcheck hissues
  obtain ⟨s, hbuild, htemplate, hs⟩ := build_of_areas hareas c streams
  have hfill : FillM.Readily t.template (o.fillAreas roots) := by
    refine readily_fillAreas hh (hbefore _) huses fun a ha r hr info hinfo => ?_
    by_cases hroot : ∃ b ∈ roots, b.contains r = true
    · obtain ⟨b, hb, hcontains⟩ := hroot
      exact hinside b hb r info hcontains hinfo
    · refine houtside roots t hareas a ha r hr (fun b hb => ?_) info hinfo
      exact Bool.eq_false_iff.2 fun hcontains => hroot ⟨b, hb, hcontains⟩
  rw [process_eq, hbuild] at hf
  exact (hfill s ⟨htemplate, hs ▸ hstreams⟩).error f hf

def secondCell (text : String) : Workbook where
  sheets :=
    [(({ title := "S" } : Sheet).setCell ⟨0, 0⟩
        { value := .text "${a}", type := .text
          comment? := some "jx:area(lastCell=\"B1\")\njx:if(condition=\"flag\" lastCell=\"A1\" areas=[\"A1:A1\",\"D1:D1\"])" }
      ).setCell ⟨0, 3⟩ { value := .text text, type := .text }]

def unmet : Context := { data := [("flag", .bool false)] }

theorem secondCell_reads_checked :
    (check {} "second" (secondCell "${1 // 0}")).1 = .ok [] ∧
      (∃ f, (process {} "second" unmet [] (secondCell "${1 // 0}")).1 = .error f ∧ ¬ f.IsSyntax) ∧
      (check {} "second" (secondCell "${1 +}")).1 = .ok [] ∧
      ∃ f, (process {} "second" unmet [] (secondCell "${1 +}")).1 = .error f ∧ f.IsSyntax := by
  have hcheck : (check {} "second" (secondCell "${1 // 0}")).1 = .ok [] := by decide +kernel
  have hfails : (process {} "second" unmet [] (secondCell "${1 // 0}")).1 = .error (.template
      { cause := .evaluation "1 // 0" ⟨.zeroDivision, "integer division or modulo by zero"⟩
        cell := some "S!D1", command := some "if", expression := some "1 // 0" }) := by
    decide +kernel
  have hread : (exec (areas {}) (opened {} "second" (secondCell "${1 // 0}"))).1.toOption.map
      (fun roots => roots.all fun a => a.origins.all fun r =>
        ((exec (areas {}) (opened {} "second" (secondCell "${1 // 0}"))).2.template.cell? r).all
          fun info => (Check.cellReadings .standard info).all fun x =>
            (Expr.compile x.text).toOption.isSome) = some true := by decide +kernel
  have hunread : (process {} "second" unmet [] (secondCell "${1 +}")).1 = .error (.template
      { cause := .malformed "1 +" "unexpected 'end of template'"
        cell := some "S!D1", command := some "if", expression := some "1 +" }) := by
    decide +kernel
  refine ⟨hcheck, ⟨_, hfails, ?_⟩, by decide +kernel, _, hunread, trivial⟩
  refine process_reads_checked (Prod.ext hcheck rfl) (fun i hi => absurd hi List.not_mem_nil) ?_ ?_
    (fun _ => preserves_pure _) unmet (fun l hl => absurd hl List.not_mem_nil) hfails
  · intro roots t hareas a ha r hr _ info hinfo
    rw [hareas] at hread
    have hcell := List.all_eq_true.1 (List.all_eq_true.1 (Option.some.inj hread) a ha) r hr
    rw [hinfo] at hcell
    refine Check.readable_of_cellReadings fun x hx f hf => ?_
    have hcompile := List.all_eq_true.1 hcell x hx
    rw [hf] at hcompile
    cases hcompile
  · exact
      { opening := by
          rintro c ⟨⟩
          rfl
        evaluator := fun _ _ => EvalM.gives_fault _
        before := fun _ _ _ _ => preserves_pure _
        after := fun _ _ _ _ => preserves_pure _
        update := fun _ _ _ _ => preserves_pure _
        run := fun _ _ _ => preserves_pure _ }

end FillOptions

end SheetTemplate
