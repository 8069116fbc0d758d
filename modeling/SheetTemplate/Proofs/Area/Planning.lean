import SheetTemplate.Proofs.Area.Built
import SheetTemplate.Proofs.Outcomes

namespace SheetTemplate

open FillM FillState Number

namespace Plan

def link (p : Plan) (entry : CommandEntry × Nat) : Option (Parent × CommandEntry × Nat × Size) :=
  (p.parent? entry.2 entry.1).map fun (parent, area) =>
    (parent, entry.1, entry.2, sizeIn entry.1 area)

def outside (e : CommandEntry) : LogEntry :=
  ⟨.warning, "builder", "Command '" ++ e.command.name ++ "' at " ++ e.start.label ++
    " is outside every jx:area, ignored"⟩

def notice (p : Plan) (entry : CommandEntry × Nat) : LogEntry :=
  match p.parent? entry.2 entry.1 with
  | none => outside entry.1
  | some (_, area) =>
    ⟨.debug, "builder", "Bound " ++ entry.1.command.name ++ " " ++ (sizeIn entry.1 area).text ++
      " at " ++ entry.1.start.label ++ " to " ++ (AreaRef.ofSize area.1 area.2).label⟩

def Complete (p : Plan) : Prop := p.bound = p.entries.zipIdx.filterMap p.link

def summary (p : Plan) : LogEntry :=
  ⟨.info, "builder", "Built " ++ showInt p.roots.length ++ " root areas with " ++
    showInt p.entries.length ++ " commands"⟩

end Plan

namespace FillM

def readAreas (r : Registry) : FillM Plan := do
  let commented := (← get).template.commented
  if commented.isEmpty then throw (.ofCause .noComments)
  else
    let p ← commented.foldlM (readComment r) { roots := [], entries := [] }
    if p.roots.isEmpty then throw (.ofCause .noRoots) else return p

def planAreas (r : Registry) : FillM Plan := do
  let p ← readAreas r
  let p := { p with entries := p.entries.mergeSort CommandEntry.before }
  let p ← p.entries.zipIdx.foldlM bindEntry p
  log .info "builder" ("Built " ++ showInt p.roots.length ++ " root areas with " ++
    showInt p.entries.length ++ " commands")
  return p

theorem exec_buildAreas (r : Registry) (listeners : List Nat) (s : FillState) :
    exec (buildAreas r listeners) s =
      ((exec (planAreas r) s).1.map (·.forest listeners), (exec (planAreas r) s).2) := by
  simp only [buildAreas, planAreas, readAreas, exec_bind, exec_get]
  split
  · rfl
  · rw [exec_bind, exec_bind]
    rcases exec (s.template.commented.foldlM (readComment r) { roots := [], entries := [] }) s with
      ⟨e | p, t⟩
    · rfl
    · dsimp only
      split
      · rfl
      · rw [exec_pure, exec_bind]
        dsimp only
        rcases exec ((p.entries.mergeSort CommandEntry.before).zipIdx.foldlM bindEntry
          { p with entries := p.entries.mergeSort CommandEntry.before }) t with ⟨e | q, u⟩
        · rfl
        · rfl

theorem buildAreas_eq_ok {r : Registry} {listeners : List Nat} {s t : FillState} {roots : List Area} :
    exec (buildAreas r listeners) s = (.ok roots, t) ↔
      ∃ p, exec (planAreas r) s = (.ok p, t) ∧ roots = p.forest listeners := by
  rw [exec_buildAreas]
  constructor
  · rcases exec (planAreas r) s with ⟨e | p, u⟩
    · intro h
      cases h
    · intro h
      cases h
      exact ⟨p, rfl, rfl⟩
  · rintro ⟨p, hplan, rfl⟩
    rw [hplan]
    rfl

theorem exec_bindEntry (p : Plan) (entry : CommandEntry × Nat) (s : FillState) :
    exec (bindEntry p entry) s =
      (.ok { p with bound := p.bound ++ (p.link entry).toList },
        { s with log := s.log ++ [p.notice entry] }) := by
  obtain ⟨e, i⟩ := entry
  simp only [bindEntry, Plan.link, Plan.notice]
  cases p.parent? i e with
  | none =>
    rw [Option.map_none, Option.toList_none, List.append_nil]
    rfl
  | some found => rfl

theorem exec_bindEntries (p : Plan) (entries : List (CommandEntry × Nat)) (s : FillState) :
    exec (entries.foldlM bindEntry p) s =
      (.ok { p with bound := p.bound ++ entries.filterMap p.link },
        { s with log := s.log ++ entries.map p.notice }) := by
  induction entries generalizing p s with
  | nil => simp
  | cons entry entries ih =>
    rw [List.foldlM_cons, exec_bind, exec_bindEntry]
    dsimp only
    rw [ih]
    have hlink : ({ p with bound := p.bound ++ (p.link entry).toList } : Plan).link = p.link := rfl
    have hnotice : ({ p with bound := p.bound ++ (p.link entry).toList } : Plan).notice =
      p.notice := rfl
    rw [hlink, hnotice]
    cases hl : p.link entry <;> simp [hl]

end FillM

def Registry.knows (r : Registry) (d : Directive) : Bool :=
  d.name != areaName && r.any fun e => e.1 == d.name

theorem Registry.any_eq_of_create {r : Registry} {name : String} {a : Attributes}
    {command? : Option Command} (h : r.create name a = .ok command?) :
    r.any (fun e => e.1 == name) = command?.isSome := by
  unfold create at h
  split at h
  · next _ f hfind =>
    have hname := List.find?_some hfind
    have hany : r.any (fun e => e.1 == name) = true :=
      List.any_eq_true.2 ⟨_, List.mem_of_find?_eq_some hfind, hname⟩
    obtain ⟨command, -, h⟩ := Outcomes.bind_eq_ok.1 h
    cases h
    exact hany
  · next hfind =>
    cases h
    rw [Option.isSome_none, List.any_eq_false]
    exact fun e he => List.find?_eq_none.1 hfind e he

def Registry.entry? (r : Registry) (d : Directive) : Option CommandEntry := do
  let last ← d.lastCell?
  let size ← (rectangleSize d last).toOption
  let command ← (r.create d.name d.attributes).toOption.join
  return {
    command := command
    start := d.cell
    size := size
    second? := if command.areaLimit = 2 then d.areas[1]? else none }

def Template.directives (t : Template) : List Directive :=
  t.commented.flatMap fun i =>
    ((Directive.parseComment i.comment? i.ref).toOption.map (·.1)).getD []

structure Plan.Read (r : Registry) (ds : List Directive) (p : Plan) (s : FillState) (q : Plan)
    (t : FillState) : Prop where
  entries : q.entries.map some = p.entries.map some ++ (ds.filter r.knows).map r.entry?
  bound : q.bound = p.bound
  log : ∃ added, t.log = s.log ++ added ∧ ∀ l ∈ added, l.source = "registry"

namespace Plan

variable {r : Registry} {p q q' : Plan} {s t t' : FillState}

theorem Read.refl (r : Registry) (p : Plan) (s : FillState) : Read r [] p s p s :=
  ⟨by simp, rfl, [], by simp, by simp⟩

theorem Read.trans {ds ds' : List Directive} (h : Read r ds p s q t) (h' : Read r ds' q t q' t') :
    Read r (ds ++ ds') p s q' t' := by
  obtain ⟨added, hlog, hadded⟩ := h.log
  obtain ⟨added', hlog', hadded'⟩ := h'.log
  refine ⟨?_, h'.bound.trans h.bound, added ++ added', ?_, ?_⟩
  · rw [h'.entries, h.entries, List.filter_append, List.map_append, List.append_assoc]
  · rw [hlog', hlog, List.append_assoc]
  · exact fun l hl => (List.mem_append.1 hl).elim (hadded l) (hadded' l)

theorem read_foldlM {α : Type} {f : Plan → α → FillM Plan} {g : α → List Directive} {l : List α}
    (hf : ∀ a ∈ l, ∀ p s q t, exec (f p a) s = (.ok q, t) → Read r (g a) p s q t)
    (h : exec (l.foldlM f p) s = (.ok q, t)) : Read r (l.flatMap g) p s q t := by
  induction l generalizing p s with
  | nil =>
    cases h
    exact .refl r _ _
  | cons a l ih =>
    rw [List.foldlM_cons] at h
    obtain ⟨p', s', ha, hl⟩ := bind_eq_ok.1 h
    rw [List.flatMap_cons]
    exact (hf a List.mem_cons_self p s p' s' ha).trans
      (ih (fun b hb => hf b (List.mem_cons_of_mem a hb)) hl)

theorem read_readDirective {d : Directive} (h : exec (readDirective r p d) s = (.ok q, t)) :
    Read r [d] p s q t := by
  unfold readDirective at h
  cases hlast : d.lastCell? with
  | none =>
    rw [hlast] at h
    cases h
  | some last =>
    rw [hlast] at h
    obtain ⟨_, _, hpure, h⟩ := bind_eq_ok.1 h
    cases hpure
    obtain ⟨size, u, hread, h⟩ := bind_eq_ok.1 h
    obtain ⟨hsize, rfl⟩ := ofExcept_eq_ok.1 hread
    split at h
    · next harea =>
      cases h
      have hknows : r.knows d = false := by simp [Registry.knows, bne, harea]
      exact ⟨by simp [hknows], rfl, [], by simp, by simp⟩
    · next harea =>
      obtain ⟨command?, u, hread, h⟩ := bind_eq_ok.1 h
      obtain ⟨hcreate, rfl⟩ := ofExcept_eq_ok.1 hread
      have hknows : r.knows d = command?.isSome := by
        rw [Registry.knows, Registry.any_eq_of_create hcreate, bne, eq_false_of_ne_true harea]
        simp
      cases command? with
      | none =>
        cases h
        exact ⟨by simp [hknows], rfl, [unknownCommand d.name], rfl, by simp [unknownCommand]⟩
      | some command =>
        cases h
        -- The directive is read as a command, which is the one entry that is added.
        have hentry : r.entry? d = some {
            command := command, start := d.cell, size := size
            second? := if command.areaLimit = 2 then d.areas[1]? else none } := by
          simp [Registry.entry?, hlast, hsize, hcreate, Except.toOption]
        exact ⟨by simp [hknows, hentry], rfl, [], by simp, by simp⟩

theorem read_readComment {i : CellInfo} (h : exec (readComment r p i) s = (.ok q, t)) :
    Read r (((Directive.parseComment i.comment? i.ref).toOption.map (·.1)).getD []) p s q t := by
  unfold readComment at h
  obtain ⟨⟨ds, params?⟩, u, hread, h⟩ := bind_eq_ok.1 h
  obtain ⟨hparse, rfl⟩ := ofExcept_eq_ok.1 hread
  have hds : ((Directive.parseComment i.comment? i.ref).toOption.map (·.1)).getD [] =
      ds.flatMap fun d => [d] := by simp [hparse, Except.toOption]
  rw [hds]
  cases params? with
  | none => exact read_foldlM (fun d _ p s q t h => read_readDirective h) h
  | some params =>
    obtain ⟨_, u, hkeep, h⟩ := bind_eq_ok.1 h
    cases hkeep
    obtain ⟨hentries, hbound, hlog⟩ :=
      read_foldlM (g := fun d => [d]) (fun d _ p s q t h => read_readDirective h) h
    exact ⟨hentries, hbound, hlog⟩

end Plan

def Plan.completed (p : Plan) : Plan := { p with bound := p.entries.zipIdx.filterMap p.link }

namespace FillM

variable {r : Registry} {s t : FillState} {p : Plan}

theorem readAreas_ok (h : exec (readAreas r) s = (.ok p, t)) :
    Plan.Read r s.template.directives { roots := [], entries := [] } s p t := by
  unfold readAreas at h
  rw [exec_bind, exec_get] at h
  dsimp only at h
  split at h
  · cases h
  · obtain ⟨q, u, hread, h⟩ := bind_eq_ok.1 h
    split at h
    · cases h
    · cases h
      exact Plan.read_foldlM (fun i _ p s q t h => Plan.read_readComment h) hread

theorem exec_planAreas {entries : List CommandEntry} (h : exec (readAreas r) s = (.ok p, t))
    (hsort : p.entries.mergeSort CommandEntry.before = entries) :
    let q : Plan := { p with entries := entries, bound := [] }
    exec (planAreas r) s =
      (.ok { q with bound := entries.zipIdx.filterMap q.link },
        { t with log := t.log ++ entries.zipIdx.map q.notice ++ [q.summary] }) := by
  have hbound : p.bound = [] := (readAreas_ok h).bound
  rw [planAreas, exec_bind, h]
  dsimp only
  rw [exec_bind, hsort, exec_bindEntries, hbound]
  rfl

theorem exec_planAreas_of_pairwise (h : exec (readAreas r) s = (.ok p, t))
    (hsorted : p.entries.Pairwise fun a b => a.before b = true) :
    ∃ u, exec (planAreas r) s = (.ok p.completed, u) := by
  have hsort : p.entries.mergeSort CommandEntry.before = p.entries :=
    List.mergeSort_of_pairwise hsorted
  exact ⟨_, exec_planAreas h hsort⟩

theorem exec_buildAreas_of_pairwise (listeners : List Nat) (h : exec (readAreas r) s = (.ok p, t))
    (hsorted : p.entries.Pairwise fun a b => a.before b = true) :
    ∃ u, exec (planAreas r) s = (.ok p.completed, u) ∧
      exec (buildAreas r listeners) s = (.ok (p.completed.forest listeners), u) := by
  obtain ⟨u, hplan⟩ := exec_planAreas_of_pairwise h hsorted
  exact ⟨u, hplan, buildAreas_eq_ok.2 ⟨p.completed, hplan, rfl⟩⟩

theorem planAreas_ok (h : exec (planAreas r) s = (.ok p, t)) :
    p.Complete ∧ (p.entries.map some).Perm ((s.template.directives.filter r.knows).map r.entry?) ∧
      ∃ unknown, (∀ l ∈ unknown, l.source = "registry") ∧
        t.log = s.log ++ unknown ++ p.entries.zipIdx.map p.notice ++ [p.summary] := by
  obtain ⟨q, u, hread, -⟩ := bind_eq_ok.1 h
  rw [exec_planAreas hread rfl] at h
  cases h
  obtain ⟨hentries, -, unknown, hlog, hunknown⟩ := readAreas_ok hread
  refine ⟨rfl, ?_, unknown, hunknown, ?_⟩
  · have hperm := (List.mergeSort_perm q.entries CommandEntry.before).map some
    rw [hentries, List.map_nil, List.nil_append] at hperm
    exact hperm
  · rw [← hlog]
    rfl

end FillM

end SheetTemplate
