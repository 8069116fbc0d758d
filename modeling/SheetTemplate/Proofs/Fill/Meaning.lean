import SheetTemplate.Command.Each
import SheetTemplate.Proofs.Fill.Outcome

namespace SheetTemplate

open FillM

namespace Names

theorem mem_keys_set {names : Names} {n m : String} {v : Value} :
    m ∈ (names.set n v).map (·.1) ↔ m = n ∨ m ∈ names.map (·.1) := by
  induction names with
  | nil => simp [set]
  | cons b rest ih =>
    rw [set]
    by_cases hb : b.1 = n
    · rw [if_pos (beq_iff_eq.2 hb)]
      simp [hb]
    · rw [if_neg (by simpa using hb), List.map_cons, List.mem_cons, ih, List.map_cons, List.mem_cons]
      exact or_left_comm

theorem nodup_set {names : Names} (h : (names.map (·.1)).Nodup) (n : String) (v : Value) :
    ((names.set n v).map (·.1)).Nodup := by
  induction names with
  | nil => simp [set]
  | cons b rest ih =>
    rw [List.map_cons, List.nodup_cons] at h
    rw [set]
    by_cases hb : b.1 = n
    · rw [if_pos (beq_iff_eq.2 hb), List.map_cons, List.nodup_cons, ← hb]
      exact h
    · rw [if_neg (by simpa using hb), List.map_cons, List.nodup_cons, mem_keys_set, not_or]
      exact ⟨⟨hb, h.1⟩, ih h.2⟩

theorem nodup_erase {names : Names} (h : (names.map (·.1)).Nodup) (n : String) :
    ((names.erase n).map (·.1)).Nodup :=
  h.sublist (List.filter_sublist.map _)

theorem find?_of_not_mem {names : Names} {n : String} (h : n ∉ names.map (·.1)) :
    names.find? n = none := by
  rw [find?, List.lookup_eq_none_iff]
  intro b hb
  rw [bne_iff_ne]
  rintro rfl
  exact h (List.mem_map_of_mem hb)

theorem find?_override {names new : Names} (h : (new.map (·.1)).Nodup) (n : String) :
    (names.override new).find? n = (new.find? n).or (names.find? n) := by
  induction new generalizing names with
  | nil => rfl
  | cons b rest ih =>
    obtain ⟨k, v⟩ := b
    rw [List.map_cons, List.nodup_cons] at h
    rw [override, ih h.2, find?_set]
    have hcons : find? ((k, v) :: rest) n = if n == k then some v else find? rest n := by
      rw [find?, List.lookup_cons]
      cases n == k <;> rfl
    rw [hcons]
    by_cases hn : n = k
    · subst hn
      rw [find?_of_not_mem h.1]
      simp
    · simp [hn]

end Names

abbrev Meaning := String → Option Value

namespace Meaning

def bind (m : Meaning) (n : String) (v : Value) : Meaning := fun x => if x = n then some v else m x

def placed (m : Meaning) (r : CellRef) : Meaning :=
  (m.bind Context.rowName (.int (r.row + 1))).bind Context.columnName (.int r.col)

def item (m : Meaning) (e : EachSpec) (v : Value) (index : Option Value) : Meaning :=
  match e.varIndex?.filter fun n => !n.isEmpty, index with
  | some n, some i => (m.bind e.var v).bind n i
  | _, _ => m.bind e.var v

def Near (m m' : Meaning) : Prop :=
  ∀ n, n ≠ Context.rowName → n ≠ Context.columnName → m' n = m n

theorem Near.refl (m : Meaning) : Near m m := fun _ _ _ => rfl

theorem Near.trans {m m' m'' : Meaning} (h : Near m m') (h' : Near m' m'') : Near m m'' :=
  fun n hrow hcol => (h' n hrow hcol).trans (h n hrow hcol)

theorem Near.placed_eq {m m' : Meaning} (h : Near m m') (r : CellRef) : m'.placed r = m.placed r := by
  funext n
  by_cases hcol : n = Context.columnName
  · simp [Meaning.placed, bind, hcol]
  · by_cases hrow : n = Context.rowName
    · simp [Meaning.placed, bind, hrow]
    · simp [Meaning.placed, bind, hrow, hcol, h n hrow hcol]

theorem Near.bind {m m' : Meaning} (h : Near m m') (n : String) (v : Value) :
    Near (m.bind n v) (m'.bind n v) := by
  intro x hrow hcol
  simp only [Meaning.bind, h x hrow hcol]

theorem Near.item {m m' : Meaning} (h : Near m m') (e : EachSpec) (v : Value)
    (index : Option Value) : Near (m.item e v index) (m'.item e v index) := by
  unfold Meaning.item
  split
  · exact (h.bind _ _).bind _ _
  · exact h.bind _ _

end Meaning

namespace Context

structure Sound (c : Context) : Prop where
  kept : ∀ names, c.merged? = some names → names = c.data.override c.runVars
  distinct : (c.runVars.map (·.1)).Nodup

structure Near (c d : Context) : Prop where
  data : d.data = c.data
  run : Meaning.Near c.runVars.find? d.runVars.find?

variable {c d e : Context}

theorem sound_of_data (data : Names) : ({ data := data } : Context).Sound :=
  ⟨fun _ h => (nomatch h), List.nodup_nil⟩

theorem Near.refl (c : Context) : Near c c := ⟨rfl, .refl _⟩

theorem Near.trans (h : Near c d) (h' : Near d e) : Near c e :=
  ⟨h'.data.trans h.data, h.run.trans h'.run⟩

theorem Near.get? (h : Near c d) : Meaning.Near c.get? d.get? := by
  intro n hrow hcol
  rw [Context.get?, Context.get?, h.data, h.run n hrow hcol]

theorem view_find? (hc : c.Sound) : c.view.find? = c.get? := by
  have hview : c.view = c.data.override c.runVars := by
    rw [view]
    cases hm : c.merged? with
    | none => rfl
    | some names => exact hc.kept names hm
  funext n
  rw [hview, Names.find?_override hc.distinct, get?]

theorem Sound.keepView (hc : c.Sound) : c.keepView.Sound := by
  refine ⟨fun names hnames => ?_, hc.distinct⟩
  cases hnames
  rw [view]
  cases hm : c.merged? with
  | none => rfl
  | some names => exact hc.kept names hm

theorem Sound.of_kept (hc : c.Sound) (h : d = c ∨ d = c.keepView) : d.Sound := by
  rcases h with rfl | rfl
  · exact hc
  · exact hc.keepView

theorem near_of_kept (h : d = c ∨ d = c.keepView) : Near c d := by
  rcases h with rfl | rfl
  · exact .refl _
  · exact ⟨rfl, .refl _⟩

theorem get?_of_kept (h : d = c ∨ d = c.keepView) : d.get? = c.get? := by
  rcases h with rfl | rfl
  · rfl
  · rfl

theorem Sound.setRun (hc : c.Sound) (n : String) (v : Value) : (c.setRun n v).Sound :=
  ⟨fun _ h => (nomatch h), Names.nodup_set hc.distinct n v⟩

theorem Sound.restore (hc : c.Sound) (n : String) (v? : Option Value) : (c.restore n v?).Sound := by
  cases v? with
  | some v => exact hc.setRun n v
  | none => exact ⟨fun _ h => (nomatch h), Names.nodup_erase hc.distinct n⟩

theorem Sound.turns (hc : c.Sound) (turns : List Turn) : { c with turns := turns }.Sound :=
  ⟨hc.kept, hc.distinct⟩

theorem run_setRun (c : Context) (n : String) (v : Value) :
    (c.setRun n v).runVars.find? = Meaning.bind c.runVars.find? n v := by
  funext x
  rw [setRun, Names.find?_set, Meaning.bind]
  simp

theorem get?_setRun (c : Context) (n : String) (v : Value) :
    (c.setRun n v).get? = Meaning.bind c.get? n v := by
  funext x
  rw [get?, run_setRun, Meaning.bind, Meaning.bind]
  split
  · rfl
  · rfl

theorem run_restore (c : Context) (n : String) (v? : Option Value) (x : String) :
    (c.restore n v?).runVars.find? x = if x = n then v? else c.runVars.find? x := by
  cases v? with
  | some v => exact congrFun (run_setRun c n v) x
  | none =>
    change (c.runVars.erase n).find? x = _
    rw [Names.find?_erase]
    simp

theorem restore_data (c : Context) (n : String) (v? : Option Value) :
    (c.restore n v?).data = c.data := by
  cases v? <;> rfl

def place (c : Context) (r : CellRef) : Context :=
  (c.setRun rowName (.int (r.row + 1))).setRun columnName (.int r.col)

theorem Sound.place (hc : c.Sound) (r : CellRef) : (c.place r).Sound :=
  (hc.setRun _ _).setRun _ _

theorem get?_place (c : Context) (r : CellRef) : (c.place r).get? = Meaning.placed c.get? r := by
  rw [place, get?_setRun, get?_setRun]
  rfl

theorem near_place (c : Context) (r : CellRef) : Near c (c.place r) := by
  refine ⟨rfl, fun n hrow hcol => ?_⟩
  rw [place, run_setRun, run_setRun]
  simp [Meaning.bind, hrow, hcol]

end Context

namespace Guard

variable {c d : Context} (e : EachSpec) (v : Value) (index : Option Value)

theorem sound_set (hc : c.Sound) :
    ((Guard.open c e.var e.varIndex?).set c v index).Sound := by
  simp only [set]
  split
  · exact ((hc.setRun _ _).setRun _ _).turns _
  · exact (hc.setRun _ _).turns _

theorem get?_set : ((Guard.open c e.var e.varIndex?).set c v index).get? =
    Meaning.item c.get? e v index := by
  simp only [set, Guard.open, Meaning.item]
  cases e.varIndex?.filter fun n => !n.isEmpty with
  | none => exact Context.get?_setRun _ _ _
  | some n =>
    cases index with
    | none => exact Context.get?_setRun _ _ _
    | some i =>
      simp only
      rw [← Context.get?_setRun, ← Context.get?_setRun]
      rfl

theorem run_item : ((Guard.open c e.var e.varIndex?).set c v index).runVars.find? =
    Meaning.item c.runVars.find? e v index := by
  simp only [set, Guard.open, Meaning.item]
  cases e.varIndex?.filter fun n => !n.isEmpty with
  | none => exact Context.run_setRun _ _ _
  | some n =>
    cases index with
    | none => exact Context.run_setRun _ _ _
    | some i =>
      simp only
      rw [← Context.run_setRun, ← Context.run_setRun]

theorem sound_close (hd : d.Sound) (g : Guard) : (g.close d).2.Sound := by
  simp only [close]
  split
  · exact hd
  · dsimp only
    split
    · exact ((hd.restore _ _).restore _ _).turns _
    · exact (hd.restore _ _).turns _

theorem run_set_of_ne {x : String} (hvar : x ≠ e.var)
    (hindex : (e.varIndex?.filter fun n => !n.isEmpty) ≠ some x) :
    ((Guard.open c e.var e.varIndex?).set c v index).runVars.find? x = c.runVars.find? x := by
  simp only [set, Guard.open]
  split
  · next n i heq =>
    have hn : x ≠ n := by
      rintro rfl
      exact hindex heq
    rw [Context.run_setRun, Context.run_setRun]
    simp [Meaning.bind, hvar, hn]
  · rw [Context.run_setRun]
    simp [Meaning.bind, hvar]

theorem set_data : ((Guard.open c e.var e.varIndex?).set c v index).data = c.data := by
  simp only [set]
  split <;> rfl

theorem close_data (g : Guard) (d : Context) : (g.close d).2.data = d.data := by
  simp only [close]
  split
  · rfl
  · dsimp only
    split
    · rw [Context.restore_data, Context.restore_data]
    · rw [Context.restore_data]

theorem run_close_eq (x : String) :
    ((Guard.open c e.var e.varIndex?).close d).2.runVars.find? x =
      if x = e.var ∨ (e.varIndex?.filter fun n => !n.isEmpty) = some x then c.runVars.find? x
      else d.runVars.find? x := by
  cases hindex : e.varIndex?.filter fun n => !n.isEmpty with
  | none =>
    have hclose : ((Guard.open c e.var e.varIndex?).close d).2.runVars =
        (d.restore e.var (c.runVars.find? e.var)).runVars := by
      simp only [close, Guard.open, hindex]
      rfl
    rw [hclose, Context.run_restore]
    by_cases hx : x = e.var
    · simp [hx]
    · simp [hx]
  | some n =>
    have hclose : ((Guard.open c e.var e.varIndex?).close d).2.runVars =
        ((d.restore e.var (c.runVars.find? e.var)).restore n (c.runVars.find? n)).runVars := by
      simp only [close, Guard.open, hindex]
      rfl
    rw [hclose, Context.run_restore, Context.run_restore]
    by_cases hn : x = n
    · simp [hn]
    · by_cases hx : x = e.var
      · subst hx
        simp [hn]
      · simp [hx, hn, Ne.symm hn]

theorem run_close {x : String} (h : d.runVars.find? x =
    ((Guard.open c e.var e.varIndex?).set c v index).runVars.find? x) :
    ((Guard.open c e.var e.varIndex?).close d).2.runVars.find? x = c.runVars.find? x := by
  rw [run_close_eq]
  split
  · rfl
  · next hx =>
    rw [not_or] at hx
    rw [h, run_set_of_ne e v index hx.1 hx.2]

theorem near_close (h : Context.Near ((Guard.open c e.var e.varIndex?).set c v index) d) :
    Context.Near c ((Guard.open c e.var e.varIndex?).close d).2 :=
  ⟨(close_data _ _).trans (h.data.trans (set_data e v index)),
    fun x hrow hcol => run_close e v index (h.run x hrow hcol)⟩

end Guard

namespace FillM

variable {s : FillState}

theorem exec_names (hs : s.context.Sound) :
    exec names s = (.ok s.context.get?, { s with context := s.context.keepView }) := by
  have hview : s.context.keepView.view.find? = s.context.get? := by
    rw [Context.view_find? hs.keepView]
    rfl
  simp only [names, exec_bind, onContext, exec_modify, exec_get, exec_pure, hview]

end FillM

end SheetTemplate
