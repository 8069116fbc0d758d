import SheetTemplate.Proofs.Command.Merging
import SheetTemplate.Proofs.Command.Sheets
import SheetTemplate.Proofs.Fill.Failing

namespace SheetTemplate

open FillM FillState Text

inductive Question where
  | value (text : String)
  | condition (text : String)
  | content (text : String)

def Question.Fails (h : FillHost) (s : FillState) (f : Failure) : Question → Prop
  | value text => FillM.Fails (h.evaluate text) s f
  | condition text => FillM.Fails (h.isTrue text) s f
  | content text => FillM.Fails (h.evaluateText text) s f

namespace EachSpec

section Turns

variable (e : EachSpec)

inductive Tests (h : FillHost) (condition : String) (u : FillState) :
    List Value → FillState → Prop
  | here {item : Value} {rest : List Value} {s : FillState}
    (turn : u = turned e.var none item none s) : Tests h condition u (item :: rest) s
  | later {item : Value} {rest : List Value} {s t : FillState} {keep : Bool}
    (test : exec (binding e.var none item none (within "each" "select" (h.isTrue condition))) s =
      (.ok keep, t)) (tail : Tests h condition u rest t) : Tests h condition u (item :: rest) s

inductive Turns (inner : Inner) (target place : CellRef) (u : FillState) :
    Nat → Size → List Value → FillState → Prop
  | here {index : Nat} {done : Size} {item : Value} {rest : List Value} {s : FillState}
    (next : place = e.nextTarget target done)
    (turn : u = turned e.var e.varIndex? item (some (.int index)) s) :
    Turns inner target place u index done (item :: rest) s
  | later {index : Nat} {done size : Size} {item : Value} {rest : List Value} {s t : FillState}
    (run : exec (binding e.var e.varIndex? item (some (.int index))
      (inner.replay (e.nextTarget target done))) s = (.ok size, t))
    (tail : Turns inner target place u (index + 1) (e.extend done size) rest t) :
    Turns inner target place u index done (item :: rest) s

inductive SheetTurns (inner : Inner) (target : CellRef) (names : List String) (place : CellRef)
    (u : FillState) : List String → Nat → String → List Value → FillState → Prop
  | here {existing : List String} {index : Nat} {previous title : String} {item : Value}
    {rest : List Value} {s t : FillState}
    (named : title = SheetTitle.safe (nameFor target.sheet names index) existing)
    (copied : exec (copySheet target.sheet title (some previous)) s = (.ok (), t))
    (next : place = target.onSheet title)
    (turn : u = turned e.var e.varIndex? item (some (.int index)) t) :
    SheetTurns inner target names place u existing index previous (item :: rest) s
  | later {existing : List String} {index : Nat} {previous title : String} {item : Value}
    {rest : List Value} {s t v : FillState} {size : Size}
    (named : title = SheetTitle.safe (nameFor target.sheet names index) existing)
    (copied : exec (copySheet target.sheet title (some previous)) s = (.ok (), t))
    (run : exec (binding e.var e.varIndex? item (some (.int index))
      (inner.replay (target.onSheet title))) t = (.ok size, v))
    (tail : SheetTurns inner target names place u (title :: existing) (index + 1) title rest v) :
    SheetTurns inner target names place u existing index previous (item :: rest) s

end Turns

variable {e : EachSpec} {h : FillHost} {condition : String} {inner : Inner}
  {target place : CellRef} {names existing : List String} {index : Nat} {done last : Size}
  {previous : String} {items : List Value} {s u : FillState} {f : Failure}

theorem Tests.ne_nil (ht : e.Tests h condition u items s) : items.isEmpty = false := by
  cases ht <;> rfl

theorem Turns.ne_nil (ht : e.Turns inner target place u index done items s) :
    items.isEmpty = false := by
  cases ht <;> rfl

theorem SheetTurns.ne_nil
    (ht : e.SheetTurns inner target names place u existing index previous items s) :
    items.isEmpty = false := by
  cases ht <;> rfl

theorem Tests.fails (ht : e.Tests h condition u items s)
    (hf : FillM.Fails (h.isTrue condition) u f) :
    FillM.Fails (e.selected h condition items) s
      (f.locateExpression none (some "each") (some "select")) := by
  induction ht with
  | here turn =>
    subst turn
    rw [selected]
    exact (Fails.binding (hf.mapFailure _)).bind
  | later test tail ih =>
    rw [selected]
    exact Fails.after test ih.bind

theorem Turns.fails (ht : e.Turns inner target place u index done items s)
    (hf : FillM.Fails (inner.replay place) u f) :
    FillM.Fails (e.runItems inner target index done items) s f := by
  induction ht with
  | here next turn =>
    subst next turn
    rw [runItems]
    exact hf.binding.bind
  | later run tail ih =>
    rw [runItems]
    exact Fails.after run ih

theorem SheetTurns.fails
    (ht : e.SheetTurns inner target names place u existing index previous items s)
    (hf : FillM.Fails (inner.replay place) u f) :
    FillM.Fails (e.runSheets inner target names existing index previous last items) s f := by
  induction ht generalizing last with
  | here named copied next turn =>
    subst named next turn
    rw [runSheets]
    exact Fails.after copied hf.binding.bind
  | later named copied run tail ih =>
    subst named
    rw [runSheets]
    exact Fails.after copied (Fails.after run ih)

end EachSpec

namespace Command

def Fills (inner? : Option Inner) (target : CellRef) (s : FillState) (size : Size)
    (t : FillState) : Prop :=
  match inner? with
  | none => size = .zero ∧ t = s
  | some inner => exec (inner.replay target) s = (.ok size, t)

inductive Asks (h : FillHost) (inners : List Inner) (target : CellRef) (s : FillState) :
    Command → String → Question → FillState → Prop
  | items {e : EachSpec} : Asks h inners target s (.each e) "items" (.value e.items) s
  | select {e : EachSpec} {condition : String} {v : Value} {items : List Value} {t t' u : FillState}
    (value : exec (EachSpec.evaluate h "items" e.items) s = (.ok v, t))
    (listed : exec (itemsOr v (.itemsNotSequence e.items) e.items "each" "items") t =
      (.ok items, t'))
    (given : e.select? = some condition) (test : e.Tests h condition u items t') :
    Asks h inners target s (.each e) "select" (.condition condition) u
  | multisheet {e : EachSpec} {names : String} {items : List Value} {inner : Inner} {t : FillState}
    (resolved : exec (e.resolve h) s = (.ok items, t)) (found : items.isEmpty = false)
    (head : inners.head? = some inner) (given : e.multisheet? = some names) :
    Asks h inners target s (.each e) "multisheet" (.value names) t
  | condition {condition : String} :
    Asks h inners target s (.if condition) "condition" (.condition condition) s
  | headers {g : GridSpec} : Asks h inners target s (.grid g) "headers" (.value g.headers) s
  | data {g : GridSpec} {headers : List Value} {t : FillState}
    (listed : exec (GridSpec.itemsOf h "headers" g.headers) s = (.ok headers, t)) :
    Asks h inners target s (.grid g) "data" (.value g.rows) t
  | source {i : ImageSpec} : Asks h inners target s (.image i) "src" (.value i.picture) s
  | cols {m : MergeSpec} {text : String} {size : Size} {t : FillState}
    (filled : Fills inners.head? target s size t) (given : m.cols? = some text)
    (asked : ¬ MergeSpec.IsNumeral (stripText text)) :
    Asks h inners target s (.mergeCells m) "cols" (.value (stripText text)) t
  | rows {m : MergeSpec} {text : String} {size : Size} {cols : Int} {t u : FillState}
    (filled : Fills inners.head? target s size t)
    (told : exec (MergeSpec.dimension h "cols" m.cols? size.width) t = (.ok cols, u))
    (given : m.rows? = some text) (asked : ¬ MergeSpec.IsNumeral (stripText text)) :
    Asks h inners target s (.mergeCells m) "rows" (.value (stripText text)) u

inductive Enters (h : FillHost) (inners : List Inner) (target : CellRef) (s : FillState) :
    Command → Inner → CellRef → FillState → Prop
  | items {e : EachSpec} {inner : Inner} {place : CellRef} {items : List Value} {t u : FillState}
    (resolved : exec (e.resolve h) s = (.ok items, t)) (head : inners.head? = some inner)
    (single : e.multisheet? = none) (turn : e.Turns inner target place u 0 .zero items t) :
    Enters h inners target s (.each e) inner place u
  | sheets {e : EachSpec} {inner : Inner} {place : CellRef} {names : String} {v : Value}
    {items titles : List Value} {t t' t'' u : FillState}
    (resolved : exec (e.resolve h) s = (.ok items, t)) (head : inners.head? = some inner)
    (given : e.multisheet? = some names)
    (value : exec (EachSpec.evaluate h "multisheet" names) t = (.ok v, t'))
    (listed : exec (itemsOr v (.sheetsNotList names) names "each" "multisheet") t' =
      (.ok titles, t''))
    (turn : e.SheetTurns inner target (titles.map Value.shown) place u t''.book.titles 0
      target.sheet items t'') : Enters h inners target s (.each e) inner place u
  | branch {condition : String} {holds : Bool} {inner : Inner} {t : FillState}
    (asked : exec (within "if" "condition" (h.isTrue condition)) s = (.ok holds, t))
    (taken : (if holds then inners[0]? else inners[1]?) = some inner) :
    Enters h inners target s (.if condition) inner target t
  | merged {m : MergeSpec} {inner : Inner} (head : inners.head? = some inner) :
    Enters h inners target s (.mergeCells m) inner target s
  | updated {name : String} {inner : Inner} {id : Nat} {t : FillState}
    (resolved : exec (Updater.resolve name) s = (.ok id, t)) (head : inners.head? = some inner) :
    Enters h inners target s (.updateCell name) inner target t
  | fitted {inner : Inner} (head : inners.head? = some inner) :
    Enters h inners target s .autoRowHeight inner target s

variable {h : FillHost} {inners : List Inner} {inner : Inner} {target place : CellRef}
  {c : Command} {key : String} {q : Question} {s t u : FillState} {f : Failure}

theorem Asks.name_ne (ha : Asks h inners target s c key q u) : c.name.isEmpty = false := by
  cases ha <;> rfl

theorem Enters.name_ne (he : Enters h inners target s c inner place u) :
    c.name.isEmpty = false := by
  cases he <;> rfl

theorem dimension_fails {text : String} {replayed : Int}
    (hasked : ¬ MergeSpec.IsNumeral (stripText text))
    (hf : FillM.Fails (h.evaluate (stripText text)) s f) :
    FillM.Fails (MergeSpec.dimension h key (some text) replayed) s
      (f.locateExpression none (some "mergeCells") (some key)) := by
  unfold MergeSpec.dimension
  dsimp only
  split
  · next hwritten => exact absurd hwritten hasked
  · exact (hf.mapFailure _).bind

theorem Fills.fails {m : MergeSpec} {size : Size} (hfills : Fills inners.head? target s size t)
    (hf : ∀ k : Int → Int → FillM Size, FillM.Fails (do
      let cols ← MergeSpec.dimension h "cols" m.cols? size.width
      let rows ← MergeSpec.dimension h "rows" m.rows? size.height
      k cols rows) t f) : FillM.Fails (m.run h inners.head? target) s f := by
  unfold MergeSpec.run
  cases hhead : inners.head? with
  | none =>
    rw [hhead] at hfills
    obtain ⟨rfl, rfl⟩ := hfills
    exact Fails.after rfl (hf _)
  | some inner =>
    rw [hhead] at hfills
    exact Fails.after hfills (hf _)

theorem Asks.fails (ha : Asks h inners target s c key q u) (hf : q.Fails h u f) :
    FillM.Fails (c.run h inners target) s (f.locateExpression none (some c.name) (some key)) := by
  cases ha with
  | items =>
    dsimp only [Command.run]
    rw [EachSpec.run, EachSpec.resolve]
    exact (FillM.Fails.mapFailure hf _).bind.bind
  | @select e condition v items t t' u value listed given test =>
    have htest := test.fails hf
    dsimp only [Command.run]
    rw [EachSpec.run, EachSpec.resolve]
    refine Fails.bind (Fails.after value (Fails.after listed ?_))
    rw [test.ne_nil, given]
    exact htest.bind
  | multisheet resolved found head given =>
    dsimp only [Command.run]
    rw [EachSpec.run]
    refine Fails.after resolved ?_
    rw [found, head]
    dsimp only
    rw [given]
    exact (FillM.Fails.mapFailure hf _).bind
  | condition => exact (FillM.Fails.mapFailure hf _).bind
  | headers => exact (FillM.Fails.mapFailure hf _).bind.bind
  | data listed => exact Fails.after listed (FillM.Fails.mapFailure hf _).bind.bind
  | source => exact (FillM.Fails.mapFailure hf _).bind
  | cols filled given asked =>
    refine Fills.fails filled fun k => ?_
    rw [given]
    exact (dimension_fails asked hf).bind
  | rows filled told given asked =>
    refine Fills.fails filled fun k => Fails.after told ?_
    rw [given]
    exact (dimension_fails asked hf).bind

theorem Enters.fails (he : Enters h inners target s c inner place u)
    (hf : FillM.Fails (inner.replay place) u f) : FillM.Fails (c.run h inners target) s f := by
  cases he with
  | items resolved head single turn =>
    dsimp only [Command.run]
    rw [EachSpec.run]
    refine Fails.after resolved ?_
    rw [turn.ne_nil, head]
    dsimp only
    rw [single]
    exact turn.fails hf
  | sheets resolved head given value listed turn =>
    dsimp only [Command.run]
    rw [EachSpec.run]
    refine Fails.after resolved ?_
    rw [turn.ne_nil, head]
    dsimp only
    rw [given]
    refine Fails.after value (Fails.after listed ?_)
    refine Fails.after rfl (Fails.bind ?_)
    exact turn.fails hf
  | branch asked taken =>
    refine Fails.after asked ?_
    rw [taken]
    exact hf
  | merged head =>
    dsimp only [Command.run]
    rw [head]
    unfold MergeSpec.run
    exact hf.bind
  | updated resolved head =>
    dsimp only [Command.run]
    rw [head]
    exact Fails.after resolved hf.bind
  | fitted head =>
    dsimp only [Command.run]
    rw [head]
    exact hf.bind

end Command

end SheetTemplate
