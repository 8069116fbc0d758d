import SheetTemplate.Command.Each

namespace SheetTemplate

open Number Text

namespace GridSpec

variable (h : FillHost)

def itemsOf (key text : String) : FillM (List Value) := do
  let v ← FillM.within "grid" key (h.evaluate text)
  FillM.itemsOr v (.notList key text) text "grid" key

def font? (inner? : Option Inner) (row col : Int) : FillM (Option Font) := do
  match inner? with
  | none => return none
  | some inner =>
    let place := inner.start.offset (min row (inner.size.height - 1))
      (min col (inner.size.width - 1))
    return ((← get).template.cell? place).bind (·.font?)

def writeRow (inner? : Option Inner) (fontRow : Int) (start : CellRef) (col : Nat) :
    List Value → FillM Unit
  | [] => return
  | v :: rest => do
    FillM.setValue (start.offset 0 col) v (← font? inner? fontRow col)
    writeRow inner? fontRow start (col + 1) rest

def run (g : GridSpec) (inner? : Option Inner) (target : CellRef) : FillM Size := do
  let headers ← itemsOf h "headers" g.headers
  let rows ← itemsOf h "data" g.rows
  if headers.isEmpty then return .zero
  else
    writeRow inner? 0 target 0 headers
    let rec go (index : Nat) : List Value → FillM Unit
      | [] => return
      | item :: rest => do
        -- A row has no more cells than there are headers.
        let cells := (item.rowCells g.fields).take headers.length
        writeRow inner? 1 (target.offset index 0) 0 cells
        go (index + 1) rest
    go 1 rows
    return ⟨headers.length, 1 + rows.length⟩

end GridSpec

namespace ImageSpec

def run (h : FillHost) (i : ImageSpec) (target : CellRef) : FillM Size := do
  match ← FillM.within "image" "src" (h.evaluate i.picture) with
  | .null =>
    FillM.log .warning "image"
      ("Image source " ++ quoted i.picture ++ " is empty, nothing embedded at " ++ target.label)
    return ⟨1, 1⟩
  | v =>
    match v with
    | .bytes _ | .picture _ =>
      FillM.addImage target v i.scaleX i.scaleY
      return ⟨1, 1⟩
    | _ =>
      throw (.template
        { cause := .notBytes v.className
          expression := some i.picture
          command := some "image"
          property := some "src" })

end ImageSpec

namespace MergeSpec

def dimension (h : FillHost) (key : String) (given? : Option String) (replayed : Int) :
    FillM Int := do
  match given? with
  | none => return max replayed 1
  | some expression =>
    let text := stripText expression
    let digits := text.toList.dropWhile (· == '-')
    -- A number as it stands is not given to the evaluator.
    if !digits.isEmpty && digits.all isDigit then
      FillM.ofFault (Expr.toWhole (.text text))
    else
      let v ← FillM.within "mergeCells" key (h.evaluate text)
      match Expr.toWhole v with
      | .ok n => return n
      | .error f =>
        if f.kind = .type || f.kind = .value then
          throw (.template
            { cause := .notWhole key expression v.inner
              expression := some expression
              command := some "mergeCells"
              property := some key })
        else throw (.plain f)

def run (h : FillHost) (m : MergeSpec) (inner? : Option Inner) (target : CellRef) :
    FillM Size := do
  let replayed ← match inner? with
    | none => pure Size.zero
    | some inner => inner.replay target
  let cols ← dimension h "cols" m.cols? replayed.width
  let rows ← dimension h "rows" m.rows? replayed.height
  if cols < m.minCols || rows < m.minRows then
    FillM.log .debug "merge_cells" ("mergeCells at " ++ target.label ++ ": " ++ showInt cols ++
      "x" ++ showInt rows ++ " below minimum, not merged")
    return ⟨cols, rows⟩
  else if cols ≤ 1 && rows ≤ 1 then return ⟨1, 1⟩
  else
    FillM.merge target.sheet ⟨target.pos, target.pos.offset (rows - 1) (cols - 1)⟩
    return ⟨cols, rows⟩

end MergeSpec

namespace Updater

def resolve (name : String) : FillM Nat := do
  let refuse (cause : Cause) : FillM Nat :=
    throw (.template
      { cause := cause
        expression := some name
        command := some "updateCell"
        property := some "updater" })
  match (← get).context.get? name with
  | none => refuse (.noUpdater name)
  | some v =>
    match v with
    | .null => refuse (.noUpdater name)
    | .updater id => return id
    | _ => refuse (.unfitUpdater name)

def isSame (a b : Value) : Bool :=
  match a, b with
  | .float x, .float y => x == y || (isNaN x && isNaN y)
  | .arrayFormula s, .arrayFormula t => s == t
  | _, _ => a.eq b

def updateCell (h : FillHost) (id : Nat) (r : CellRef) : FillM Unit := do
  let before ← FillM.outputCell r
  let after ← h.update id before r
  if isSame after.value before.value && after.formula? == before.formula? then return
  else
    match after.activeFormula? with
    | some f => FillM.setFormula r f
    | none => FillM.setValue r after.value none

def run (h : FillHost) (name : String) (inner? : Option Inner) (target : CellRef) :
    FillM Size := do
  let id ← resolve name
  let size ← match inner? with
    | none => pure (⟨1, 1⟩ : Size)
    | some inner => inner.replay target
  (size.cellsFrom target).forM (updateCell h id)
  return size

end Updater

def runAutoRowHeight (inner? : Option Inner) (target : CellRef) : FillM Size := do
  match inner? with
  | none => return .zero
  | some inner =>
    let size ← inner.replay target
    (List.range size.height.toNat).forM fun (row : Nat) =>
      FillM.clearRowHeight target.sheet (target.row + row)
    return size

def runIf (h : FillHost) (condition : String) (inners : List Inner) (target : CellRef) :
    FillM Size := do
  let holds ← FillM.within "if" "condition" (h.isTrue condition)
  match if holds then inners[0]? else inners[1]? with
  | none => return .zero
  | some inner => inner.replay target

def Command.run (h : FillHost) (c : Command) (inners : List Inner) (target : CellRef) :
    FillM Size :=
  match c with
  | .each e => e.run h inners.head? target
  | .if condition => runIf h condition inners target
  | .grid g => g.run h inners.head? target
  | .image i => i.run h target
  | .mergeCells m => m.run h inners.head? target
  | .updateCell updater => Updater.run h updater inners.head? target
  | .autoRowHeight => runAutoRowHeight inners.head? target
  | .hosted c => h.run c target

end SheetTemplate
