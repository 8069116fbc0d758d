import SheetTemplate.Fill.Write

namespace SheetTemplate

namespace FillHost

variable (h : FillHost)

def atCell {α : Type} (r : CellRef) (body : FillM α) : FillM α :=
  FillM.mapFailure (fun f => f.locateExpression (some r.label) none none) body

def copyWidth (origin target : CellRef) (sheet : SheetSnapshot) : FillM Unit := do
  match sheet.width? origin.col with
  | some width =>
    -- A width can be given to a column only if it has a name.
    let _ ← FillM.ofExcept (Column.name target.col)
    FillM.onSheet target.sheet fun s => s.setWidth ⟨target.col, target.col, width⟩
  | none => return

def copyHeight (origin target : CellRef) (sheet : SheetSnapshot) : FillM Unit :=
  match sheet.height? origin.row with
  | some height => FillM.onSheet target.sheet fun s => s.setHeight ⟨target.row, height⟩
  | none => return

def copySizes (origin target : CellRef) (withHeight : Bool) : FillM Unit := do
  match (← get).template.sheet? origin.sheet with
  | none => return
  | some sheet =>
    copyWidth origin target sheet
    if withHeight then copyHeight origin target sheet else return

/-- A formula as it is evaluated for this target; what it comes to is kept for the target. -/
def formulaFor (origin target : CellRef) (formula : String) : FillM String := do
  match h.expressionText? (.text formula) with
  | none => return formula
  | some text =>
    let v ← atCell origin (h.evaluateText text)
    modify fun s =>
      { s with history := s.history.modify origin fun x => x.setFormula target v.shown }
    return v.shown

def copyFormula (origin target : CellRef) (c : Cell) (formula : String) : FillM Unit := do
  let formula ← h.formulaFor origin target formula
  discard (FillM.putOr target c (c.put? (.text ("=" ++ formula))))

def copyValue (origin target : CellRef) (c : Cell) (info : CellInfo) : FillM Unit := do
  match h.expressionText? info.value with
  | some text =>
    let v ← atCell origin (h.evaluateText text)
    modify fun s =>
      { s with history := s.history.modify origin fun x => { x with result := v } }
    discard (FillM.putOr target c (c.write? v))
  | none =>
    let c ← FillM.putOr target c (c.put? info.value)
    match info.link?.filter fun url => !url.isEmpty with
    | some url => discard (FillM.putOr target c (c.setLink? url))
    | none => return

def copyHeld (origin target : CellRef) (c : Cell) (info : CellInfo) : FillM Unit :=
  match info.activeFormula? with
  | some formula => h.copyFormula origin target c formula
  | none => h.copyValue origin target c info

def copyBlock (origin target : CellRef) : FillM Unit := do
  match (← get).template.sheet? origin.sheet |>.bind fun s => s.block? origin.pos with
  | some size =>
    if size != ⟨1, 1⟩ then
      FillM.merge target.sheet ⟨target.pos, target.pos.offset (size.height - 1) (size.width - 1)⟩
    else return
  | none => return

def copyInfo (origin target : CellRef) (c : Cell) (info : CellInfo) (withHeight : Bool) :
    FillM Unit := do
  -- The font is put before the content, which may be refused.
  let c := { c with font? := info.font?.or c.font? }
  FillM.putCell target c
  copySizes origin target withHeight
  h.copyHeld origin target c info
  copyBlock origin target
  FillM.addTarget origin target

def copyNothing (target : CellRef) (c : Cell) : FillM Unit :=
  match c.value with
  | .null => pure ()
  | _ => FillM.putCell target { c with value := .null, type := .number }

/-- Copies a template cell over what stands at a target. A covered target is left alone; where the
template has nothing, the target becomes empty. -/
def copyOver (origin target : CellRef) (withHeight : Bool) : FillM Unit := do
  match ← FillM.open? target with
  | none => return
  | some c =>
    match (← get).template.cell? origin with
    | none => copyNothing target c
    | some info => h.copyInfo origin target c info withHeight

def copy (origin target : CellRef) (withHeight : Bool) : FillM Unit := do
  FillM.record (.copy origin target)
  h.copyOver origin target withHeight

end FillHost

end SheetTemplate
