namespace SheetTemplate.Sorting

variable {α ε : Type}

def runFrom (stays : α → α → Except ε Bool) : α → List α → Except ε (List α × List α)
  | _, [] => .ok ([], [])
  | last, x :: rest => do
    if ← stays last x then
      let (run, rest) ← runFrom stays x rest
      return (x :: run, rest)
    else return ([], x :: rest)

def firstRun (less : α → α → Except ε Bool) : List α → Except ε (List α × List α)
  | [] => .ok ([], [])
  | [x] => .ok ([x], [])
  | x :: y :: rest => do
    if ← less y x then
      let (run, rest) ← runFrom (fun last z => less z last) y rest
      return ((x :: y :: run).reverse, rest)
    else
      let (run, rest) ← runFrom (fun last z => return !(← less z last)) y rest
      return (x :: y :: run, rest)

def place (less : α → α → Except ε Bool) (x : α) (sorted : Array α) (low high : Nat) :
    Except ε Nat :=
  if low < high then
    let middle := low + (high - low) / 2
    match sorted[middle]? with
    | none => .ok low
    | some y => do
      if ← less x y then place less x sorted low middle
      else place less x sorted (middle + 1) high
  else .ok low
termination_by high - low

def insertAll (less : α → α → Except ε Bool) : Array α → List α → Except ε (Array α)
  | sorted, [] => .ok sorted
  | sorted, x :: rest => do
    let k ← place less x sorted 0 sorted.size
    insertAll less (sorted.insertIdxIfInBounds k x) rest

def sort (less : α → α → Except ε Bool) (items : List α) : Except ε (List α) := do
  let (run, rest) ← firstRun less items
  return (← insertAll less run.toArray rest).toList

def sortDown (less : α → α → Except ε Bool) (items : List α) : Except ε (List α) := do
  return (← sort less items.reverse).reverse

end SheetTemplate.Sorting
