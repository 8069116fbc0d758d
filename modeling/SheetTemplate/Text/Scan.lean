import SheetTemplate.Text.Blank

namespace SheetTemplate.Text

def trimLeft (p : Char → Bool) (cs : List Char) : List Char := cs.dropWhile p

def trimRight (p : Char → Bool) (cs : List Char) : List Char := (cs.reverse.dropWhile p).reverse

def trim (p : Char → Bool) (cs : List Char) : List Char := trimRight p (trimLeft p cs)

def strip (cs : List Char) : List Char := trim isBlank cs

def stripText (s : String) : String := String.ofList (strip s.toList)

def dropPrefix? : List Char → List Char → Option (List Char)
  | [], cs => some cs
  | _ :: _, [] => none
  | p :: pre, c :: cs => if p == c then dropPrefix? pre cs else none

def startsWith (pre cs : List Char) : Bool := (dropPrefix? pre cs).isSome

def endsWith (post cs : List Char) : Bool := startsWith post.reverse cs.reverse

theorem eq_append_of_dropPrefix? {pre cs rest : List Char} (h : dropPrefix? pre cs = some rest) :
    cs = pre ++ rest := by
  induction pre generalizing cs with
  | nil => simpa [dropPrefix?] using h
  | cons p pre ih =>
    cases cs with
    | nil => simp [dropPrefix?] at h
    | cons c cs =>
      by_cases hpc : p = c
      · subst hpc
        simp only [dropPrefix?, beq_self_eq_true, ↓reduceIte] at h
        rw [ih h, List.cons_append]
      · simp [dropPrefix?, hpc] at h

def splitFirst? (sep : List Char) : List Char → Option (List Char × List Char)
  | [] => if sep.isEmpty then some ([], []) else none
  | c :: cs =>
    match dropPrefix? sep (c :: cs) with
    | some rest => some ([], rest)
    | none => (splitFirst? sep cs).map fun (before, after) => (c :: before, after)

def containsText (sub cs : List Char) : Bool := (splitFirst? sub cs).isSome

theorem eq_append_of_splitFirst? {sep cs before after : List Char}
    (h : splitFirst? sep cs = some (before, after)) : cs = before ++ sep ++ after := by
  induction cs generalizing before after with
  | nil =>
    simp only [splitFirst?] at h
    split at h
    · next hs => simp_all
    · simp at h
  | cons c cs ih =>
    simp only [splitFirst?] at h
    split at h
    · next rest hr =>
      simp only [Option.some.injEq, Prod.mk.injEq] at h
      obtain ⟨rfl, rfl⟩ := h
      simpa using eq_append_of_dropPrefix? hr
    · obtain ⟨⟨b, a⟩, hba, heq⟩ := Option.map_eq_some_iff.1 h
      simp only [Prod.mk.injEq] at heq
      obtain ⟨rfl, rfl⟩ := heq
      rw [ih hba]
      simp

def splitLast? (sep : Char) (cs : List Char) : Option (List Char × List Char) :=
  let (after, before) := cs.reverse.span (· != sep)
  match before with
  | [] => none
  | _ :: before => some (before.reverse, after.reverse)

def splitOnText (sep : List Char) : Nat → List Char → List (List Char)
  | 0, cs => [cs]
  | fuel + 1, cs =>
    match splitFirst? sep cs with
    | some (before, after) => before :: splitOnText sep fuel after
    | none => [cs]

def words (cs : List Char) : List (List Char) :=
  go cs []
where
  go : List Char → List Char → List (List Char)
    | [], word => if word.isEmpty then [] else [word.reverse]
    | c :: cs, word =>
      if isBlank c then (if word.isEmpty then go cs [] else word.reverse :: go cs [])
      else go cs (c :: word)

def joinWith (sep : List Char) (parts : List (List Char)) : List Char :=
  List.intercalate sep parts

def replaceText (old new : List Char) (count : Nat) (cs : List Char) : List Char :=
  joinWith new (splitOnText old count cs)

def joinText (sep : String) (parts : List String) : String := sep.intercalate parts

def unifyLines : List Char → List Char
  | '\r' :: '\n' :: cs => '\n' :: unifyLines cs
  | '\r' :: cs => '\n' :: unifyLines cs
  | c :: cs => c :: unifyLines cs
  | [] => []

end SheetTemplate.Text
