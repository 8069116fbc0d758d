import SheetTemplate.Text.Scan

/-!
Text with expressions in it: an expression stands between an opening and a closing mark. Within
it, quoted text is passed over and marks may nest.
-/

namespace SheetTemplate

open Text

/-- The marks around an expression, and what tells a text with expressions from other texts. -/
structure Marks where
  opening : List Char
  closing : List Char
  sign : List Char
  opening_ne : opening ≠ []
  closing_ne : closing ≠ []

namespace Marks

def standard : Marks := ⟨['$', '\x7b'], ['\x7d'], ['$', '\x7b'], by decide, by decide⟩

def ofTexts (opening closing : String) : Marks where
  opening := if opening.toList = [] then standard.opening else opening.toList
  closing := if closing.toList = [] then standard.closing else closing.toList
  sign := opening.toList
  opening_ne := by split <;> simp_all [standard]
  closing_ne := by split <;> simp_all [standard]

end Marks

inductive Segment where
  | literal (text : List Char)
  | expression (text : List Char)
  deriving DecidableEq, Repr

namespace Segment

def isExpression : Segment → Bool
  | expression _ => true
  | literal _ => false

def text : Segment → List Char
  | expression cs => cs
  | literal cs => cs

def written (m : Marks) : Segment → List Char
  | literal cs => cs
  | expression cs => m.opening ++ cs ++ m.closing

def isQuote (c : Char) : Bool := c == '\'' || c == '"'

/-- What stands before the closing mark of an expression and what follows the mark. Marks within
it are `depth` deep, `quote` is the quote that is open, and `skip` characters belong to a mark. -/
def close (m : Marks) (depth : Nat) (quote : Option Char) (skip : Nat) :
    List Char → Option (List Char × List Char)
  | [] => none
  | c :: cs =>
    let keep (found : Option (List Char × List Char)) : Option (List Char × List Char) :=
      found.map fun (body, rest) => (c :: body, rest)
    match skip, quote with
    | skip + 1, _ => keep (close m depth quote skip cs)
    | 0, some q => keep (close m depth (if c == q then none else some q) 0 cs)
    | 0, none =>
      if isQuote c then keep (close m depth (some c) 0 cs)
      else if startsWith m.opening (c :: cs) then
        keep (close m (depth + 1) none (m.opening.length - 1) cs)
      else if m.closing == ['\x7d'] && c == '\x7b' then keep (close m (depth + 1) none 0 cs)
      else
        match dropPrefix? m.closing (c :: cs), depth with
        | some rest, 0 => some ([], rest)
        | some _, depth + 1 => keep (close m depth none (m.closing.length - 1) cs)
        | none, _ => keep (close m depth none 0 cs)

theorem eq_append_of_close {m : Marks} {depth skip : Nat} {quote : Option Char}
    {cs body rest : List Char} (h : close m depth quote skip cs = some (body, rest)) :
    cs = body ++ m.closing ++ rest := by
  induction cs generalizing depth skip quote body rest with
  | nil => simp [close] at h
  | cons c cs ih =>
    have kept {d k : Nat} {q : Option Char}
        (hk : (close m d q k cs).map (fun (p : List Char × List Char) => (c :: p.1, p.2)) =
          some (body, rest)) : c :: cs = body ++ m.closing ++ rest := by
      obtain ⟨⟨b, r⟩, hb, he⟩ := Option.map_eq_some_iff.1 hk
      simp only [Prod.mk.injEq] at he
      obtain ⟨rfl, rfl⟩ := he
      simpa using ih hb
    rw [close.eq_def] at h
    simp only at h
    split at h
    · exact kept h
    · exact kept h
    · split at h
      · exact kept h
      · split at h
        · exact kept h
        · split at h
          · exact kept h
          · split at h
            · next r hr =>
              simp only [Option.some.injEq, Prod.mk.injEq] at h
              obtain ⟨rfl, rfl⟩ := h
              simpa using eq_append_of_dropPrefix? hr
            · exact kept h
            · exact kept h

def literals (cs : List Char) : List Segment := if cs.isEmpty then [] else [literal cs]

def next? (m : Marks) (cs : List Char) : Option (List Char × List Char × List Char) :=
  match splitFirst? m.opening cs with
  | none => none
  | some (before, after) => (close m 0 none 0 after).map fun (body, rest) => (before, body, rest)

theorem eq_append_of_next? {m : Marks} {cs before body rest : List Char}
    (h : next? m cs = some (before, body, rest)) :
    cs = before ++ m.opening ++ body ++ m.closing ++ rest := by
  unfold next? at h
  split at h
  · simp at h
  · next b a hs =>
    obtain ⟨⟨y, r⟩, hc, he⟩ := Option.map_eq_some_iff.1 h
    simp only [Prod.mk.injEq] at he
    obtain ⟨rfl, rfl, rfl⟩ := he
    rw [eq_append_of_splitFirst? hs, eq_append_of_close hc]
    simp

theorem length_lt_of_next? {m : Marks} {cs before body rest : List Char}
    (h : next? m cs = some (before, body, rest)) : rest.length < cs.length := by
  have ho := List.length_pos_iff.2 m.opening_ne
  rw [eq_append_of_next? h]
  simp only [List.length_append]
  omega

/-- Cuts text into literal text and expressions. An opening mark that is never closed is text. -/
def split (m : Marks) (cs : List Char) : List Segment :=
  match _h : next? m cs with
  | none => literals cs
  | some (before, body, rest) => literals before ++ expression body :: split m rest
termination_by cs.length
decreasing_by exact length_lt_of_next? _h

def single? (m : Marks) (cs : List Char) : Option (List Char) :=
  match split m (strip cs) with
  | [expression e] => some e
  | _ => none

def hasOpening (m : Marks) (cs : List Char) : Bool := containsText m.opening cs

def isMarked (m : Marks) (cs : List Char) : Bool := containsText m.sign cs

end Segment

end SheetTemplate
