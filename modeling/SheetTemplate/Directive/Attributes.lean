import SheetTemplate.Text.Letter
import SheetTemplate.Text.Scan

namespace SheetTemplate

open Text

abbrev Attributes := List (String × String)

namespace Attributes

def find? (attributes : Attributes) (key : String) : Option String := List.lookup key attributes

def set : Attributes → String → String → Attributes
  | [], key, value => [(key, value)]
  | a :: rest, key, value =>
    if a.1 == key then (key, value) :: rest else a :: set rest key value

def closingQuote? (c : Char) : Option Char :=
  if c == '"' then some '"'
  else if c == '\'' then some '\''
  else if c == '“' then some '”'
  else if c == '”' then some '”'
  else if c == '‘' then some '’'
  else if c == '’' then some '’'
  else none

def skipBlanks (cs : List Char) : List Char := trimLeft isBlank cs

def afterEquals? (cs : List Char) : Option (List Char) :=
  match skipBlanks cs with
  | '=' :: rest => some (skipBlanks rest)
  | _ => none

def ended? (word cs : List Char) : Option (List Char × List Char) :=
  if word.isEmpty then none else (afterEquals? cs).map fun rest => (word.reverse, rest)

def nextKey? (word : List Char) : List Char → Option (List Char × List Char)
  | [] => none
  | c :: cs =>
    if isWord c then nextKey? (c :: word) cs
    else (ended? word (c :: cs)).or (nextKey? [] cs)

theorem length_skipBlanks_le (cs : List Char) : (skipBlanks cs).length ≤ cs.length :=
  (List.dropWhile_suffix _).length_le

theorem length_lt_of_afterEquals? {cs rest : List Char} (h : afterEquals? cs = some rest) :
    rest.length < cs.length := by
  unfold afterEquals? at h
  split at h
  · next r hr =>
    simp only [Option.some.injEq] at h
    subst h
    have h1 := length_skipBlanks_le cs
    have h2 := length_skipBlanks_le r
    rw [hr] at h1
    simp only [List.length_cons] at h1
    omega
  · simp at h

theorem length_lt_of_ended? {word cs key rest : List Char}
    (h : ended? word cs = some (key, rest)) : rest.length < cs.length := by
  unfold ended? at h
  split at h
  · simp at h
  · obtain ⟨r, hr, he⟩ := Option.map_eq_some_iff.1 h
    simp only [Prod.mk.injEq] at he
    obtain ⟨-, rfl⟩ := he
    exact length_lt_of_afterEquals? hr

theorem length_lt_of_nextKey? {word cs key rest : List Char}
    (h : nextKey? word cs = some (key, rest)) : rest.length < cs.length := by
  induction cs generalizing word with
  | nil => simp [nextKey?] at h
  | cons c cs ih =>
    rw [nextKey?] at h
    cases hw : isWord c with
    | true =>
      rw [if_pos hw] at h
      exact Nat.lt_succ_of_lt (ih h)
    | false =>
      rw [if_neg (by simp [hw])] at h
      rcases Option.or_eq_some_iff.1 h with h | ⟨-, h⟩
      · exact length_lt_of_ended? h
      · exact Nat.lt_succ_of_lt (ih h)

def quotedValue (close : Char) (cs : List Char) : List Char × List Char :=
  (cs.takeWhile (· != close), (cs.dropWhile (· != close)).drop 1)

theorem length_quotedValue_le (close : Char) (cs : List Char) :
    (quotedValue close cs).2.length ≤ cs.length := by
  have h := (List.dropWhile_suffix (l := cs) (fun c => c != close)).length_le
  simp only [quotedValue, List.length_drop]
  omega

def next? (cs : List Char) : Option (Option (String × String) × List Char) :=
  match nextKey? [] cs with
  | none => none
  | some (_, []) => none
  | some (key, q :: rest) =>
    match closingQuote? q with
    | none => some (none, q :: rest)
    | some close =>
      let (value, after) := quotedValue close rest
      some (some (String.ofList key, String.ofList value), after)

theorem length_lt_of_next? {cs rest : List Char} {a : Option (String × String)}
    (h : next? cs = some (a, rest)) : rest.length < cs.length := by
  unfold next? at h
  split at h
  · simp at h
  · simp at h
  · next key q more hk =>
    have hlt := length_lt_of_nextKey? hk
    split at h
    · simp only [Option.some.injEq, Prod.mk.injEq] at h
      obtain ⟨-, rfl⟩ := h
      exact hlt
    · next close _ =>
      simp only [Option.some.injEq, Prod.mk.injEq] at h
      obtain ⟨-, rfl⟩ := h
      have := length_quotedValue_le close more
      simp only [List.length_cons] at hlt
      omega

def collect (found : Attributes) (cs : List Char) : Attributes :=
  match _h : next? cs with
  | none => found
  | some (none, rest) => collect found rest
  | some (some (key, value), rest) => collect (found.set key value) rest
termination_by cs.length
decreasing_by all_goals exact length_lt_of_next? _h

def parse (cs : List Char) : Attributes := collect [] cs

end Attributes

end SheetTemplate
