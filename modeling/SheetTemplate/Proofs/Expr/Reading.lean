import Mathlib.Data.List.TakeWhile
import SheetTemplate.Proofs.Expr.Safe

namespace SheetTemplate

namespace Text

variable {cs pre ws : List Char}

theorem dropWhile_of_head {p : Char → Bool} {l : List Char} (h : ∀ c ∈ l.head?, p c = false) :
    l.dropWhile p = l := by
  cases l with
  | nil => rfl
  | cons c l => rw [List.dropWhile_cons, h c rfl, if_neg Bool.false_ne_true]

theorem head_dropWhile (p : Char → Bool) (l : List Char) : ∀ c ∈ (l.dropWhile p).head?, p c = false := by
  induction l with
  | nil => exact fun c hc => nomatch hc
  | cons c l ih =>
    intro d hd
    rw [List.dropWhile_cons] at hd
    split at hd
    · exact ih d hd
    · next h =>
      cases hd
      simpa using h

theorem exists_of_trim (p : Char → Bool) (cs : List Char) :
    ∃ front back, cs = front ++ trim p cs ++ back ∧ (∀ c ∈ front, p c = true) ∧
      (∀ c ∈ back, p c = true) ∧ (∀ c ∈ (trim p cs).head?, p c = false) ∧
      ∀ c ∈ (trim p cs).getLast?, p c = false := by
  have hleft := List.takeWhile_append_dropWhile (p := p) (l := cs)
  have hright := List.takeWhile_append_dropWhile (p := p) (l := (cs.dropWhile p).reverse)
  have htrim : trim p cs = ((cs.dropWhile p).reverse.dropWhile p).reverse := rfl
  have hcut : cs.dropWhile p = trim p cs ++ ((cs.dropWhile p).reverse.takeWhile p).reverse := by
    rw [htrim, ← List.reverse_append, hright, List.reverse_reverse]
  refine ⟨cs.takeWhile p, ((cs.dropWhile p).reverse.takeWhile p).reverse, ?_, ?_, ?_, ?_, ?_⟩
  · rw [List.append_assoc, ← hcut, hleft]
  · exact fun c hc => List.mem_takeWhile_imp hc
  · intro c hc
    exact List.mem_takeWhile_imp (List.mem_reverse.1 hc)
  · intro c hc
    have hhead := head_dropWhile p cs
    rw [hcut] at hhead
    cases hs : trim p cs with
    | nil =>
      rw [hs] at hc
      cases hc
    | cons d l =>
      rw [hs] at hc hhead
      exact hhead c hc
  · intro c hc
    rw [htrim, List.getLast?_reverse] at hc
    exact head_dropWhile p _ c hc

theorem trim_of_ends {p : Char → Bool} (hhead : ∀ c ∈ cs.head?, p c = false)
    (hlast : ∀ c ∈ cs.getLast?, p c = false) : trim p cs = cs := by
  rw [trim, trimLeft, dropWhile_of_head hhead, trimRight, dropWhile_of_head, List.reverse_reverse]
  rwa [List.head?_reverse]

theorem strip_of_ends (hhead : ∀ c ∈ cs.head?, isBlank c = false)
    (hlast : ∀ c ∈ cs.getLast?, isBlank c = false) : strip cs = cs :=
  trim_of_ends hhead hlast

theorem strip_strip (cs : List Char) : strip (strip cs) = strip cs := by
  obtain ⟨-, -, -, -, -, hhead, hlast⟩ := exists_of_trim isBlank cs
  exact strip_of_ends hhead hlast

theorem stripText_stripText (s : String) : stripText (stripText s) = stripText s := by
  rw [stripText, stripText, String.toList_ofList, strip_strip]

theorem dropPrefix?_append (hpre : ∀ c ∈ pre.getLast?, isBlank c = false)
    (hws : ∀ c ∈ ws, isBlank c = true) (cs : List Char) :
    dropPrefix? pre (cs ++ ws) = (dropPrefix? pre cs).map (· ++ ws) := by
  induction pre generalizing cs ws with
  | nil => rfl
  | cons p pre ih =>
    have htail : ∀ c ∈ pre.getLast?, isBlank c = false := by
      intro c hc
      cases pre with
      | nil => cases hc
      | cons q pre => exact hpre c (by rwa [List.getLast?_cons_cons])
    cases cs with
    | nil =>
      cases ws with
      | nil => rfl
      | cons w ws =>
        rw [List.nil_append, dropPrefix?, dropPrefix?]
        split
        · next hpw =>
          have hblank := hws w List.mem_cons_self
          rw [← eq_of_beq hpw] at hblank
          have hih := ih htail (fun c hc => hws c (List.mem_cons_of_mem w hc)) []
          rw [List.nil_append] at hih
          rw [hih]
          cases pre with
          | nil =>
            rw [hpre p rfl] at hblank
            cases hblank
          | cons q pre => rfl
        · rfl
    | cons c cs =>
      rw [List.cons_append, dropPrefix?, dropPrefix?]
      split
      · exact ih htail hws cs
      · rfl

theorem startsWith_append (hpre : ∀ c ∈ pre.getLast?, isBlank c = false)
    (hws : ∀ c ∈ ws, isBlank c = true) (cs : List Char) :
    startsWith pre (cs ++ ws) = startsWith pre cs := by
  rw [startsWith, startsWith, dropPrefix?_append hpre hws, Option.isSome_map]

theorem dropPrefix?_self (pre cs : List Char) : dropPrefix? pre (pre ++ cs) = some cs := by
  induction pre with
  | nil => rfl
  | cons p pre ih => rw [List.cons_append, dropPrefix?, beq_self_eq_true, if_pos rfl, ih]

theorem splitFirst?_blanks (hne : pre ≠ []) (hpre : ∀ c ∈ pre.head?, isBlank c = false)
    (hws : ∀ c ∈ ws, isBlank c = true) (cs : List Char) :
    splitFirst? pre (ws ++ (pre ++ cs)) = some (ws, cs) := by
  obtain ⟨p, rest, rfl⟩ := List.exists_cons_of_ne_nil hne
  induction ws with
  | nil =>
    have hself := dropPrefix?_self (p :: rest) cs
    rw [List.cons_append] at hself
    rw [List.nil_append, List.cons_append, splitFirst?, hself]
  | cons w ws ih =>
    have hw : (p == w) = false := by
      rw [beq_eq_false_iff_ne]
      rintro rfl
      have hblank := hws p List.mem_cons_self
      rw [hpre p rfl] at hblank
      cases hblank
    rw [List.cons_append, splitFirst?, dropPrefix?, hw, if_neg Bool.false_ne_true,
      ih fun c hc => hws c (List.mem_cons_of_mem w hc)]
    rfl

end Text

open Text

namespace Segment

variable {m : Marks}

theorem close_append {ws : List Char} (hopening : ∀ c ∈ m.opening.getLast?, isBlank c = false)
    (hclosing : ∀ c ∈ m.closing.getLast?, isBlank c = false) (hws : ∀ c ∈ ws, isBlank c = true)
    {depth skip : Nat} {quote : Option Char} {cs body rest : List Char}
    (h : close m depth quote skip cs = some (body, rest)) :
    close m depth quote skip (cs ++ ws) = some (body, rest ++ ws) := by
  induction cs generalizing depth skip quote body rest with
  | nil => cases h
  | cons c cs ih =>
    have hkeep : ∀ {d k : Nat} {q : Option Char}, (close m d q k cs).map
        (fun (p : List Char × List Char) => (c :: p.1, p.2)) = some (body, rest) →
          (close m d q k (cs ++ ws)).map (fun (p : List Char × List Char) => (c :: p.1, p.2)) =
            some (body, rest ++ ws) := by
      intro d k q hk
      obtain ⟨⟨b, r⟩, hb, he⟩ := Option.map_eq_some_iff.1 hk
      cases he
      rw [ih hb]
      rfl
    -- Each of the tests that `close` makes at a character comes out the same with blanks behind
    -- the text.
    rw [close.eq_def] at h
    rw [List.cons_append, close.eq_def]
    simp only at h ⊢
    rw [← List.cons_append, startsWith_append hopening hws, dropPrefix?_append hclosing hws]
    split at h
    · exact hkeep h
    · exact hkeep h
    · split at h
      · next hq => rw [if_pos hq]; exact hkeep h
      · next hq =>
        rw [if_neg hq]
        split at h
        · next ho => rw [if_pos ho]; exact hkeep h
        · next ho =>
          rw [if_neg ho]
          split at h
          · next hb => rw [if_pos hb]; exact hkeep h
          · next hb =>
            rw [if_neg hb]
            split at h
            · next r hr =>
              rw [hr]
              cases h
              rfl
            · next hr =>
              rw [hr]
              exact hkeep h
            · next hr =>
              rw [hr]
              exact hkeep h

theorem literals_eq_nil {cs : List Char} (h : literals cs = []) : cs = [] := by
  rw [literals] at h
  split at h
  · next hcs => exact List.isEmpty_iff.1 hcs
  · cases h

theorem split_eq_nil {cs : List Char} (h : split m cs = []) : cs = [] := by
  rw [split] at h
  split at h
  · exact literals_eq_nil h
  · exact absurd h (by simp)

theorem mem_split_of_single {cs e : List Char}
    (hopening : ∀ c ∈ m.opening.getLast?, isBlank c = false) (h : single? m cs = some e) :
    expression e ∈ split m cs := by
  have hsplit : split m (strip cs) = [expression e] := by
    rw [single?] at h
    split at h
    · next e' he =>
      cases h
      exact he
    · cases h
  obtain ⟨front, back, hcs, hfront, hback, hhead, hlast⟩ := exists_of_trim isBlank cs
  rw [← strip] at hcs hhead hlast
  rw [split] at hsplit
  split at hsplit
  · rw [literals] at hsplit
    split at hsplit
    · cases hsplit
    · cases hsplit
  · next before body rest hnext =>
    -- The text without blanks around it begins with the opening mark.
    have hbefore : before = [] := by
      cases before with
      | nil => rfl
      | cons c before => cases hsplit
    subst hbefore
    obtain ⟨hbody, hrest⟩ := List.cons.inj hsplit
    cases hbody
    have hrest : rest = [] := split_eq_nil hrest
    subst hrest
    rw [next?] at hnext
    split at hnext
    · cases hnext
    · next first after hfirst =>
      obtain ⟨⟨body, rest⟩, hclose, he⟩ := Option.map_eq_some_iff.1 hnext
      cases he
      have hstrip : strip cs = m.opening ++ e ++ m.closing := by
        rw [eq_append_of_splitFirst? hfirst, eq_append_of_close hclose]
        simp
      -- The trimmed text ends with the closing mark, so that blanks behind it do not move the
      -- mark.
      have hclosing : ∀ c ∈ m.closing.getLast?, isBlank c = false := by
        intro c hc
        apply hlast
        rw [hstrip, List.getLast?_append, hc]
        rfl
      have hall : next? m cs = some (front, e, back) := by
        have hhead' : ∀ c ∈ m.opening.head?, isBlank c = false := by
          intro c hc
          apply hhead
          rw [hstrip, List.append_assoc, List.head?_append, hc]
          rfl
        have hafter : strip cs = m.opening ++ after := eq_append_of_splitFirst? hfirst
        have hmoved : splitFirst? m.opening cs = some (front, after ++ back) := by
          rw [hcs, hafter, List.append_assoc, List.append_assoc]
          exact splitFirst?_blanks m.opening_ne hhead' hfront _
        rw [next?, hmoved]
        dsimp only
        rw [close_append hopening hclosing hback hclose]
        rfl
      rw [split, hall]
      simp

end Segment

def Readable (text : String) : Prop := ∀ f, Expr.compile text = .error f → ¬ f.IsSyntax

def ReadableIn (m : Marks) (text : String) : Prop :=
  ∀ e, .expression e ∈ Segment.split m text.toList → Readable (String.ofList e)

theorem compile_stripText (text : String) : Expr.compile (stripText text) = Expr.compile text := by
  rw [Expr.compile, Expr.compile, stripText_stripText]

namespace Evaluator

open EvalM

variable {ev : Evaluator} {text : String} {f : Failure}

theorem explain_not_isSyntax (hf : ¬ f.IsSyntax) : ¬ (explain text f).IsSyntax := by
  cases f with
  | template e =>
    rw [explain]
    split
    · exact hf
    · exact not_false
  | plain fault => exact not_false
  | library kind => exact not_false

theorem safe_evaluate (hev : ev.host.Safe) (names : String → Option Value) (h : Readable text) :
    Safe (ev.evaluate names text) := by
  unfold evaluate
  extract_lets source
  split
  · exact safe_pure _
  · have hread : Safe (EvalM.ofFailure (Expr.compile source)) := by
      apply gives_ofFailure (fun _ _ => trivial)
      rw [show Expr.compile source = Expr.compile text from compile_stripText text]
      exact h
    refine Safe.bind hread fun e => Safe.bind ?_ fun v => safe_pure _
    exact Gives.tryCatch (Expr.safe_eval hev e) fun f hf => gives_throw (explain_not_isSyntax hf)

theorem safe_isTrue (hev : ev.host.Safe) (names : String → Option Value) (h : Readable text) :
    Safe (ev.isTrue names text) := by
  refine Safe.bind (safe_evaluate hev names h) fun v => ?_
  split
  · exact safe_pure _
  · exact safe_pure _
  · exact safe_pure _
  · exact gives_throw not_false

theorem safe_evaluateText (hev : ev.host.Safe) {m : Marks}
    (hm : ∀ c ∈ m.opening.getLast?, isBlank c = false) (names : String → Option Value)
    (h : ReadableIn m text) : Safe (ev.evaluateText m names text) := by
  unfold evaluateText
  split
  · next e he => exact safe_evaluate hev names (h e (Segment.mem_split_of_single hm he))
  · extract_lets segments
    split
    · refine Safe.bind (safe_mapM fun x hx => ?_) fun _ => safe_pure _
      cases x with
      | literal cs => exact safe_pure _
      | expression cs =>
        refine Safe.bind (safe_evaluate hev names (h cs hx)) fun v => ?_
        split
        · exact safe_pure _
        · exact safe_pure _
    · exact safe_pure _

end Evaluator

end SheetTemplate
