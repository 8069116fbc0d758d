import SheetTemplate.Directive.Basic
import SheetTemplate.Proofs.Command.Choosing
import SheetTemplate.Proofs.Ref.Reading

/-!
Comments as they are written: commands with their attributes in quotes, each on a line of its own,
and notes on other lines. The commands are read back from such a comment, and nothing else.
-/

namespace SheetTemplate

open Text

namespace Text

variable {sep : Char} {front back line rest : List Char}

theorem splitFirst?_of_not_mem (h : sep ∉ front) :
    splitFirst? [sep] (front ++ sep :: back) = some (front, back) := by
  induction front with
  | nil => rw [List.nil_append, splitFirst?, dropPrefix?, if_pos (beq_self_eq_true sep)]; rfl
  | cons c front ih =>
    rw [List.mem_cons, not_or] at h
    rw [List.cons_append, splitFirst?, dropPrefix?, if_neg (by simpa using h.1), ih h.2]
    rfl

theorem dropPrefix?_bind (pre post cs : List Char) :
    dropPrefix? (pre ++ post) cs = (dropPrefix? pre cs).bind (dropPrefix? post) := by
  induction pre generalizing cs with
  | nil => rfl
  | cons p pre ih =>
    cases cs with
    | nil => rfl
    | cons c cs =>
      rw [List.cons_append, dropPrefix?, dropPrefix?]
      split
      · exact ih cs
      · rfl

inductive LineEnd where
  | feed
  | carriage
  | both

def LineEnd.text : LineEnd → List Char
  | feed => ['\n']
  | carriage => ['\r']
  | both => ['\r', '\n']

def SingleLine (cs : List Char) : Prop := ∀ c ∈ cs, c ≠ '\n' ∧ c ≠ '\r'

instance (cs : List Char) : Decidable (SingleLine cs) :=
  List.decidableBAll _ cs

theorem SingleLine.append (hfront : SingleLine front) (hback : SingleLine back) :
    SingleLine (front ++ back) :=
  List.forall_mem_append.2 ⟨hfront, hback⟩

theorem mem_joinWith {c : Char} {sep : List Char} {parts : List (List Char)}
    (h : c ∈ joinWith sep parts) : c ∈ sep ∨ ∃ part ∈ parts, c ∈ part := by
  induction parts with
  | nil => cases h
  | cons part parts ih =>
    cases parts with
    | nil => exact .inr ⟨part, List.mem_singleton_self part, by simpa [joinWith] using h⟩
    | cons next parts =>
      rw [joinWith, List.intercalate_cons_cons, List.append_assoc, List.mem_append,
        List.mem_append] at h
      rcases h with h | h | h
      · exact .inr ⟨part, List.mem_cons_self, h⟩
      · exact .inl h
      · rcases ih h with h | ⟨p, hp, hc⟩
        · exact .inl h
        · exact .inr ⟨p, List.mem_cons_of_mem part hp, hc⟩

theorem unifyLines_append (h : SingleLine line) (rest : List Char) :
    unifyLines (line ++ rest) = line ++ unifyLines rest := by
  induction line with
  | nil => rfl
  | cons c line ih =>
    obtain ⟨hc, hline⟩ := List.forall_mem_cons.1 h
    rw [List.cons_append, unifyLines, ih hline, List.cons_append]
    · exact fun _ heq _ => hc.2 heq
    · exact hc.2

end Text

namespace Directive

variable {cell : CellRef} {read : List Directive × Option CellParams} {line rest : List Char}

theorem lines_of_singleLine (h : SingleLine line) : lines line = [line] := by
  have hunify := unifyLines_append h []
  rw [List.append_nil, unifyLines, List.append_nil] at hunify
  rw [lines, hunify, splitOnChar_of_not_mem fun hmem => (h '\n' hmem).1 rfl]

theorem lines_append (h : SingleLine line) (e : LineEnd) (rest : List Char) :
    lines (line ++ (e.text ++ rest)) = line :: lines rest ∨
      ∃ others, lines (line ++ (e.text ++ rest)) = line :: others ∧ lines rest = [] :: others := by
  have hcut : ∀ cs : List Char, splitOnChar '\n' (line ++ '\n' :: cs) =
      line :: splitOnChar '\n' cs := fun cs => splitOnChar_append fun hmem => (h '\n' hmem).1 rfl
  rw [lines, unifyLines_append h]
  cases e with
  | feed => exact .inl (hcut _)
  | both => exact .inl (hcut _)
  | carriage =>
    cases rest with
    | nil => exact .inl (hcut _)
    | cons c rest =>
      by_cases hc : c = '\n'
      · subst hc
        exact .inr ⟨_, hcut _, rfl⟩
      · refine .inl ?_
        have hunify : unifyLines ('\r' :: c :: rest) = '\n' :: unifyLines (c :: rest) := by
          rw [unifyLines]
          intro cs heq
          exact hc (List.cons.inj heq).1
        change splitOnChar '\n' (line ++ unifyLines ('\r' :: c :: rest)) = _
        rw [hunify, hcut]
        rfl

theorem foldlM_lines (h : SingleLine line) (e : LineEnd) :
    (lines (line ++ (e.text ++ rest))).foldlM (parseLine cell) read =
      parseLine cell read line >>= (lines rest).foldlM (parseLine cell) := by
  rcases lines_append h e rest with hlines | ⟨others, hlines, hrest⟩
  · rw [hlines, List.foldlM_cons]
  · -- nothing is read from an empty line
    rw [hlines, hrest, List.foldlM_cons]
    rfl

def commentText : List Char → List (LineEnd × List Char) → List Char
  | line, [] => line
  | line, (e, next) :: rest => line ++ (e.text ++ commentText next rest)

theorem foldlM_commentText (others : List (LineEnd × List Char)) (hline : SingleLine line)
    (hothers : ∀ x ∈ others, SingleLine x.2) :
    (lines (commentText line others)).foldlM (parseLine cell) read =
      (line :: others.map (·.2)).foldlM (parseLine cell) read := by
  induction others generalizing line read with
  | nil => rw [commentText, lines_of_singleLine hline]; rfl
  | cons x others ih =>
    obtain ⟨hx, hothers⟩ := List.forall_mem_cons.1 hothers
    rw [commentText, foldlM_lines hline, List.map_cons, List.foldlM_cons]
    congr 1
    funext read
    exact ih hx hothers

end Directive

namespace Attributes

variable {found : Attributes} {word rest front : List Char} {key value : String}

def quotePairs : List (Char × Char) :=
  [('"', '"'), ('\'', '\''), ('“', '”'), ('”', '”'), ('‘', '’'), ('’', '’')]

theorem closingQuote?_of_mem {x : Char × Char} (h : x ∈ quotePairs) :
    closingQuote? x.1 = some x.2 ∧ isBlank x.1 = false ∧ SingleLine [x.1, x.2] ∧
      '[' ∉ [x.1, x.2] := by
  simp only [quotePairs, List.mem_cons, List.not_mem_nil, or_false] at h
  rcases h with rfl | rfl | rfl | rfl | rfl | rfl <;> decide

theorem nextKey?_word (hword : ∀ c ∈ word, isWord c = true) (hne : front ++ word ≠ [])
    (rest : List Char) :
    nextKey? front (word ++ '=' :: rest) = some (front.reverse ++ word, skipBlanks rest) := by
  induction word generalizing front with
  | nil =>
    have hempty : front.isEmpty = false := by simpa using hne
    rw [List.nil_append, nextKey?, if_neg (by decide), ended?, hempty, List.append_nil]
    rfl
  | cons c word ih =>
    obtain ⟨hc, hword⟩ := List.forall_mem_cons.1 hword
    rw [List.cons_append, nextKey?, if_pos hc, ih hword (List.cons_ne_nil _ _), List.reverse_cons,
      List.append_assoc]
    rfl

theorem collect_eq (found : Attributes) (cs : List Char) : collect found cs =
    match next? cs with
    | none => found
    | some (none, rest) => collect found rest
    | some (some (key, value), rest) => collect (found.set key value) rest := by
  rw [collect]
  split <;> simp_all

theorem collect_blank (found : Attributes) (cs : List Char) :
    collect found (' ' :: cs) = collect found cs := by
  have hkey : nextKey? [] (' ' :: cs) = nextKey? [] cs := by
    rw [nextKey?, if_neg (by decide)]
    rfl
  rw [collect_eq, collect_eq found cs, next?, next?, hkey]

theorem set_of_not_mem (h : key ∉ found.map (·.1)) :
    found.set key value = found ++ [(key, value)] := by
  induction found with
  | nil => rfl
  | cons a found ih =>
    rw [List.map_cons, List.mem_cons, not_or] at h
    rw [set, if_neg (by simpa using Ne.symm h.1), ih h.2]
    rfl

theorem find?_of_mem (hkeys : (found.map (·.1)).Nodup) (h : (key, value) ∈ found) :
    found.find? key = some value := by
  induction found with
  | nil => cases h
  | cons a found ih =>
    obtain ⟨hfresh, hkeys⟩ := List.nodup_cons.1 hkeys
    rw [find?, List.lookup_cons]
    rcases List.mem_cons.1 h with rfl | h
    · rw [beq_self_eq_true]
    · have hne : (key == a.1) = false := by
        rw [beq_eq_false_iff_ne]
        rintro rfl
        exact hfresh (List.mem_map_of_mem (f := (·.1)) h)
      rw [hne]
      exact ih hkeys h

end Attributes

structure WrittenAttribute where
  key : String
  value : String
  opening : Char
  closing : Char
  key_ne : key ≠ ""
  key_word : ∀ c ∈ key.toList, isWord c = true
  quotes : (opening, closing) ∈ Attributes.quotePairs
  value_open : closing ∉ value.toList
  value_single : SingleLine value.toList
  value_flat : '[' ∉ value.toList

namespace WrittenAttribute

def text (a : WrittenAttribute) : List Char :=
  a.key.toList ++ '=' :: a.opening :: (a.value.toList ++ [a.closing])

def entry (a : WrittenAttribute) : String × String := (a.key, a.value)

theorem next?_text (a : WrittenAttribute) (rest : List Char) :
    Attributes.next? (a.text ++ rest) = some (some a.entry, rest) := by
  obtain ⟨hclosing, hblank, -⟩ := Attributes.closingQuote?_of_mem a.quotes
  have hkey : Attributes.nextKey? [] (a.text ++ rest) =
      some (a.key.toList, a.opening :: (a.value.toList ++ a.closing :: rest)) := by
    have hne : [] ++ a.key.toList ≠ [] := by simpa using a.key_ne
    have hskip : Attributes.skipBlanks (a.opening :: (a.value.toList ++ a.closing :: rest)) =
        a.opening :: (a.value.toList ++ a.closing :: rest) := by
      apply dropWhile_of_head
      intro c hc
      cases hc
      exact hblank
    have := Attributes.nextKey?_word a.key_word hne
      (a.opening :: (a.value.toList ++ a.closing :: rest))
    rw [hskip] at this
    simpa [text] using this
  have hvalue : Attributes.quotedValue a.closing (a.value.toList ++ a.closing :: rest) =
      (a.value.toList, rest) := by
    have hopen := ne_of_not_mem a.value_open
    rw [Attributes.quotedValue, List.takeWhile_append_of_pos hopen,
      List.dropWhile_append_of_pos hopen]
    simp
  rw [Attributes.next?, hkey]
  simp only [hclosing, hvalue, String.ofList_toList, entry]

theorem collect_text (a : WrittenAttribute) (rest : List Char) (found : Attributes) :
    Attributes.collect found (a.text ++ rest) =
      Attributes.collect (found.set a.key a.value) rest := by
  rw [Attributes.collect_eq, next?_text]
  rfl

theorem collect_texts (attributes : List WrittenAttribute) (found : Attributes) :
    Attributes.collect found (joinWith [' '] (attributes.map text)) =
      attributes.foldl (fun found a => found.set a.key a.value) found := by
  induction attributes generalizing found with
  | nil => rw [Attributes.collect_eq]; rfl
  | cons a attributes ih =>
    rw [List.foldl_cons, ← ih]
    cases attributes with
    | nil =>
      have := collect_text a [] found
      rw [List.append_nil] at this
      rw [List.map_cons, List.map_nil, joinWith, List.intercalate_singleton, this]
      rfl
    | cons b attributes =>
      rw [List.map_cons, List.map_cons, joinWith, List.intercalate_cons_cons,
        List.append_assoc, collect_text]
      exact Attributes.collect_blank _ _

theorem foldl_set (attributes : List WrittenAttribute) (found : Attributes)
    (hkeys : (found.map (·.1) ++ attributes.map key).Nodup) :
    attributes.foldl (fun found a => found.set a.key a.value) found =
      found ++ attributes.map entry := by
  induction attributes generalizing found with
  | nil => exact (List.append_nil found).symm
  | cons a attributes ih =>
    have hfresh : a.key ∉ found.map (·.1) := by
      intro hmem
      exact (List.nodup_append.1 hkeys).2.2 _ hmem _ List.mem_cons_self rfl
    rw [List.foldl_cons, Attributes.set_of_not_mem hfresh, ih]
    · simp [entry]
    · simpa using hkeys

theorem parse_texts {attributes : List WrittenAttribute} (hkeys : (attributes.map key).Nodup) :
    Attributes.parse (joinWith [' '] (attributes.map text)) = attributes.map entry := by
  rw [Attributes.parse, collect_texts, foldl_set _ _ (by simpa using hkeys), List.nil_append]

theorem mem_text {a : WrittenAttribute} {c : Char} (h : c ∈ a.text) :
    isWord c = true ∨ c = '=' ∨ c ∈ [a.opening, a.closing] ∨ c ∈ a.value.toList := by
  simp only [text, List.mem_append, List.mem_cons, List.not_mem_nil, or_false] at h ⊢
  rcases h with h | h | h | h | h
  · exact .inl (a.key_word c h)
  · exact .inr (.inl h)
  · exact .inr (.inr (.inl (.inl h)))
  · exact .inr (.inr (.inr h))
  · exact .inr (.inr (.inl (.inr h)))

theorem text_single (a : WrittenAttribute) : SingleLine a.text := by
  intro c hc
  obtain ⟨-, -, hquotes, -⟩ := Attributes.closingQuote?_of_mem a.quotes
  rcases mem_text hc with h | rfl | h | h
  · constructor <;> rintro rfl <;> exact absurd h (by decide)
  · decide
  · exact hquotes c h
  · exact a.value_single c h

theorem text_flat (a : WrittenAttribute) : '[' ∉ a.text := by
  intro hc
  obtain ⟨-, -, -, hquotes⟩ := Attributes.closingQuote?_of_mem a.quotes
  rcases mem_text hc with h | h | h | h
  · exact absurd h (by decide)
  · exact absurd h (by decide)
  · exact hquotes h
  · exact a.value_flat h

end WrittenAttribute

namespace Directive

variable {cell : CellRef} {name inner rest : List Char}

theorem mem_of_afterEquals? {cs : List Char} (h : Attributes.afterEquals? cs = some rest) :
    ∀ c ∈ rest, c ∈ cs := by
  unfold Attributes.afterEquals? at h
  split at h
  · next more hmore =>
    cases h
    intro c hc
    have hc : c ∈ Attributes.skipBlanks cs := by
      rw [hmore]
      exact List.mem_cons_of_mem _ ((List.dropWhile_suffix _).subset hc)
    exact (List.dropWhile_suffix _).subset hc
  · cases h

theorem areaList?_of_flat {cs : List Char} (h : '[' ∉ cs) : areaList? cs = none := by
  induction cs with
  | nil => rfl
  | cons c cs ih =>
    have hlist : (dropPrefix? "areas".toList (c :: cs)).bind bracketList? = none := by
      rw [Option.bind_eq_none_iff]
      intro rest hrest
      have hflat : '[' ∉ rest := by
        rw [eq_append_of_dropPrefix? hrest] at h
        exact fun hmem => h (List.mem_append_right _ hmem)
      unfold bracketList?
      split
      · next hafter => exact absurd (mem_of_afterEquals? hafter '[' List.mem_cons_self) hflat
      · rfl
    rw [areaList?, hlist]
    exact ih fun hmem => h (List.mem_cons_of_mem c hmem)

def lineText (name inner : List Char) : List Char := mark ++ name ++ '(' :: (inner ++ [')'])

theorem strip_lineText (name inner : List Char) :
    strip (lineText name inner) = lineText name inner := by
  apply strip_of_ends
  · intro c hc
    cases hc
    decide
  · intro c hc
    rw [lineText, List.getLast?_append, ← List.cons_append, List.getLast?_concat] at hc
    cases hc
    decide

theorem brackets_lineText (h : '(' ∉ name) :
    brackets (lineText name inner) = .ok (mark ++ name, inner) := by
  have hmark : '(' ∉ mark ++ name := by
    rw [List.mem_append]
    rintro (hc | hc)
    · exact absurd hc (by decide)
    · exact h hc
  rw [brackets, lineText, splitFirst?_of_not_mem hmark]
  simp only [splitLast?_append List.not_mem_nil]

theorem parse_lineText (h : '(' ∉ name) (hne : strip name ≠ []) (cell : CellRef) :
    parse (lineText name inner) cell = (do
      let last ← readLastCell (lineText name inner) (String.ofList (strip name))
        (Attributes.parse inner) cell
      let areas ← (((areaList? inner).map areaTexts).getD []).mapM
        (readArea (String.ofList (strip name)) cell)
      .ok
        { name := String.ofList (strip name)
          attributes := Attributes.parse inner
          cell := cell
          lastCell? := last
          areas := areas }) := by
  have hempty : (String.ofList (strip name)).isEmpty = false := by simpa using hne
  rw [parse]
  simp only [strip_lineText, brackets_lineText h, bind, Except.bind, List.drop_left, hempty]
  rfl

theorem startsWith_append_of_not_mem {pre name : List Char} (hmem : '(' ∉ pre)
    (h : startsWith pre name = false) (rest : List Char) :
    startsWith pre (name ++ '(' :: rest) = false := by
  induction pre generalizing name with
  | nil => cases h
  | cons p pre ih =>
    rw [List.mem_cons, not_or] at hmem
    cases name with
    | nil =>
      rw [List.nil_append, startsWith, dropPrefix?, if_neg (by simpa using Ne.symm hmem.1)]
      rfl
    | cons c name =>
      rw [startsWith, dropPrefix?] at h
      rw [List.cons_append, startsWith, dropPrefix?]
      split
      · next hc =>
        rw [if_pos hc] at h
        exact ih hmem.2 h
      · rfl

end Directive

structure WrittenCommand (sheet : String) where
  name : String
  attributes : List WrittenAttribute
  lastCell : CellRef
  name_ne : name ≠ ""
  name_trimmed : strip name.toList = name.toList
  name_open : '(' ∉ name.toList
  name_single : SingleLine name.toList
  name_command : startsWith Directive.paramsName name.toList = false
  keys : (attributes.map (·.key)).Nodup
  last_read : ∃ a ∈ attributes, a.key = "lastCell" ∧
    CellRef.parse (some a.value) sheet = .ok lastCell

namespace WrittenCommand

variable {cell : CellRef}

def inner {sheet : String} (c : WrittenCommand sheet) : List Char :=
  joinWith [' '] (c.attributes.map WrittenAttribute.text)

def text {sheet : String} (c : WrittenCommand sheet) : List Char :=
  Directive.lineText c.name.toList c.inner

def directive (cell : CellRef) (c : WrittenCommand cell.sheet) : Directive where
  name := c.name
  attributes := c.attributes.map WrittenAttribute.entry
  cell := cell
  lastCell? := some c.lastCell

variable {c : WrittenCommand cell.sheet}

theorem find?_lastCell (c : WrittenCommand cell.sheet) : ∃ value,
    Attributes.find? (c.attributes.map WrittenAttribute.entry) "lastCell" = some value ∧
      CellRef.parse (some value) cell.sheet = .ok c.lastCell := by
  obtain ⟨a, ha, hkey, hread⟩ := c.last_read
  refine ⟨a.value, Attributes.find?_of_mem ?_ ?_, hread⟩
  · rw [List.map_map]
    exact c.keys
  · rw [← hkey]
    exact List.mem_map_of_mem ha

theorem parse_text (c : WrittenCommand cell.sheet) :
    Directive.parse c.text cell = .ok (c.directive) := by
  have hne : strip c.name.toList ≠ [] := by
    rw [c.name_trimmed]
    simpa using c.name_ne
  have hflat : Directive.areaList? c.inner = none := by
    apply Directive.areaList?_of_flat
    intro hmem
    rcases mem_joinWith hmem with h | ⟨part, hpart, h⟩
    · exact absurd (List.mem_singleton.1 h) (by decide)
    · obtain ⟨a, -, rfl⟩ := List.mem_map.1 hpart
      exact a.text_flat h
  have hattributes : Attributes.parse c.inner = c.attributes.map WrittenAttribute.entry :=
    WrittenAttribute.parse_texts c.keys
  obtain ⟨value, hfind, hread⟩ := c.find?_lastCell
  have hlast : Directive.readLastCell c.text c.name (c.attributes.map WrittenAttribute.entry) cell =
      .ok (some c.lastCell) := by
    rw [Directive.readLastCell, hfind]
    simp only [hread]
  rw [text] at hlast ⊢
  rw [Directive.parse_lineText c.name_open hne, c.name_trimmed, String.ofList_toList, hattributes,
    hlast, hflat]
  rfl

theorem text_single {sheet : String} (c : WrittenCommand sheet) : SingleLine c.text := by
  have hinner : SingleLine c.inner := by
    intro d hd
    rcases mem_joinWith hd with hd | ⟨part, hpart, hd⟩
    · cases List.mem_singleton.1 hd
      decide
    · obtain ⟨a, -, rfl⟩ := List.mem_map.1 hpart
      exact a.text_single d hd
  have hmark : SingleLine Directive.mark := by decide
  have hopen : SingleLine ['('] := by decide
  exact (hmark.append c.name_single).append (hopen.append (hinner.append (by decide)))

theorem isCommand_text {sheet : String} (c : WrittenCommand sheet) :
    Directive.isParams c.text = false ∧ Directive.isCommand c.text = true := by
  have hparams : Directive.isParams c.text = false := by
    rw [Directive.isParams, text, Directive.strip_lineText]
    exact Directive.startsWith_append_of_not_mem (by decide) c.name_command _
  refine ⟨hparams, ?_⟩
  rw [Directive.isCommand, hparams, text, Directive.strip_lineText, Directive.lineText,
    List.append_assoc, startsWith, dropPrefix?_self]
  rfl

theorem parseLine_text (c : WrittenCommand cell.sheet)
    (read : List Directive × Option CellParams) :
    Directive.parseLine cell read c.text = .ok (read.1 ++ [c.directive], read.2) := by
  obtain ⟨hparams, hcommand⟩ := c.isCommand_text
  have hstrip : strip c.text = c.text := Directive.strip_lineText _ _
  rw [Directive.parseLine]
  simp only [hstrip, hparams, hcommand, parse_text]
  rfl

end WrittenCommand

structure PlainLine where
  text : List Char
  single : SingleLine text
  unmarked : startsWith Directive.mark (strip text) = false

theorem PlainLine.parseLine_text (l : PlainLine) (cell : CellRef)
    (read : List Directive × Option CellParams) :
    Directive.parseLine cell read l.text = .ok read := by
  have hparams : Directive.isParams (strip l.text) = false := by
    have hmark : dropPrefix? Directive.mark (strip l.text) = none :=
      Option.not_isSome_iff_eq_none.1 (Bool.eq_false_iff.1 l.unmarked)
    rw [Directive.isParams, strip_strip, startsWith, dropPrefix?_bind, hmark]
    rfl
  have hcommand : Directive.isCommand (strip l.text) = false := by
    rw [Directive.isCommand, strip_strip, l.unmarked]
    rfl
  rw [Directive.parseLine]
  simp only [hparams, hcommand]
  rfl

inductive WrittenLine (sheet : String) where
  | command (c : WrittenCommand sheet)
  | plain (l : PlainLine)

namespace WrittenLine

variable {cell : CellRef}

def text {sheet : String} : WrittenLine sheet → List Char
  | command c => c.text
  | plain l => l.text

def directive? (cell : CellRef) : WrittenLine cell.sheet → Option Directive
  | command c => some c.directive
  | plain _ => none

theorem text_single {sheet : String} : ∀ l : WrittenLine sheet, SingleLine l.text
  | command c => c.text_single
  | plain l => l.single

theorem foldlM_texts (lines : List (WrittenLine cell.sheet))
    (read : List Directive × Option CellParams) :
    (lines.map text).foldlM (Directive.parseLine cell) read =
      .ok (read.1 ++ lines.filterMap (directive? cell), read.2) := by
  induction lines generalizing read with
  | nil => rw [List.filterMap_nil, List.append_nil]; rfl
  | cons l lines ih =>
    rw [List.map_cons, List.foldlM_cons]
    cases l with
    | command c =>
      have hadded : read.1 ++ (command c :: lines).filterMap (directive? cell) =
          read.1 ++ [c.directive] ++ lines.filterMap (directive? cell) := by
        rw [List.append_assoc]
        rfl
      rw [text, c.parseLine_text, hadded]
      exact ih _
    | plain l =>
      rw [text, l.parseLine_text, List.filterMap_cons_none rfl]
      exact ih _

end WrittenLine

/-- From a comment the commands are read that it was written with, in their order and each with its
name, its attributes and its last cell, whatever notes stand between them and however lines end. -/
theorem Directive.parseComment_written (cell : CellRef) (first : WrittenLine cell.sheet)
    (others : List (LineEnd × WrittenLine cell.sheet)) :
    parseComment (some (String.ofList
      (commentText first.text (others.map fun x => (x.1, x.2.text))))) cell =
        .ok ((first :: others.map (·.2)).filterMap (WrittenLine.directive? cell), none) := by
  have hothers : ∀ x ∈ others.map fun x => (x.1, x.2.text), SingleLine x.2 := by
    intro x hx
    obtain ⟨y, -, rfl⟩ := List.mem_map.1 hx
    exact y.2.text_single
  have htexts : first.text :: (others.map fun x => (x.1, x.2.text)).map (·.2) =
      (first :: others.map (·.2)).map WrittenLine.text := by
    rw [List.map_map, List.map_cons, List.map_map]
    rfl
  rw [parseComment, Option.getD_some, String.toList_ofList,
    foldlM_commentText _ first.text_single hothers, htexts, WrittenLine.foldlM_texts]
  rfl

def staff : WrittenAttribute where
  key := "items"
  value := "staff(')', \"=\")"
  opening := '“'
  closing := '”'
  key_ne := by decide
  key_word := List.all_eq_true.1 (by decide)
  quotes := by decide
  value_open := by decide
  value_single := by decide
  value_flat := by decide

def bottom : WrittenAttribute where
  key := "lastCell"
  value := "C3"
  opening := '\''
  closing := '\''
  key_ne := by decide
  key_word := List.all_eq_true.1 (by decide)
  quotes := by decide
  value_open := by decide
  value_single := by decide
  value_flat := by decide

def staffEach : WrittenCommand "S" where
  name := "each"
  attributes := [staff, bottom]
  lastCell := ⟨"S", 2, 2⟩
  name_ne := by decide
  name_trimmed := by decide
  name_open := by decide
  name_single := by decide
  name_command := by decide
  keys := by decide
  last_read := ⟨bottom, by simp, rfl, rfl⟩

def heading : PlainLine where
  text := "Staff (jx: see below)".toList
  single := by decide
  unmarked := by decide

theorem Directive.staff_read_back :
    parseComment (some "Staff (jx: see below)\r\njx:each(items=“staff(')', \"=\")” lastCell='C3')")
        ⟨"S", 0, 0⟩ =
      .ok ([{ name := "each"
              attributes := [("items", "staff(')', \"=\")"), ("lastCell", "C3")]
              cell := ⟨"S", 0, 0⟩
              lastCell? := some ⟨"S", 2, 2⟩ }], none) := by
  have htext : "Staff (jx: see below)\r\njx:each(items=“staff(')', \"=\")” lastCell='C3')" =
      String.ofList (commentText heading.text [(.both, staffEach.text)]) := by decide +kernel
  rw [htext]
  exact parseComment_written ⟨"S", 0, 0⟩ (.plain heading) [(.both, .command staffEach)]

end SheetTemplate
