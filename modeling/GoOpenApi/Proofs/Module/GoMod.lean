import GoOpenApi.Module.Layout
import GoOpenApi.Proofs.Text.Blank
import GoOpenApi.Proofs.Text.Split
import Mathlib.Data.List.Induction
import Mathlib.Data.List.Infix

/-!
The form of `go.mod`. What it says is the sequence of its directives with their entries; blocks,
blanks and comments are ways of writing it down.
-/

namespace GoOpenApi

namespace Text

variable {as bs cs : List Char}

/-! ### The text before two slashes -/

theorem beforeList_cons_of_ne {c : Char} (hc : c ≠ '/') (cs : List Char) :
    beforeList ['/', '/'] (c :: cs) = c :: beforeList ['/', '/'] cs := by
  simp [beforeList, hc.symm]

theorem beforeList_append_of_ne (ha : ∀ c ∈ as, c ≠ '/') (bs : List Char) :
    beforeList ['/', '/'] (as ++ bs) = as ++ beforeList ['/', '/'] bs := by
  induction as with
  | nil => rfl
  | cons c as ih =>
    rw [List.forall_mem_cons] at ha
    rw [List.cons_append, beforeList_cons_of_ne ha.1, ih ha.2, List.cons_append]

/-- A text without two slashes ends before those that follow it, if it does not end with one. -/
theorem beforeList_append_of_free (hfree : ¬['/', '/'] <:+: as)
    (hends : as.getLast? = some '/' → bs.head? ≠ some '/') :
    beforeList ['/', '/'] (as ++ bs) = as ++ beforeList ['/', '/'] bs := by
  induction as with
  | nil => rfl
  | cons c as ih =>
    rw [List.infix_cons_iff, not_or] at hfree
    have hrest : as.getLast? = some '/' → bs.head? ≠ some '/' := by
      intro hl
      refine hends ?_
      rw [List.getLast?_cons, hl]
      rfl
    have hstep : ¬['/', '/'] <+: c :: (as ++ bs) := by
      intro h
      obtain ⟨rfl, hnext⟩ := List.cons_prefix_cons.mp h
      cases as with
      | nil =>
        obtain ⟨rest, rfl⟩ := hnext
        exact hends rfl rfl
      | cons c' as =>
        obtain ⟨rfl, -⟩ := List.cons_prefix_cons.mp hnext
        exact hfree.1 (List.prefix_append ['/', '/'] as)
    rw [List.cons_append, beforeList, if_neg, ih hfree.2 hrest, List.cons_append]
    rwa [List.isPrefixOf_iff_prefix]

/-- A carriage return behind a text is left out with the blanks, or with a comment. -/
theorem beforeList_append_return (cs : List Char) :
    beforeList ['/', '/'] (cs ++ ['\r']) = beforeList ['/', '/'] cs ∨
      beforeList ['/', '/'] (cs ++ ['\r']) = beforeList ['/', '/'] cs ++ ['\r'] := by
  induction cs with
  | nil => exact .inr rfl
  | cons c cs ih =>
    have hp : ['/', '/'].isPrefixOf (c :: cs ++ ['\r']) = ['/', '/'].isPrefixOf (c :: cs) := by
      cases cs <;> simp [List.isPrefixOf]
    rw [List.cons_append] at hp ⊢
    rw [beforeList, beforeList, hp]
    split
    · exact .inl rfl
    · exact ih.imp (congrArg _) (congrArg _)

end Text

namespace GoMod

open Text (AllBlank Solid)

variable {cs words directive blanks entry : List Char} {m : GoMod}

/-! ### Lines -/

theorem content_withoutReturn (cs : List Char) : content (Text.withoutReturn cs) = content cs := by
  unfold Text.withoutReturn
  split
  · rename_i hl
    obtain ⟨cs, rfl⟩ := List.getLast?_eq_some_iff.mp hl
    rw [List.dropLast_concat, content, content]
    rcases Text.beforeList_append_return cs with h | h
    · rw [h]
    · rw [h, Text.trimList_append_blank (by simp [AllBlank, Text.isBlank])]
  · rfl

theorem entriesFrom_concat_nil (block? : Option (List Char)) (lines : List (List Char)) :
    entriesFrom block? (lines ++ [[]]) = entriesFrom block? lines := by
  induction lines generalizing block? with
  | nil => rfl
  | cons line lines ih =>
    rw [List.cons_append]
    unfold entriesFrom
    simp only [ih]

/-- How the lines are ended makes no difference. -/
theorem entries_eq (text : List Char) :
    entries text = entriesFrom none ((Text.splitList (· == '\n') text).map content) := by
  have hlines : entries text = entriesFrom none ((Text.linesList text).map content) := rfl
  rw [hlines, Text.linesList]
  obtain ⟨ended, last, hs⟩ : ∃ ended last, Text.splitList (· == '\n') text = ended ++ [last] :=
    ⟨_, _, (List.dropLast_concat_getLast (Text.splitList_ne_nil _ text)).symm⟩
  have hended : ended.map (content ∘ Text.withoutReturn) = ended.map content :=
    List.map_congr_left fun line _ ↦ content_withoutReturn line
  rw [hs, List.reverse_append, List.reverse_singleton, List.singleton_append]
  simp only [List.map_append, List.map_reverse, List.reverse_reverse, List.map_map, hended]
  split
  · rename_i he
    rw [List.isEmpty_iff.mp he]
    exact (List.append_nil _).symm ▸ (entriesFrom_concat_nil none _).symm
  · rfl

/-- What stands around the words of a line: blanks on both sides, and a comment. -/
structure Margin where
  indent : List Char := []
  gap : List Char := []
  comment? : Option (List Char) := none

namespace Margin

/-- The line with the words in the margin. -/
def around (m : Margin) (words : List Char) : List Char :=
  m.indent ++ words ++ m.gap ++ m.comment?.elim [] (['/', '/'] ++ ·)

/-- The words stand on one line with the margin, and its comment begins with the first two slashes
of the line. -/
structure Fits (m : Margin) (words : List Char) : Prop where
  oneLine : '\n' ∉ m.around words
  indent : AllBlank m.indent
  gap : AllBlank m.gap
  free : ¬['/', '/'] <:+: words
  apart : m.comment? ≠ none → m.gap = [] → words.getLast? ≠ some '/'

variable {m : Margin}

instance (m : Margin) (words : List Char) : Decidable (m.Fits words) :=
  decidable_of_iff ('\n' ∉ m.around words ∧ AllBlank m.indent ∧ AllBlank m.gap ∧
      ¬['/', '/'] <:+: words ∧ (m.comment? ≠ none → m.gap = [] → words.getLast? ≠ some '/'))
    ⟨fun ⟨h, hi, hg, hf, ha⟩ ↦ ⟨h, hi, hg, hf, ha⟩, fun ⟨h, hi, hg, hf, ha⟩ ↦ ⟨h, hi, hg, hf, ha⟩⟩

theorem Fits.content_around (h : m.Fits words) (hs : Solid words) :
    content (m.around words) = words := by
  have hne {cs : List Char} (hb : AllBlank cs) : ∀ c ∈ cs, c ≠ '/' := by
    rintro c hc rfl
    exact absurd (hb _ hc) (by decide)
  have hcomment :
      Text.beforeList ['/', '/'] (m.gap ++ m.comment?.elim [] (['/', '/'] ++ ·)) = m.gap := by
    rw [Text.beforeList_append_of_ne (hne h.gap)]
    cases m.comment? <;> exact List.append_nil _
  have hends : words.getLast? = some '/' →
      (m.gap ++ m.comment?.elim [] (['/', '/'] ++ ·)).head? ≠ some '/' := by
    intro hl
    cases hg : m.gap with
    | cons c gap =>
      have hc := hne h.gap c (by simp [hg])
      simpa using hc
    | nil =>
      cases hc : m.comment? with
      | none => simp
      | some comment => exact absurd hl (h.apart (by simp [hc]) hg)
  rw [content, around, List.append_assoc, List.append_assoc,
    Text.beforeList_append_of_ne (hne h.indent), Text.beforeList_append_of_free h.free hends,
    hcomment, Text.trimList_blank_append h.indent, Text.trimList_append_blank h.gap, hs.trimList_eq]

end Margin

/-! ### Parts -/

/-- A part of the text: a line without words, a directive on its own line, or a block of entries,
those without words included. -/
inductive Part where
  | silent (margin : Margin)
  | line (margin : Margin) (directive blanks entry : List Char)
  | block (opening : Margin) (directive blanks : List Char) (entries : List (Margin × List Char))
    (closing : Margin)

/-- A word without blanks. -/
def IsWord (word : List Char) : Prop := word ≠ [] ∧ ∀ c ∈ word, Text.isBlank c = false

instance : DecidablePred IsWord := fun word ↦
  decidable_of_iff (word ≠ [] ∧ word.all (!Text.isBlank ·)) (by simp [IsWord])

namespace Part

def lines : Part → List (List Char)
  | silent margin => [margin.around []]
  | line margin directive blanks entry => [margin.around (directive ++ blanks ++ entry)]
  | block opening directive blanks entries closing =>
    opening.around (directive ++ blanks ++ ['(']) ::
      (entries.map fun e ↦ e.1.around e.2) ++ [closing.around [')']]

/-- The directives with their entries. -/
def pairs : Part → List (List Char × List Char)
  | silent _ => []
  | line _ directive _ entry => [(directive, entry)]
  | block _ directive _ entries _ =>
    ((entries.map (·.2)).filter (!·.isEmpty)).map (directive, ·)

/-- The entries of a block, each on a line of its own behind the directive. -/
def spread : Part → List Part
  | block _ directive blanks entries _ => entries.map fun e ↦
    if e.2 = [] then silent e.1 else line e.1 directive blanks e.2
  | part => [part]

/-- The part is read as what it is. An entry has no blanks at its ends. A parenthesis opens a block
if it is all that stands behind a directive and the blanks after it, and closes the block if it is
all that stands on the line. The module is not in a block. -/
inductive Sound : Part → Prop
  | silent {margin : Margin} : margin.Fits [] → Sound (silent margin)
  | line {margin : Margin} {directive blanks entry : List Char} :
    margin.Fits (directive ++ blanks ++ entry) → IsWord directive → AllBlank blanks →
    (blanks = [] ↔ entry = []) → Solid entry → entry ≠ ['('] →
    Sound (line margin directive blanks entry)
  | block {opening closing : Margin} {directive blanks : List Char}
    {entries : List (Margin × List Char)} :
    opening.Fits (directive ++ blanks ++ ['(']) → closing.Fits [')'] → IsWord directive →
    directive ≠ "module".toList → AllBlank blanks → blanks ≠ [] →
    (∀ e ∈ entries, e.1.Fits e.2 ∧ Solid e.2 ∧ e.2 ≠ [')']) →
    Sound (block opening directive blanks entries closing)

end Part

instance : (part : Part) → Decidable part.Sound
  | .silent margin => decidable_of_iff (margin.Fits []) ⟨.silent, fun | .silent h => h⟩
  | .line margin directive blanks entry =>
    decidable_of_iff (margin.Fits (directive ++ blanks ++ entry) ∧ IsWord directive ∧
        AllBlank blanks ∧ (blanks = [] ↔ entry = []) ∧ Solid entry ∧ entry ≠ ['('])
      ⟨fun ⟨h, hd, hb, hn, he, ho⟩ ↦ .line h hd hb hn he ho,
        fun | .line h hd hb hn he ho => ⟨h, hd, hb, hn, he, ho⟩⟩
  | .block opening directive blanks entries closing =>
    decidable_of_iff (opening.Fits (directive ++ blanks ++ ['(']) ∧ closing.Fits [')'] ∧
        IsWord directive ∧ directive ≠ "module".toList ∧ AllBlank blanks ∧ blanks ≠ [] ∧
        ∀ e ∈ entries, e.1.Fits e.2 ∧ Solid e.2 ∧ e.2 ≠ [')'])
      ⟨fun ⟨ho, hc, hd, hm, hb, hn, he⟩ ↦ .block ho hc hd hm hb hn he,
        fun | .block ho hc hd hm hb hn he => ⟨ho, hc, hd, hm, hb, hn, he⟩⟩

theorem Part.Sound.oneLine {part : Part} (h : part.Sound) : ∀ line ∈ part.lines, '\n' ∉ line := by
  intro l hl
  cases h with
  | silent hm => exact List.mem_singleton.mp hl ▸ hm.oneLine
  | line hm => exact List.mem_singleton.mp hl ▸ hm.oneLine
  | block ho hc _ _ _ _ hentries =>
    simp only [Part.lines, List.cons_append, List.mem_cons, List.mem_append, List.mem_map,
      List.not_mem_nil, or_false] at hl
    obtain rfl | ⟨e, he, rfl⟩ | rfl := hl
    · exact ho.oneLine
    · exact (hentries e he).1.oneLine
    · exact hc.oneLine

/-- The text consists of the lines of its parts. -/
def Consists (text : String) (parts : List Part) : Prop :=
  text.toList = ['\n'].intercalate (parts.flatMap Part.lines)

/-- The directives that say where modules are. -/
def isLocating (directive : List Char) : Bool :=
  directive == "module".toList || isBlockDirective directive

/-- The directives that count, with their entries, in their order. -/
def said (parts : List Part) : List (List Char × List Char) :=
  (parts.flatMap Part.pairs).filter (isLocating ·.1)

theorem said_spread (parts : List Part) : said (parts.flatMap Part.spread) = said parts := by
  rw [said, said, List.flatMap_assoc]
  congr 2
  funext part
  cases part with
  | silent margin => rfl
  | line margin directive blanks entry => rfl
  | block opening directive blanks entries closing =>
    rw [Part.spread, Part.pairs]
    induction entries with
    | nil => rfl
    | cons e entries ih =>
      rw [List.map_cons, List.flatMap_cons, ih, List.map_cons]
      by_cases he : e.2 = [] <;> simp [he, Part.pairs]

/-! ### Reading the parts -/

section

variable (hd : IsWord directive) (hn : blanks = [] ↔ entry = []) (he : Solid entry)

include hd hn he

theorem solid_append : Solid (directive ++ blanks ++ entry) := by
  by_cases hempty : entry = []
  · rw [hempty, hn.mpr hempty, List.append_nil, List.append_nil]
    rintro c (hc | hc)
    · exact hd.2 c (List.mem_of_mem_head? hc)
    · exact hd.2 c (List.mem_of_mem_getLast? hc)
  · rintro c (hc | hc)
    · rw [List.append_assoc, List.head?_append_of_ne_nil _ hd.1] at hc
      exact hd.2 c (List.mem_of_mem_head? hc)
    · rw [List.getLast?_append_of_ne_nil _ hempty] at hc
      exact he c (.inr hc)

variable (hb : AllBlank blanks)

include hb

theorem directiveOf_append : directiveOf (directive ++ blanks ++ entry) = (directive, entry) := by
  have hword : (directive ++ blanks ++ entry).takeWhile (!Text.isBlank ·) = directive := by
    rw [List.append_assoc, List.takeWhile_append_of_pos (by simpa using hd.2)]
    cases hblanks : blanks with
    | nil => simp [hn.mp hblanks]
    | cons c blanks =>
      have hc := hb c (by simp [hblanks])
      simp [hc]
  rw [directiveOf, hword, List.append_assoc, List.drop_left, Text.trimList_blank_append hb,
    he.trimList_eq]

theorem entriesFrom_directive (rest : List (List Char)) :
    entriesFrom none ((directive ++ blanks ++ entry) :: rest) =
      if entry = ['('] then entriesFrom (some directive) rest
      else (directive, entry) :: entriesFrom none rest := by
  rw [entriesFrom, if_neg (by simp [hd.1])]
  simp only [directiveOf_append hd hn he hb]

end

/-- The entries of a block, up to its end. -/
theorem entriesFrom_block {entries : List (List Char)} (hn : ∀ e ∈ entries, e ≠ [')'])
    (directive : List Char) (rest : List (List Char)) :
    entriesFrom (some directive) (entries ++ [')'] :: rest) =
      (if isBlockDirective directive then (entries.filter (!·.isEmpty)).map (directive, ·)
        else []) ++ entriesFrom none rest := by
  induction entries with
  | nil => simp [entriesFrom]
  | cons e entries ih =>
    rw [List.forall_mem_cons] at hn
    rw [List.cons_append, entriesFrom, ih hn.2]
    by_cases he : e.isEmpty <;> by_cases hd : isBlockDirective directive <;> simp [he, hd, hn.1]

theorem solid_parenthesis : Solid ['('] ∧ Solid [')'] := by
  constructor <;> rintro c (hc | hc) <;> cases hc <;> decide

/-- Without margins the lines of a block are its directive, its entries and the end. -/
theorem content_block {opening closing : Margin} {directive blanks : List Char}
    {entries : List (Margin × List Char)} (ho : opening.Fits (directive ++ blanks ++ ['(']))
    (hc : closing.Fits [')']) (hs : Solid (directive ++ blanks ++ ['(']))
    (hentries : ∀ e ∈ entries, e.1.Fits e.2 ∧ Solid e.2) :
    (Part.block opening directive blanks entries closing).lines.map content =
      (directive ++ blanks ++ ['(']) :: (entries.map (·.2) ++ [[')']]) := by
  have hentry : entries.map (content ∘ fun e ↦ e.1.around e.2) = entries.map (·.2) :=
    List.map_congr_left fun e he ↦ (hentries e he).1.content_around (hentries e he).2
  rw [Part.lines, List.map_append, List.map_cons, List.map_singleton, List.map_map, hentry,
    ho.content_around hs, hc.content_around solid_parenthesis.2]
  rfl

/-- What is read from a part, whatever follows it: what it says, apart from directives that do not
count. -/
theorem Part.Sound.exists_read {part : Part} (h : part.Sound) : ∃ read,
    (∀ rest, entriesFrom none (part.lines.map content ++ rest) = read ++ entriesFrom none rest) ∧
    read.filter (isLocating ·.1) = part.pairs.filter (isLocating ·.1) := by
  cases h with
  | silent hm =>
    refine ⟨[], fun rest ↦ ?_, rfl⟩
    rw [Part.lines, List.map_singleton, hm.content_around (fun c hc ↦ by simp at hc)]
    rfl
  | @line margin directive blanks entry hm hd hb hn he hopen =>
    refine ⟨[(directive, entry)], fun rest ↦ ?_, rfl⟩
    rw [Part.lines, List.map_singleton, hm.content_around (solid_append hd hn he),
      List.singleton_append, entriesFrom_directive hd hn he hb, if_neg hopen]
    rfl
  | @block opening closing directive blanks entries ho hc hd hmodule hb hn hentries =>
    have hparen : blanks = [] ↔ ['('] = [] := by simp [hn]
    have hlines := content_block ho hc (solid_append hd hparen solid_parenthesis.1) fun e he ↦
      (hentries e he).imp_right And.left
    have hmembers : ∀ e ∈ entries.map (·.2), e ≠ [')'] := by
      intro e he
      obtain ⟨entry, hm, rfl⟩ := List.mem_map.mp he
      exact (hentries entry hm).2.2
    refine ⟨if isBlockDirective directive then
      ((entries.map (·.2)).filter (!·.isEmpty)).map (directive, ·) else [], fun rest ↦ ?_, ?_⟩
    · rw [hlines, List.cons_append, entriesFrom_directive hd hparen solid_parenthesis.1 hb,
        if_pos rfl, List.append_assoc, List.singleton_append, entriesFrom_block hmembers]
    · rw [Part.pairs]
      split
      · rfl
      · rename_i hblock
        have hlocating : isLocating directive = false := by
          simpa [isLocating, hblock] using hmodule
        rw [List.filter_nil, eq_comm, List.filter_eq_nil_iff]
        intro e he
        obtain ⟨entry, -, rfl⟩ := List.mem_map.mp he
        simp [hlocating]

theorem entriesFrom_parts {parts : List Part} (hs : ∀ part ∈ parts, part.Sound) :
    (entriesFrom none ((parts.flatMap Part.lines).map content)).filter (isLocating ·.1) =
      said parts := by
  induction parts with
  | nil => rfl
  | cons part parts ih =>
    rw [List.forall_mem_cons] at hs
    obtain ⟨read, hread, hfilter⟩ := hs.1.exists_read
    have hsaid : said (part :: parts) = part.pairs.filter (isLocating ·.1) ++ said parts := by
      rw [said, List.flatMap_cons, List.filter_append]
      rfl
    rw [List.flatMap_cons, List.map_append, hread, List.filter_append, hfilter, ih hs.2, hsaid]

theorem entries_parts {parts : List Part} {text : String} (hs : ∀ part ∈ parts, part.Sound)
    (ht : Consists text parts) : (entries text.toList).filter (isLocating ·.1) = said parts := by
  rw [entries_eq, ht]
  by_cases hn : parts.flatMap Part.lines = []
  · rw [← entriesFrom_parts hs, hn]
    rfl
  · rw [Text.splitList_intercalate hn, entriesFrom_parts hs]
    intro line hl
    obtain ⟨part, hm, hl⟩ := List.mem_flatMap.mp hl
    exact (hs part hm).oneLine line hl

/-- The entries of one directive. -/
def entriesOf (directive : String) (said : List (List Char × List Char)) : List (List Char) :=
  said.filterMap fun e ↦ if e.1 = directive.toList then some e.2 else none

theorem entriesOf_concat (name : String) (said : List (List Char × List Char))
    (e : List Char × List Char) : entriesOf name (said ++ [e]) =
      entriesOf name said ++ if e.1 = name.toList then [e.2] else [] := by
  rw [entriesOf, List.filterMap_append, ← entriesOf]
  by_cases h : e.1 = name.toList <;> simp [h]

theorem entriesOf_filter {name : String} (h : isLocating name.toList)
    (said : List (List Char × List Char)) :
    entriesOf name (said.filter (isLocating ·.1)) = entriesOf name said := by
  rw [entriesOf, List.filterMap_filter, entriesOf]
  congr 1
  funext e
  by_cases he : e.1 = name.toList
  · rw [he, if_pos h]
  · simp [he]

/-- Each directive adds to what it is about, and a later module replaces an earlier one. -/
theorem apply_eq (m : GoMod) (e : List Char × List Char) : m.apply e =
    ⟨if e.1 = "module".toList then some (unquoted e.2) else m.module?,
      m.requires ++ if e.1 = "require".toList then (requirement? e.2).toList else [],
      m.replaces ++ if e.1 = "replace".toList then (replacement? e.2).toList else []⟩ := by
  have hmq : "module".toList ≠ "require".toList := by decide
  have hmp : "module".toList ≠ "replace".toList := by decide
  have hqp : "require".toList ≠ "replace".toList := by decide
  obtain ⟨directive, entry⟩ := e
  unfold apply
  dsimp only
  split_ifs <;> simp_all only [List.append_nil, ne_eq, not_true_eq_false]

theorem foldl_apply (said : List (List Char × List Char)) : said.foldl apply empty =
    ⟨(entriesOf "module" said).getLast?.map unquoted,
      (entriesOf "require" said).filterMap requirement?,
      (entriesOf "replace" said).filterMap replacement?⟩ := by
  induction said using List.reverseRecOn with
  | nil => rfl
  | append_singleton said e ih =>
    have hmodule : (if e.1 = "module".toList then some (unquoted e.2)
          else (entriesOf "module" said).getLast?.map unquoted) =
        (entriesOf "module" (said ++ [e])).getLast?.map unquoted := by
      rw [entriesOf_concat]
      split <;> simp
    have hadded {α : Type} (name : String) (read : List Char → Option α) :
        ((entriesOf name said).filterMap read ++
          if e.1 = name.toList then (read e.2).toList else []) =
        (entriesOf name (said ++ [e])).filterMap read := by
      rw [entriesOf_concat, List.filterMap_append]
      split
      · cases hr : read e.2 <;> simp [hr]
      · rfl
    rw [List.foldl_append, List.foldl_cons, List.foldl_nil, ih, apply_eq, hmodule, hadded, hadded]

/-- What a text says about modules is told by its directives and their entries: the last module, and
all that is required and replaced. So it does not matter whether the entries stand in blocks or
each behind its directive, nor how the lines are indented, commented and kept apart. -/
theorem parse_of_parts {parts : List Part} {text : String} (hs : ∀ part ∈ parts, part.Sound)
    (ht : Consists text parts) :
    (parse text).module? = (entriesOf "module" (said parts)).getLast?.map unquoted ∧
    (parse text).requires = (entriesOf "require" (said parts)).filterMap requirement? ∧
    (parse text).replaces = (entriesOf "replace" (said parts)).filterMap replacement? ∧
    said (parts.flatMap Part.spread) = said parts ∧
    ∀ parts' text', (∀ part ∈ parts', part.Sound) → Consists text' parts' →
      said parts' = said parts → ∀ env root,
        Layout.ofGoMod env root (parse text') = Layout.ofGoMod env root (parse text) := by
  have hread {parts : List Part} {text : String} (hs : ∀ part ∈ parts, part.Sound)
      (ht : Consists text parts) : parse text =
      ⟨(entriesOf "module" (said parts)).getLast?.map unquoted,
        (entriesOf "require" (said parts)).filterMap requirement?,
        (entriesOf "replace" (said parts)).filterMap replacement?⟩ := by
    rw [← entries_parts hs ht, entriesOf_filter (by decide), entriesOf_filter (by decide),
      entriesOf_filter (by decide), ← foldl_apply]
    rfl
  have hparse := hread hs ht
  refine ⟨by rw [hparse], by rw [hparse], by rw [hparse], said_spread parts, ?_⟩
  intro parts' text' hs' ht' hsaid env root
  rw [hread hs' ht', hsaid, ← hparse]

/-- Two requirements in a block. -/
def inBlock : List Part :=
  [.line {} "module".toList [' '] "m".toList, .silent {},
    .block {} "require".toList [' ']
      [({ indent := ['\t'], gap := [' '], comment? := some " indirect".toList },
          "a.org/lib v1.0.0".toList),
        ({}, []), ({ indent := ['\t'] }, "a.org/models v1.2.0".toList)] {},
    .silent {}]

def inBlockText : String := Text.join "\n"
  ["module m", "", "require (", "\ta.org/lib v1.0.0 // indirect", "", "\ta.org/models v1.2.0", ")",
    ""]

/-- The same requirements on single lines. -/
def onLines : List Part :=
  [.silent { comment? := some " Where modules are.".toList },
    .line {} "module".toList ['\t'] "m".toList,
    .line {} "require".toList [' ', ' '] "a.org/lib v1.0.0".toList,
    .line { indent := [' '], comment? := some " models".toList } "require".toList [' ']
      "a.org/models v1.2.0".toList]

def onLinesText : String := Text.join "\n"
  ["// Where modules are.", "module\tm", "require  a.org/lib v1.0.0",
    " require a.org/models v1.2.0// models"]

theorem inBlock_onLines :
    (∀ part ∈ inBlock, part.Sound) ∧ (∀ part ∈ onLines, part.Sound) ∧
      Consists inBlockText inBlock ∧ Consists onLinesText onLines ∧
      ∀ env root, Layout.ofGoMod env root (parse onLinesText) =
        Layout.ofGoMod env root (parse inBlockText) := by
  have hblock : ∀ part ∈ inBlock, part.Sound := by decide +kernel
  have hlines : ∀ part ∈ onLines, part.Sound := by decide +kernel
  have hblockText : Consists inBlockText inBlock := by
    unfold Consists
    decide +kernel
  have hlinesText : Consists onLinesText onLines := by
    unfold Consists
    decide +kernel
  obtain ⟨-, -, -, -, hsame⟩ := parse_of_parts hblock hblockText
  exact ⟨hblock, hlines, hblockText, hlinesText,
    hsame onLines onLinesText hlines hlinesText (by decide +kernel)⟩

end GoMod

end GoOpenApi
