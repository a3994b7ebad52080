import GoOpenApi.Proofs.Directive.Block
import Mathlib.Data.List.Chain
import Mathlib.Tactic.MkIffOfInductiveProp

/-!
Directives written as lines `@tg key:value,value` are read back from a block that has these lines in
any order among lines of prose.
-/

namespace GoOpenApi

namespace Text

variable {as bs cs : List Char}

/-- The only blanks of the text are single spaces, none of them at an end. -/
@[mk_iff]
structure SingleSpaced (cs : List Char) : Prop where
  solid : Solid cs
  spaces : ∀ c ∈ cs, isBlank c → c = ' '
  apart : cs.IsChain fun c c' ↦ isBlank c → isBlank c' = false

instance : DecidablePred SingleSpaced := fun cs ↦
  haveI : Decidable (∀ c ∈ cs, isBlank c → c = ' ') := List.decidableBAll _ cs
  decidable_of_iff' _ (singleSpaced_iff cs)

theorem singleSpaced_of_forall (h : ∀ c ∈ cs, isBlank c = false) : SingleSpaced cs where
  solid := solid_of_forall h
  spaces c hc hb := absurd hb (by simp [h c hc])
  apart := by
    refine List.Pairwise.isChain (List.pairwise_of_forall_mem_list fun _ _ c hc _ ↦ ?_)
    exact h c hc

theorem SingleSpaced.append (ha : SingleSpaced as) (hb : SingleSpaced bs) (hna : as ≠ [])
    (hnb : bs ≠ []) : SingleSpaced (as ++ bs) where
  solid := ha.solid.append hb.solid hna hnb
  spaces := List.forall_mem_append.mpr ⟨ha.spaces, hb.spaces⟩
  apart := ha.apart.append hb.apart fun _ _ c' hc' _ ↦ hb.solid c' (.inl hc')

theorem SingleSpaced.intercalate {pieces : List (List Char)}
    (h : ∀ piece ∈ pieces, piece ≠ [] ∧ SingleSpaced piece) :
    SingleSpaced ([','].intercalate pieces) := by
  by_cases hne : pieces = []
  · subst hne
    decide
  · exact (intercalate_of_append (by decide)
      (fun _ _ hna hnb ha hb ↦ ha.append hb hna hnb) hne h).2

/-- Behind a space the text goes on with a word. -/
theorem SingleSpaced.solid_behind (h : SingleSpaced (as ++ ' ' :: bs)) : bs ≠ [] ∧ Solid bs := by
  have hchain := (List.isChain_split.mp h.apart).2
  have hlast {c : Char} (hc : (' ' :: bs).getLast? = some c) : isBlank c = false := by
    refine h.solid c (.inr ?_)
    rwa [List.getLast?_append_of_ne_nil _ (List.cons_ne_nil _ _)]
  have hne : bs ≠ [] := by
    rintro rfl
    exact absurd (hlast rfl) (by decide)
  refine ⟨hne, ?_⟩
  rintro c (hc | hc)
  · obtain ⟨bs', rfl⟩ := List.head?_eq_some_iff.mp hc
    exact (List.isChain_cons_cons.mp hchain).1 (by decide)
  · refine hlast ?_
    rw [← hc, List.getLast?_cons_of_ne_nil hne]

/-- A text without any blank, or a word, a space and the rest. -/
theorem SingleSpaced.cut (h : SingleSpaced cs) : (∀ c ∈ cs, isBlank c = false) ∨
    ∃ as bs, cs = as ++ ' ' :: bs ∧ (∀ c ∈ as, isBlank c = false) ∧ bs ≠ [] ∧ Solid bs := by
  have hsplit := List.takeWhile_append_dropWhile (p := (!isBlank ·)) (l := cs)
  have hbefore : ∀ c ∈ cs.takeWhile (!isBlank ·), isBlank c = false := fun c hc ↦ by
    simpa using List.mem_takeWhile_imp hc
  cases hrest : cs.dropWhile (!isBlank ·) with
  | nil =>
    rw [hrest, List.append_nil] at hsplit
    exact .inl (hsplit ▸ hbefore)
  | cons c bs =>
    have hblank : isBlank c := by
      have hd := List.head?_dropWhile_not (!isBlank ·) cs
      simpa [hrest] using hd
    have hc : c ∈ cs := (List.dropWhile_sublist (!isBlank ·)).subset (by simp [hrest])
    obtain rfl := h.spaces c hc hblank
    rw [hrest] at hsplit
    exact .inr ⟨_, bs, hsplit.symm, hbefore, (hsplit ▸ h).solid_behind⟩

end Text

namespace Directives

open Text (isBlank trimList Solid SingleSpaced)

variable {key cs : List Char} {e : String × List String} {d : Directives}
  {block : List String}

theorem listedValues_intercalate {values : List (List Char)}
    (h : ∀ v ∈ values, v ≠ [] ∧ ',' ∉ v ∧ Solid v) :
    listedValues ([','].intercalate values) = values := by
  by_cases hne : values = []
  · subst hne
    rfl
  · have hsplit := Text.splitList_intercalate hne fun v hv ↦ (h v hv).2.1
    have htrim : values.map trimList = values :=
      (List.map_congr_left fun v hv ↦ (h v hv).2.2.trimList_eq).trans (List.map_id values)
    rw [listedValues, hsplit, htrim, List.filter_eq_self]
    exact fun v hv ↦ by simpa using (h v hv).1

/-- The blanks in a list are put back where the line is cut at the first of them. -/
theorem readLine_listed (hk : ∀ c ∈ key, isBlank c = false) (hc : ':' ∉ key)
    (h : SingleSpaced cs) : readLine (key ++ ':' :: cs) = (key, listedValues cs) := by
  have hword {as : List Char} (ha : ∀ c ∈ as, isBlank c = false) :
      ∀ c ∈ key ++ ':' :: as, isBlank c = false :=
    List.forall_mem_append.mpr ⟨hk, List.forall_mem_cons.mpr ⟨by decide, ha⟩⟩
  have hcut (as : List Char) : Text.cutList (· == ':') (key ++ ':' :: as) = some (key, as) :=
    Text.cutList_eq_some_iff.mpr ⟨rfl, hc⟩
  rcases h.cut with hall | ⟨as, bs, rfl, ha, hne, hs⟩
  · have hread := @readLine_append (key ++ ':' :: cs) [] (hword hall) (by simp)
    rw [hcut, List.append_nil] at hread
    exact hread
  · have hread := @readLine_append (key ++ ':' :: as) (' ' :: bs) (hword ha) fun c hb ↦ by
      cases hb
      decide
    rw [hcut, Text.trimList_space_cons, hs.trimList_eq, List.append_assoc] at hread
    simpa [hne] using hread

/-! ### Writing directives -/

/-- An entry for a line: a key that is a word without colons, and values that have no commas and
no blanks but single spaces between their words. -/
@[mk_iff]
structure Writable (e : String × List String) : Prop where
  nonempty : e.1 ≠ ""
  key : ∀ c ∈ e.1.toList, isBlank c = false ∧ c ≠ ':'
  values : ∀ v ∈ e.2, v ≠ "" ∧ ',' ∉ v.toList ∧ SingleSpaced v.toList

instance : DecidablePred Writable := fun e ↦
  haveI : Decidable (∀ c ∈ e.1.toList, isBlank c = false ∧ c ≠ ':') := List.decidableBAll _ _
  decidable_of_iff' _ (writable_iff e)

/-- The line `@tg key:value,value` of an entry. -/
def line (e : String × List String) : String := "@tg " ++ e.1 ++ ":" ++ Text.join "," e.2

/-- The lines that begin with the marker are those of the entries, in any order. All others are
prose. -/
def WrittenIn (d : Directives) (block : List String) : Prop :=
  (block.filter fun line ↦ marker.isPrefixOf (trimList line.toList)).Perm (d.map line)

/-- What the line of an entry says after the marker. -/
def lineChars (e : String × List String) : List Char :=
  e.1.toList ++ ':' :: [','].intercalate (e.2.map String.toList)

theorem toList_line (e : String × List String) :
    (line e).toList = marker ++ ' ' :: lineChars e := by
  have hj : (Text.join "," e.2).toList = [','].intercalate (e.2.map String.toList) :=
    String.toList_intercalate
  simp [line, lineChars, marker, hj]

theorem Writable.singleSpaced (h : Writable e) :
    SingleSpaced ([','].intercalate (e.2.map String.toList)) := by
  refine SingleSpaced.intercalate fun piece hp ↦ ?_
  obtain ⟨v, hv, rfl⟩ := List.mem_map.mp hp
  obtain ⟨hne, -, hs⟩ := h.values v hv
  exact ⟨by simpa using hne, hs⟩

theorem Writable.entry_lineChars (h : Writable e) : entry (lineChars e) = e := by
  have hread := readLine_listed (fun c hc ↦ (h.key c hc).1) (fun hc ↦ (h.key _ hc).2 rfl)
    h.singleSpaced
  rw [listedValues_intercalate fun piece hp ↦ ?_] at hread
  · rw [entry, lineChars, hread]
    simp
  · obtain ⟨v, hv, rfl⟩ := List.mem_map.mp hp
    obtain ⟨hne, hcomma, hs⟩ := h.values v hv
    exact ⟨by simpa using hne, hcomma, hs.solid⟩

theorem Writable.solid_lineChars (h : Writable e) : Solid (lineChars e) := by
  have hkey : Solid e.1.toList := Text.solid_of_forall fun c hc ↦ (h.key c hc).1
  have hcolon : Solid [':'] := by decide
  have hbehind : Solid (':' :: [','].intercalate (e.2.map String.toList)) := by
    by_cases hne : [','].intercalate (e.2.map String.toList) = []
    · rwa [hne]
    · exact hcolon.append h.singleSpaced.solid (by simp) hne
  exact hkey.append hbehind (by simpa using h.nonempty) (List.cons_ne_nil _ _)

theorem Writable.markedRest_line (h : Writable e) :
    markedRest (line e).toList = some (lineChars e) := by
  have hread := @markedRest_of_blank [] (' ' :: lineChars e) (by simp [Text.AllBlank])
    (by simp [isBlank])
  rwa [List.nil_append, ← toList_line, Text.trimList_space_cons,
    h.solid_lineChars.trimList_eq] at hread

/-- What a line of a block with marked lines gives. -/
def entryOfLine? (line : String) : Option (String × List String) :=
  ((markedRest line.toList).filter (!·.isEmpty)).map entry

theorem map_entry_said (block : List String) :
    (said true (block.map String.toList)).map entry = block.filterMap entryOfLine? := by
  rw [said, if_pos rfl, List.filterMap_map, List.filter_filterMap, List.map_filterMap]
  rfl

theorem Writable.entryOfLine?_line (h : Writable e) : entryOfLine? (line e) = some e := by
  have hne : lineChars e ≠ [] := by simp [lineChars]
  simp [entryOfLine?, h.markedRest_line, hne, h.entry_lineChars]

theorem entryOfLine?_of_prose {text : String}
    (h : ¬marker.isPrefixOf (trimList text.toList)) : entryOfLine? text = none := by
  have hd : Text.dropHead marker (trimList text.toList) = none := if_neg h
  rw [entryOfLine?, markedRest, hd]
  rfl

/-- Directives are read back from a block that has their lines. -/
theorem parse_of_writtenIn (hd : d.Ordered) (hne : d ≠ []) (h : ∀ e ∈ d, Writable e)
    (hw : d.WrittenIn block) : parse block = d := by
  have hmarked : HasMarked block := by
    obtain ⟨e, he⟩ := List.exists_mem_of_ne_nil d hne
    have hl := (List.mem_filter.mp (hw.mem_iff.mpr (List.mem_map_of_mem he))).1
    exact ⟨line e, hl, marked_of_markedRest (by rw [(h e he).markedRest_line]; rfl)⟩
  have hprose : block.filterMap entryOfLine? =
      (block.filter fun line ↦ marker.isPrefixOf (trimList line.toList)).filterMap
        entryOfLine? := by
    rw [List.filterMap_filter]
    refine List.filterMap_congr fun line _ ↦ ?_
    split
    · rfl
    · rename_i hp
      exact entryOfLine?_of_prose hp
  have hlines : (d.map line).filterMap entryOfLine? = d := by
    rw [List.filterMap_map]
    exact (List.filterMap_congr fun e he ↦ (h e he).entryOfLine?_line).trans List.filterMap_some
  have hp := hw.filterMap entryOfLine?
  rw [← hprose, hlines] at hp
  rw [parse_eq (iff_of_true hmarked rfl), map_entry_said, hd.ofList_of_perm hp]

/-- Keys and values that look like other things a line can say. -/
def notedDirectives : Directives :=
  [("@tg", ["a:b", "see https://a.b/c d"]), ("http-path", ["/users/:id"]), ("trace", [])]

def notedLines : List String :=
  ["Users of the shop (see @tg below).", "@tg trace:", "", "@tg @tg:a:b,see https://a.b/c d",
    "  http-path:/other @tg", "@tg http-path:/users/:id"]

theorem notedLines_parse : notedDirectives.Ordered ∧ (∀ e ∈ notedDirectives, Writable e) ∧
    notedDirectives.WrittenIn notedLines ∧ parse notedLines = notedDirectives := by
  have hd : notedDirectives.Ordered := by decide
  have he : ∀ e ∈ notedDirectives, Writable e := by decide
  have hw : notedDirectives.WrittenIn notedLines := by
    unfold WrittenIn
    decide
  exact ⟨hd, he, hw, parse_of_writtenIn hd (by decide) he hw⟩

end Directives

end GoOpenApi
