import GoOpenApi.Proofs.Directive

/-!
Blocks of lines. The other lines of a block matter to a line only through whether one of them is
marked. Two blocks that agree in this are read one after the other; of two that do not, only the
one with marked lines is read.
-/

namespace GoOpenApi

namespace Directives

open Text (AllBlank isBlank trimList dropEndWhile)

variable {line : List Char} {block a b : List String}

/-- Up to blanks the line begins with the marker as a word of its own. -/
def Marked (line : List Char) : Prop :=
  ∃ blanks rest, line = blanks ++ (marker ++ rest) ∧ AllBlank blanks ∧
    ∀ c, rest.head? = some c → isBlank c

/-- Some line of the block is marked. -/
def HasMarked (block : List String) : Prop := ∃ line ∈ block, Marked line.toList

theorem solid_marker : Text.Solid marker := by decide

theorem markedRest_of_blank {blanks rest : List Char} (hb : AllBlank blanks)
    (hr : ∀ c, rest.head? = some c → isBlank c) :
    markedRest (blanks ++ (marker ++ rest)) = some (trimList rest) := by
  have htrim : trimList (blanks ++ (marker ++ rest)) = marker ++ dropEndWhile isBlank rest := by
    rw [Text.trimList_blank_append hb, solid_marker.trimList_append (by decide)]
  rw [markedRest, htrim, Text.dropHead_eq_some_iff.mpr rfl, ← Text.trimList_dropEndWhile rest]
  obtain ⟨bs, -, he⟩ := Text.exists_eq_dropEndWhile_append rest
  generalize dropEndWhile isBlank rest = cs at he
  cases cs with
  | nil => rfl
  | cons c cs => exact if_pos (hr c (by rw [he]; rfl))

theorem marked_of_markedRest (h : (markedRest line).isSome) : Marked line := by
  obtain ⟨as, bs, ha, hb, he⟩ := Text.padded_trimList line
  unfold markedRest at h
  split at h
  · rename_i hd
    rw [Text.dropHead_eq_some_iff, List.append_nil] at hd
    refine ⟨as, bs, by rw [he, hd, List.append_assoc], ha, fun c hc ↦ hb c ?_⟩
    exact List.mem_of_mem_head? hc
  · rename_i c cs hd
    rw [Text.dropHead_eq_some_iff] at hd
    split at h
    · rename_i hblank
      refine ⟨as, c :: cs ++ bs, by rw [he, hd]; simp, ha, ?_⟩
      rintro _ ⟨⟩
      exact hblank
    · cases h
  · cases h

theorem markedRest_isSome_iff : (markedRest line).isSome ↔ Marked line := by
  refine ⟨marked_of_markedRest, ?_⟩
  rintro ⟨blanks, rest, rfl, hb, hr⟩
  rw [markedRest_of_blank hb hr]
  rfl

theorem any_markedRest (block : List String) :
    ((block.map String.toList).any fun line ↦ (markedRest line).isSome) ↔ HasMarked block := by
  simp only [List.any_map, List.any_eq_true, Function.comp_apply, markedRest_isSome_iff]
  rfl

instance : DecidablePred HasMarked := fun block ↦ decidable_of_iff _ (any_markedRest block)

/-- What lines say in a block with or without marked lines. -/
def said (marked : Bool) (lines : List (List Char)) : List (List Char) :=
  (if marked then lines.filterMap markedRest else lines.map trimList).filter (!·.isEmpty)

theorem said_append (marked : Bool) (a b : List (List Char)) :
    said marked (a ++ b) = said marked a ++ said marked b := by
  cases marked <;> simp [said]

theorem said_true_of_unmarked (h : ¬HasMarked block) :
    said true (block.map String.toList) = [] := by
  have hn : (block.map String.toList).filterMap markedRest = [] := by
    refine List.filterMap_eq_nil_iff.mpr fun line hl ↦ ?_
    obtain ⟨text, ht, rfl⟩ := List.mem_map.mp hl
    exact Option.not_isSome_iff_eq_none.mp fun hm ↦ h ⟨text, ht, marked_of_markedRest hm⟩
  rw [said, if_pos rfl, hn]
  rfl

theorem directiveLines_eq {marked : Bool} (h : HasMarked block ↔ marked) :
    directiveLines (block.map String.toList) = said marked (block.map String.toList) := by
  have hany := (any_markedRest block).trans h
  rw [Bool.coe_iff_coe] at hany
  rw [← hany]
  rfl

theorem parse_eq {marked : Bool} (h : HasMarked block ↔ marked) :
    parse block = Dict.ofList ((said marked (block.map String.toList)).map entry) := by
  rw [parse, parseLists, directiveLines_eq h]

theorem hasMarked_append : HasMarked (a ++ b) ↔ HasMarked a ∨ HasMarked b := by
  simp only [HasMarked, List.mem_append, or_and_right, exists_or]

/-- The entries of pairs and then of others are those of the first with the others laid over. -/
theorem ofList_append (es es' : List (String × List String)) :
    Dict.ofList (es ++ es') = merge (Dict.ofList es) (Dict.ofList es') := by
  have ho := Dict.ordered_ofList es'
  refine (Dict.ordered_ofList _).ext (ordered_merge (Dict.ordered_ofList es) _) fun key ↦ ?_
  rw [find?_merge ho, Dict.find?_ofList, Dict.find?_ofList, Dict.find?_ofList, List.reverse_append]
  exact List.lookup_append

/-- A block of two parts is read like one part after the other if both have marked lines, or none.
If only one of them has marked lines, the other is prose. -/
theorem parse_append (a b : List String) :
    ((HasMarked a ↔ HasMarked b) → parse (a ++ b) = (parse a).merge (parse b)) ∧
      (HasMarked a → ¬HasMarked b → parse (a ++ b) = parse a) ∧
      (¬HasMarked a → HasMarked b → parse (a ++ b) = parse b) := by
  -- what is said in both parts, once it is known whether lines have to be marked
  have hboth {marked : Bool} (h : HasMarked a ∨ HasMarked b ↔ marked) : parse (a ++ b) =
      Dict.ofList ((said marked (a.map String.toList) ++
        said marked (b.map String.toList)).map entry) := by
    rw [parse_eq (hasMarked_append.trans h), List.map_append, said_append]
  refine ⟨fun h ↦ ?_, fun ha hb ↦ ?_, fun ha hb ↦ ?_⟩
  · have hmarked : HasMarked b ↔ decide (HasMarked b) := decide_eq_true_iff.symm
    rw [hboth ((or_iff_right_of_imp h.mp).trans hmarked), List.map_append, ofList_append,
      parse_eq (h.trans hmarked), parse_eq hmarked]
  · rw [hboth (iff_of_true (.inl ha) rfl), said_true_of_unmarked hb, List.append_nil,
      parse_eq (iff_of_true ha rfl)]
  · rw [hboth (iff_of_true (.inr hb) rfl), said_true_of_unmarked ha, List.nil_append,
      parse_eq (iff_of_true hb rfl)]

def shopLines : List String :=
  ["Users of the shop.", "@tg http-prefix api", " @tg\tswagger-tags:users", "@tg trace"]

def adminLines : List String := ["@tg swagger-tags:admin, staff", "trace off"]

/-- No line is marked, since a marker ends at a blank. -/
def bareLines : List String := ["swagger-tags:guests", "@tgx trace"]

theorem shopLines_append :
    (HasMarked shopLines ∧ HasMarked adminLines ∧
      parse (shopLines ++ adminLines) = (parse shopLines).merge (parse adminLines) ∧
      parse (shopLines ++ adminLines) =
        [("http-prefix", ["api"]), ("swagger-tags", ["admin", "staff"]), ("trace", [])]) ∧
    ¬HasMarked bareLines ∧ parse (shopLines ++ bareLines) = parse shopLines ∧
      parse (bareLines ++ shopLines) = parse shopLines ∧
      parse (bareLines ++ ["trace"]) = (parse bareLines).merge (parse ["trace"]) := by
  have hs : HasMarked shopLines := by decide
  have ha : HasMarked adminLines := by decide
  have hb : ¬HasMarked bareLines := by decide
  exact ⟨⟨hs, ha, (parse_append _ _).1 (iff_of_true hs ha), by decide⟩, hb,
    (parse_append _ _).2.1 hs hb, (parse_append _ _).2.2 hb hs,
    (parse_append _ _).1 (iff_of_false hb (by decide))⟩

end Directives

end GoOpenApi
