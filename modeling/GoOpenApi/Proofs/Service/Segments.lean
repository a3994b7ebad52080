import GoOpenApi.Proofs.Text.Split
import GoOpenApi.Service.Route

/-!
Paths by their segments. A joined path has the segments of its parts and is in normal form; a
document writes every segment in its place, with the same parameter.
-/

namespace GoOpenApi.Route

variable {path segment piece : List Char} {pieces parts parts' : List (List Char)}

/-- The segments that are not empty. -/
def filled (path : List Char) : List (List Char) := (segments path).filter (!·.isEmpty)

/-- A slash, and then no empty segment unless this is all. -/
def IsNormal (path : List Char) : Prop :=
  ∃ rest, path = '/' :: rest ∧ (rest = [] ∨ [] ∉ segments rest)

theorem segments_slash (path : List Char) : segments ('/' :: path) = [] :: segments path :=
  Text.splitList_of_sep (p := (· == '/')) (by simp) path

theorem slash_not_mem_of_segments (h : segment ∈ segments path) : '/' ∉ segment := by
  intro hc
  exact Text.not_sep_of_mem_splitList h '/' hc (by simp)

theorem mem_filled : segment ∈ filled path ↔ segment ∈ segments path ∧ segment ≠ [] := by
  simp [filled]

theorem filled_of_none (hs : '/' ∉ path) (hn : path ≠ []) : filled path = [path] := by
  have hp : segments path = [path] :=
    Text.splitList_of_none fun c hc he ↦ hs (beq_iff_eq.mp he ▸ hc)
  rw [filled, hp]
  exact List.filter_cons_of_pos (by simpa using hn)

/-- Pieces between slashes are cut apart again; no pieces are one empty segment. -/
theorem segments_intercalate (h : ∀ piece ∈ pieces, '/' ∉ piece) :
    segments (['/'].intercalate pieces) = if pieces = [] then [[]] else pieces := by
  split
  · rename_i hn
    rw [hn]
    rfl
  · rename_i hn
    exact Text.splitList_intercalate hn h

/-! ### Joined paths -/

theorem joinList_eq (parts : List (List Char)) :
    joinList parts = '/' :: ['/'].intercalate (parts.flatMap filled) := by
  rw [joinList, List.filter_flatMap]
  rfl

theorem joinList_congr (h : parts.flatMap filled = parts'.flatMap filled) :
    joinList parts = joinList parts' := by
  rw [joinList_eq, joinList_eq, h]

theorem mem_flatMap_filled (h : piece ∈ parts.flatMap filled) : piece ≠ [] ∧ '/' ∉ piece := by
  obtain ⟨part, -, h⟩ := List.mem_flatMap.mp h
  obtain ⟨hs, hn⟩ := mem_filled.mp h
  exact ⟨hn, slash_not_mem_of_segments hs⟩

theorem segments_joined (parts : List (List Char)) :
    segments (['/'].intercalate (parts.flatMap filled)) =
      if parts.flatMap filled = [] then [[]] else parts.flatMap filled :=
  segments_intercalate fun _ h ↦ (mem_flatMap_filled h).2

theorem filled_joinList (parts : List (List Char)) :
    filled (joinList parts) = parts.flatMap filled := by
  rw [joinList_eq, filled, segments_slash, segments_joined, List.filter_cons_of_neg (by simp)]
  split
  · rename_i hn
    rw [hn]
    rfl
  · apply List.filter_eq_self.mpr
    intro piece hm
    simpa using (mem_flatMap_filled hm).1

theorem isNormal_joinList (parts : List (List Char)) : IsNormal (joinList parts) := by
  refine ⟨_, joinList_eq parts, ?_⟩
  by_cases hn : parts.flatMap filled = []
  · left
    rw [hn]
    rfl
  · right
    rw [segments_joined, if_neg hn]
    intro hm
    exact (mem_flatMap_filled hm).1 rfl

theorem joinList_cons (parts rest : List (List Char)) :
    joinList (joinList parts :: rest) = joinList (parts ++ rest) := by
  apply joinList_congr
  rw [List.flatMap_cons, filled_joinList, List.flatMap_append]

theorem joinList_append (parts parts' : List (List Char)) :
    joinList [joinList parts, joinList parts'] = joinList (parts ++ parts') := by
  apply joinList_congr
  rw [List.flatMap_cons, List.flatMap_singleton, filled_joinList, filled_joinList,
    List.flatMap_append]

theorem intercalate_isPrefix (sep : List Char) (pieces pieces' : List (List Char)) :
    sep.intercalate pieces <+: sep.intercalate (pieces ++ pieces') := by
  induction pieces with
  | nil => exact List.nil_prefix
  | cons piece pieces ih =>
    cases pieces with
    | nil =>
      cases pieces' with
      | nil => exact List.prefix_rfl
      | cons next pieces' =>
        rw [List.intercalate_singleton, List.singleton_append, List.intercalate_cons_cons,
          List.append_assoc]
        exact List.prefix_append _ _
    | cons next pieces =>
      rw [List.cons_append, List.cons_append, List.intercalate_cons_cons,
        List.intercalate_cons_cons, ← List.cons_append]
      exact (List.prefix_append_right_inj _).mpr ih

theorem joinList_isPrefix (parts parts' : List (List Char)) :
    joinList parts <+: joinList (parts ++ parts') := by
  rw [joinList_eq, joinList_eq, List.flatMap_append]
  exact List.cons_prefix_cons.mpr ⟨rfl, intercalate_isPrefix _ _ _⟩

/-! ### Paths as documents write them -/

theorem documentedSegment_cases (segment : List Char) :
    (∃ name, segment = ':' :: name ∧ documentedSegment segment = '\x7b' :: (name ++ ['\x7d'])) ∨
      segment.head? ≠ some ':' ∧ documentedSegment segment = segment := by
  by_cases h : segment.head? = some ':'
  · left
    obtain ⟨name, rfl⟩ := List.head?_eq_some_iff.mp h
    exact ⟨name, rfl, rfl⟩
  · right
    refine ⟨h, ?_⟩
    unfold documentedSegment
    split
    · exact absurd rfl h
    · rfl

theorem segmentParam?_documentedSegment (segment : List Char) :
    segmentParam? (documentedSegment segment) = segmentParam? segment := by
  obtain ⟨name, rfl, hd⟩ | ⟨-, hd⟩ := documentedSegment_cases segment <;> rw [hd]
  simp [segmentParam?]

theorem documentedSegment_ne_nil (h : segment ≠ []) : documentedSegment segment ≠ [] := by
  obtain ⟨name, -, hd⟩ | ⟨-, hd⟩ := documentedSegment_cases segment <;> rw [hd]
  · exact List.cons_ne_nil _ _
  · exact h

theorem head?_documentedSegment (segment : List Char) :
    (documentedSegment segment).head? ≠ some ':' := by
  obtain ⟨name, -, hd⟩ | ⟨hs, hd⟩ := documentedSegment_cases segment <;> rw [hd]
  · simp
  · exact hs

theorem documentedSegment_of_head? (h : segment.head? ≠ some ':') :
    documentedSegment segment = segment := by
  obtain ⟨name, rfl, -⟩ | ⟨-, hd⟩ := documentedSegment_cases segment
  · exact absurd rfl h
  · exact hd

theorem slash_not_mem_documentedSegment (h : '/' ∉ segment) : '/' ∉ documentedSegment segment := by
  obtain ⟨name, rfl, hd⟩ | ⟨-, hd⟩ := documentedSegment_cases segment <;> rw [hd]
  · simpa using h
  · exact h

theorem segments_documentedList (path : List Char) :
    segments (documentedList path) = (segments path).map documentedSegment := by
  have hn : segments path ≠ [] := Text.splitList_ne_nil _ path
  rw [documentedList, segments_intercalate, if_neg (by simpa using hn)]
  intro piece h
  obtain ⟨segment, hs, rfl⟩ := List.mem_map.mp h
  exact slash_not_mem_documentedSegment (slash_not_mem_of_segments hs)

theorem head?_of_documented (h : segment ∈ segments (documentedList path)) :
    segment.head? ≠ some ':' := by
  rw [segments_documentedList] at h
  obtain ⟨written, -, rfl⟩ := List.mem_map.mp h
  exact head?_documentedSegment written

theorem paramsList_documentedList (path : List Char) :
    paramsList (documentedList path) = paramsList path := by
  have hp : segmentParam? ∘ documentedSegment = segmentParam? := by
    funext segment
    exact segmentParam?_documentedSegment segment
  rw [paramsList, segments_documentedList, List.filterMap_map, hp, paramsList]

theorem documentedList_documentedList (path : List Char) :
    documentedList (documentedList path) = documentedList path := by
  have hs : (segments (documentedList path)).map documentedSegment =
      (segments (documentedList path)).map id := by
    apply List.map_congr_left
    intro segment h
    exact documentedSegment_of_head? (head?_of_documented h)
  rw [documentedList, hs, List.map_id]
  exact Text.intercalate_splitList '/' _

theorem documentedList_slash (path : List Char) :
    documentedList ('/' :: path) = '/' :: documentedList path := by
  obtain ⟨first, rest, hp⟩ := Text.splitList_eq_cons (· == '/') path
  rw [documentedList, segments_slash, documentedList]
  unfold segments
  rw [hp]
  rfl

theorem IsNormal.documentedList (h : IsNormal path) : IsNormal (documentedList path) := by
  obtain ⟨rest, rfl, hr⟩ := h
  refine ⟨_, documentedList_slash rest, ?_⟩
  rcases hr with rfl | hr
  · left
    rfl
  · right
    rw [segments_documentedList]
    intro hm
    obtain ⟨segment, hs, hd⟩ := List.mem_map.mp hm
    have hn : segment = [] := by
      by_contra hn
      exact documentedSegment_ne_nil hn hd
    exact hr (hn ▸ hs)

/-! ### Texts -/

theorem toList_join (parts : List String) :
    (join parts).toList = joinList (parts.map String.toList) := String.toList_ofList

theorem join_cons (parts rest : List String) : join (join parts :: rest) = join (parts ++ rest) := by
  apply String.toList_injective
  rw [toList_join, toList_join, List.map_cons, toList_join, List.map_append]
  exact joinList_cons _ _

theorem join_append (parts parts' : List String) :
    join [join parts, join parts'] = join (parts ++ parts') := by
  apply String.toList_injective
  rw [toList_join, toList_join, List.map_cons, List.map_singleton, toList_join, toList_join,
    List.map_append]
  exact joinList_append _ _

theorem join_isPrefix (parts parts' : List String) :
    (join parts).toList <+: (join (parts ++ parts')).toList := by
  rw [toList_join, toList_join, List.map_append]
  exact joinList_isPrefix _ _

section

variable {last last' : String} (hs : '/' ∉ last.toList) (hn : last ≠ "")

include hs hn

/-- A last part without slashes is one segment. -/
theorem filled_join_concat (parts : List String) :
    filled (join (parts ++ [last])).toList =
      filled (join parts).toList ++ [last.toList] := by
  rw [toList_join, toList_join, filled_joinList, filled_joinList, List.map_append,
    List.flatMap_append, List.map_singleton, List.flatMap_singleton,
    filled_of_none hs (by simpa using hn)]

theorem join_concat_ne (parts : List String) : join (parts ++ [last]) ≠ join parts := by
  intro h
  have hf := filled_join_concat hs hn parts
  rw [h] at hf
  exact List.cons_ne_nil _ _ (List.append_right_eq_self.mp hf.symm)

theorem join_concat_inj {parts : List String} (hs' : '/' ∉ last'.toList) (hn' : last' ≠ "") :
    join (parts ++ [last]) = join (parts ++ [last']) ↔ last = last' := by
  constructor
  · intro h
    have hf := filled_join_concat hs hn parts
    rw [h, filled_join_concat hs' hn' parts] at hf
    exact String.toList_injective (List.singleton_inj.mp (List.append_cancel_left hf)).symm
  · intro h
    rw [h]

end

theorem isNormal_join (parts : List String) : IsNormal (join parts).toList := by
  rw [toList_join]
  exact isNormal_joinList _

theorem toList_documented (path : String) :
    (documented path).toList = documentedList path.toList := String.toList_ofList

theorem params_documented (path : String) : params (documented path) = params path := by
  rw [params, params, toList_documented, paramsList_documentedList]

theorem documented_documented (path : String) : documented (documented path) = documented path := by
  apply String.toList_injective
  rw [toList_documented, toList_documented, documentedList_documentedList]

end GoOpenApi.Route
