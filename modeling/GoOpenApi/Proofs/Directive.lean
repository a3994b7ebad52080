import GoOpenApi.Directive
import GoOpenApi.Proofs.Dict
import GoOpenApi.Proofs.Text.Blank

/-!
How a directive is read, and what directives have: keys in their order and values without blanks at
their ends, also when those of a method are laid over those of its service.
-/

namespace GoOpenApi

namespace Directives

variable {base upper d : Directives}

theorem ordered_parse (lines : List String) : Dict.Ordered (parse lines) := Dict.ordered_ofList _

theorem ordered_merge (h : base.Ordered) (upper : Directives) : (base.merge upper).Ordered :=
  List.foldlRecOn upper _ h fun _ h e _ ↦ h.insert e.1 e.2

/-- The upper directives win. -/
theorem find?_merge (h : upper.Ordered) (base : Directives) (key : String) :
    (base.merge upper).find? key = (upper.find? key).or (base.find? key) := by
  induction upper generalizing base with
  | nil => rfl
  | cons e rest ih =>
    obtain ⟨hlt, hrest⟩ := List.pairwise_cons.mp h
    have hm : merge base (e :: rest) = merge (Dict.insert e.1 e.2 base) rest := rfl
    rw [hm, ih hrest, Dict.find?_insert, Dict.find?_cons]
    by_cases hk : key = e.1
    · have hn : Dict.find? key rest = none := by
        refine Option.eq_none_iff_forall_ne_some.mpr fun values hf ↦ ?_
        exact lt_irrefl e.1 (hk ▸ hlt _ (Dict.mem_of_find? hf))
      rw [if_pos hk, if_pos hk, hn, Option.none_or, Option.some_or]
    · rw [if_neg hk, if_neg hk]

/-- Every value has something in it, and no blanks at its ends. -/
def Tidy (d : Directives) : Prop := ∀ e ∈ d, ∀ v ∈ e.2, v ≠ "" ∧ Text.Solid v.toList

/-- A directive is read word by word: the first, and what follows it. -/
theorem readLine_append {word rest : List Char} (hw : ∀ c ∈ word, Text.isBlank c = false)
    (hr : ∀ c, rest.head? = some c → Text.isBlank c) :
    readLine (word ++ rest) =
      match Text.cutList (· == ':') word with
      | some (key, list) => (key, listedValues
          (if (Text.trimList rest).isEmpty then list else list ++ ' ' :: Text.trimList rest))
      | none => (word, if (Text.trimList rest).isEmpty then [] else [Text.trimList rest]) := by
  have hrest : rest.takeWhile (!Text.isBlank ·) = [] := by
    cases rest with
    | nil => rfl
    | cons c cs => simp [hr c rfl]
  have hhead : (word ++ rest).takeWhile (!Text.isBlank ·) = word := by
    rw [List.takeWhile_append_of_pos (by simpa using hw), hrest, List.append_nil]
  unfold readLine
  cases hcut : Text.cutList (· == ':') word with
  | none => simp only [hhead, List.drop_left, hcut]
  | some parts => simp only [hhead, List.drop_left, hcut]

theorem solid_readLine (line : List Char) :
    ∀ v ∈ (readLine line).2, v ≠ [] ∧ Text.Solid v := by
  intro v hv
  unfold readLine at hv
  dsimp only at hv
  split at hv
  · obtain ⟨hv, hne⟩ := List.mem_filter.mp hv
    obtain ⟨piece, -, rfl⟩ := List.mem_map.mp hv
    exact ⟨by simpa using hne, Text.solid_trimList _⟩
  · split at hv
    · cases hv
    · rename_i hne
      cases List.mem_singleton.mp hv
      exact ⟨by simpa using hne, Text.solid_trimList _⟩

theorem tidy_parse (lines : List String) : Tidy (parse lines) := by
  intro e he v hv
  obtain ⟨line, -, rfl⟩ := List.mem_map.mp (Dict.mem_ofList he)
  obtain ⟨cs, hc, rfl⟩ := List.mem_map.mp hv
  obtain ⟨hne, hs⟩ := solid_readLine line cs hc
  exact ⟨by simpa using hne, by rwa [String.toList_ofList]⟩

theorem Tidy.merge (hb : Tidy base) (hu : Tidy upper) : Tidy (base.merge upper) := by
  refine List.foldlRecOn upper _ hb fun d hd e he entry hm ↦ ?_
  rcases Dict.mem_insert hm with rfl | hm
  · exact hu e he
  · exact hd entry hm

theorem Tidy.trim_value? (h : Tidy d) {key text : String} (ht : d.value? key = some text) :
    Text.trim text = text := by
  obtain ⟨values, hf, rfl⟩ := Option.map_eq_some_iff.mp ht
  have hs : Text.Solid ([','].intercalate (values.map String.toList)) := by
    refine Text.Solid.intercalate fun piece hp ↦ ?_
    obtain ⟨v, hv, rfl⟩ := List.mem_map.mp hp
    obtain ⟨hne, hv⟩ := h _ (Dict.mem_of_find? hf) v hv
    exact ⟨by simpa using hne, hv⟩
  have hj : (Text.join "," values).toList = [','].intercalate (values.map String.toList) :=
    String.toList_intercalate
  exact Text.Solid.trim_eq (hj ▸ hs)

end Directives

end GoOpenApi
