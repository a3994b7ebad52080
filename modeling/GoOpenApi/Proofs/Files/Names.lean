import GoOpenApi.Proofs.Files.Path

/-!
Names of entries in directories. A path ends with such a name, or leads up or to where it starts;
the path of a place has the names on the way there as its components.
-/

namespace GoOpenApi

namespace Path

variable {p : Path} {s : String}

/-- A text that names an entry of a directory: as a path it is one component. -/
def IsName (s : String) : Prop := components ⟨s⟩ = [.name s]

instance (s : String) : Decidable (IsName s) :=
  inferInstanceAs (Decidable (components ⟨s⟩ = [.name s]))

theorem component?_eq_name {first : Bool} {piece : List Char}
    (h : component? first piece = some (.name s)) :
    s.toList = piece ∧ s.toList ∉ [[], ['.'], ['.', '.']] := by
  unfold component? at h
  split at h
  · cases h
  · split at h
    · split at h <;> cases h
    · split at h
      · cases h
      · cases h
        simp_all

theorem component?_of_name (first : Bool) (h : s.toList ∉ [[], ['.'], ['.', '.']]) :
    component? first s.toList = some (.name s) := by
  simp only [List.mem_cons, List.not_mem_nil, or_false, not_or] at h
  simp [component?, h]

theorem component?_ne_root (first : Bool) (piece : List Char) :
    component? first piece ≠ some .root := by
  unfold component?
  split
  · simp
  · split
    · split <;> simp
    · split <;> simp

theorem name_of_mem (h : .name s ∈ p.components) :
    '/' ∉ s.toList ∧ s.toList ∉ [[], ['.'], ['.', '.']] := by
  obtain ⟨first, rest, hp⟩ := Text.splitList_eq_cons (· == '/') p.text.toList
  rw [components_of_pieces hp] at h
  obtain ⟨b, piece, hpiece, hc⟩ :
      ∃ b, ∃ piece ∈ p.pieces, component? b piece = some (.name s) := by
    rw [pieces, hp]
    rcases List.mem_append.mp h with h | h
    · split at h
      · simp at h
      · exact ⟨true, first, List.mem_cons_self, Option.mem_toList.mp h⟩
    · obtain ⟨piece, hm, hc⟩ := List.mem_filterMap.mp h
      exact ⟨false, piece, List.mem_cons_of_mem _ hm, hc⟩
  obtain ⟨rfl, hn⟩ := component?_eq_name hc
  refine ⟨fun hs ↦ ?_, hn⟩
  exact Text.not_sep_of_mem_splitList hpiece '/' hs rfl

theorem pieces_of_name (hs : '/' ∉ s.toList) : pieces ⟨s⟩ = [s.toList] := by
  apply Text.splitList_of_none
  intro c hc he
  exact hs (beq_iff_eq.mp he ▸ hc)

theorem isAbsolute_of_name (hs : '/' ∉ s.toList) : isAbsolute ⟨s⟩ = false := by
  rw [isAbsolute, beq_eq_false_iff_ne]
  intro h
  exact hs (List.mem_of_mem_head? h)

theorem isName_iff : IsName s ↔ '/' ∉ s.toList ∧ s.toList ∉ [[], ['.'], ['.', '.']] := by
  constructor
  · intro h
    apply name_of_mem (p := ⟨s⟩)
    rw [h]
    exact List.mem_singleton_self _
  · rintro ⟨hs, hn⟩
    rw [IsName, components_of_pieces (pieces_of_name hs), isAbsolute_of_name hs]
    simp [component?_of_name true hn]

theorem isName_of_mem (h : .name s ∈ p.components) : IsName s := isName_iff.mpr (name_of_mem h)

theorem IsName.fileName? (h : IsName s) : fileName? ⟨s⟩ = some s := by
  rw [Path.fileName?, h]
  rfl

theorem fileName?_eq_some_iff :
    p.fileName? = some s ↔ ∃ above, p.components = above ++ [.name s] := by
  unfold fileName?
  constructor
  · intro h
    split at h
    · rename_i hl
      cases h
      obtain ⟨above, ha⟩ := List.getLast?_eq_some_iff.mp hl
      exact ⟨above, ha⟩
    · cases h
  · rintro ⟨above, ha⟩
    rw [ha, List.getLast?_append]
    rfl

theorem extension?_of_fileName? (h : p.fileName? = some s) : p.extension? = extension? ⟨s⟩ := by
  obtain ⟨above, ha⟩ := fileName?_eq_some_iff.mp h
  have hs : IsName s := isName_of_mem (p := p) (by simp [ha])
  rw [extension?, extension?, h, hs.fileName?]

theorem components_join_name (p : Path) (hs : IsName s) :
    (p.join ⟨s⟩).components = p.components ++ [.name s] := by
  obtain ⟨hslash, hn⟩ := isName_iff.mp hs
  have habs := isAbsolute_of_name hslash
  by_cases hp : p.text = ""
  · have hj : p.join ⟨s⟩ = ⟨s⟩ := by simp [join, habs, hp]
    rw [hj, hs, components_nil_iff.mpr hp, List.nil_append]
  · rw [components_join hp habs, pieces_of_name hslash]
    simp [component?_of_name false hn]

/-- Only at its beginning a path goes to the root. -/
theorem root_notMem_tail (p : Path) : .root ∉ p.components.tail := by
  obtain ⟨first, rest, hp⟩ := Text.splitList_eq_cons (· == '/') p.text.toList
  have hrest : .root ∉ rest.filterMap (component? false) := by
    intro h
    obtain ⟨piece, -, hc⟩ := List.mem_filterMap.mp h
    exact component?_ne_root false piece hc
  rw [components_of_pieces hp]
  split
  · exact hrest
  · cases hc : component? true first with
    | none => exact fun h ↦ hrest (List.mem_of_mem_tail h)
    | some c => exact hrest

theorem filterMap_names {place : List String} (h : ∀ s ∈ place, IsName s) :
    (place.map String.toList).filterMap (component? false) = place.map .name := by
  induction place with
  | nil => rfl
  | cons s place ih =>
    rw [List.forall_mem_cons] at h
    rw [List.map_cons, List.filterMap_cons_some
      (component?_of_name false (isName_iff.mp h.1).2), ih h.2, List.map_cons]

theorem components_pathOf {place : List String} (h : ∀ s ∈ place, IsName s) :
    (FileTree.pathOf place).components = .root :: place.map .name := by
  have htext : (FileTree.pathOf place).text.toList =
      '/' :: ['/'].intercalate (place.map String.toList) := by
    rw [FileTree.pathOf, Text.join, String.toList_append, String.toList_intercalate]
    rfl
  obtain ⟨rest, hrest, hfilter⟩ : ∃ rest,
      (FileTree.pathOf place).pieces = [] :: rest ∧
        rest.filterMap (component? false) = place.map .name := by
    refine ⟨_, by rw [pieces, htext, Text.splitList_of_sep rfl], ?_⟩
    cases place with
    | nil => rfl
    | cons name place =>
      rw [Text.splitList_intercalate (by simp), filterMap_names h]
      intro piece hpiece
      obtain ⟨s, hs, rfl⟩ := List.mem_map.mp hpiece
      exact (isName_iff.mp (h s hs)).1
  have habs : (FileTree.pathOf place).isAbsolute = true := by
    rw [isAbsolute, htext]
    rfl
  rw [components_of_pieces hrest, if_pos habs, hfilter]
  rfl

end Path

end GoOpenApi
