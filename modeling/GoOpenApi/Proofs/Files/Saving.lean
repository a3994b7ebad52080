import GoOpenApi.Proofs.Files.Reading

/-!
Saving a text where there is a file already: no directory is made, and only the content changes. A
text that is saved over itself changes nothing.
-/

namespace GoOpenApi

namespace Dict

variable {α : Type} {d : Dict α} {key : String} {v w : α}

theorem insert_insert (d : Dict α) : insert key v (insert key w d) = insert key v d := by
  induction d with
  | nil => simp [insert]
  | cons entry d ih =>
    obtain ⟨k, x⟩ := entry
    by_cases hk : key = k
    · simp [insert, hk]
    · by_cases hlt : key < k <;> simp [insert, hk, hlt, ih]

theorem Ordered.insert_of_find? (hd : d.Ordered) (h : find? key d = some v) :
    d.insert key v = d := by
  induction d with
  | nil => cases h
  | cons entry d ih =>
    obtain ⟨k, x⟩ := entry
    obtain ⟨hlt, hd⟩ := List.pairwise_cons.mp hd
    rw [find?_cons] at h
    split at h
    · rename_i hk
      cases h
      simp [Dict.insert, hk]
    · rename_i hk
      have hlt := hlt _ (mem_of_find? h)
      simp [Dict.insert, hk, lt_asymm hlt, ih hd h]

end Dict

namespace Node

variable {m new : Node}

theorem put_put (names : List String) (n : Node) :
    put new names (put m names n) = put new names n := by
  induction names generalizing n with
  | nil => rfl
  | cons name names ih =>
    cases n with
    | file content => simp [put, Dict.insert, Dict.find?_cons, ih]
    | dir entries => simp [put, Dict.find?_insert, Dict.insert_insert, ih]

theorem Ordered.put_of_at? {n : Node} (hn : n.Ordered) {names : List String}
    (h : n.at? names = some m) : Node.put m names n = n := by
  induction names generalizing n with
  | nil =>
    cases h
    rfl
  | cons name names ih =>
    cases hn with
    | file content => cases h
    | @dir entries order below =>
      obtain ⟨c, hc, h⟩ := Option.bind_eq_some_iff.mp h
      have hput := ih (below _ (Dict.mem_of_find? hc)) h
      rw [Node.put, hc, Option.getD_some, hput, order.insert_of_find? hc]

end Node

namespace FileTree

variable {t t' : FileTree} {p : Path} {place : List String} {name text text' : String}
  {content : Content} {files dirs : Set (List String)}

theorem put_put (t : FileTree) (place : List String) (m n : Node) :
    (t.put place m).put place n = t.put place n := by
  simp only [put, Node.put_put]

theorem Ordered.put_of_fileAt (h : t.Ordered) (hf : t.FileAt place content) :
    t.put place (.file content) = t := by
  rw [FileTree.put, Node.Ordered.put_of_at? h hf]

theorem Written.exists_file (h : t.Written files dirs t')
    (hl : t.locate p = .ok (place, .file content)) :
    ∃ content', t'.locate p = .ok (place, .file content') := by
  obtain ⟨hp, hw, hf, hm⟩ := locate_ok_iff.mp hl
  obtain ⟨content', hf'⟩ := h.file hf
  refine ⟨content', locate_ok_iff.mpr ⟨hp, ?_, hf', hm⟩⟩
  rw [h.home]
  exact h.walk hw

/-- Above a directory there is another one, or the path has no name to put there. -/
theorem placeAbove_of_isDir (h : t.isDir p) : t.placeAbove p = .error .alreadyExists ∨
    ∃ place name, t.placeAbove p = .ok (place, name) ∧ t.root.at? (place ++ [name]) ≠ none := by
  obtain ⟨place, entries, hl⟩ := isDir_iff.mp h
  obtain ⟨-, hw, -, -⟩ := locate_ok_iff.mp hl
  unfold placeAbove
  split
  · rename_i s above hr
    have hc : p.components = above.reverse ++ [.name s] := by
      rw [← List.reverse_reverse p.components, hr, List.reverse_cons]
    rw [hc] at hw
    obtain ⟨between, hbetween, hs⟩ := walk_concat_ok_iff.mp hw
    obtain ⟨⟨below, hd⟩, hs, -⟩ := walk_name_ok_iff.mp hs
    refine .inr ⟨between, s, ?_, hs⟩
    simp [hbetween, hd]
  · left
    rw [List.reverse_reverse, hw]
    rfl

theorem makeDir_of_isDir (h : t.isDir p) : makeDir p t = (.error .alreadyExists, t) := by
  rw [makeDir_eq]
  rcases placeAbove_of_isDir h with ha | ⟨place, name, ha, hn⟩
  · rw [ha]
  · rw [ha]
    simp only
    rw [if_pos (Option.isSome_iff_ne_none.mpr hn)]

theorem makeDirs_of_isDir (h : t.isDir p) : makeDirs p t = (.ok (), t) := by
  have hp : p.text.isEmpty = false := by
    obtain ⟨place, entries, hl⟩ := isDir_iff.mp h
    simpa using (locate_ok_iff.mp hl).1
  unfold makeDirs makeDirsWithin
  simp only [hp, Bool.false_eq_true, if_false]
  rw [Action.run_tryCatch, makeDir_of_isDir h]
  simp only
  rw [Action.run_get_bind, h]
  rfl

theorem makeDirs_of_empty (h : p.text = "") : makeDirs p t = (.ok (), t) := by
  unfold makeDirs makeDirsWithin
  simp only [h]
  rfl

section

variable (hname : p.fileName? = some name) (hl : t.locate p = .ok (place, .file content))

include hname hl

theorem exists_above : ∃ above, place = above ++ [name] ∧ t.placeAbove p = .ok (above, name) := by
  obtain ⟨cs, hc⟩ := Path.fileName?_eq_some_iff.mp hname
  obtain ⟨-, hw, -, -⟩ := locate_ok_iff.mp hl
  rw [hc] at hw
  obtain ⟨above, ha, hn⟩ := walk_concat_ok_iff.mp hw
  obtain ⟨hd, -, hn⟩ := walk_name_ok_iff.mp hn
  exact ⟨above, (Except.ok.inj hn).symm, placeAbove_of_walk hc ha hd⟩

theorem isDir_parent {dir : Path} (hp : p.parent = some dir) : dir.text = "" ∨ t.isDir dir := by
  by_cases ht : dir.text = ""
  · exact .inl ht
  · obtain ⟨cs, hc⟩ := Path.fileName?_eq_some_iff.mp hname
    obtain ⟨-, hw, -, -⟩ := locate_ok_iff.mp hl
    rw [hc] at hw
    obtain ⟨above, ha, hn⟩ := walk_concat_ok_iff.mp hw
    refine .inr (isDir_of_walk ht ?_ (walk_name_ok_iff.mp hn).1)
    rwa [Path.components_parent hp, hc, List.dropLast_concat]

theorem writeText_of_file (text : String) :
    writeText p text t = (.ok (), t.put place (.file (.text text))) := by
  obtain ⟨above, rfl, ha⟩ := exists_above hname hl
  obtain ⟨-, -, hn, hm⟩ := locate_ok_iff.mp hl
  have hm : meansDirectory p = false := by simpa [Node.isDir] using hm
  have hp : lastPiece p ≠ ['.'] := by
    intro hp
    simp [meansDirectory, hp] at hm
  rw [writeText, Action.run_get_bind]
  simp only [ha, hp, hm, if_false, Bool.false_eq_true, hn]
  rfl

theorem save_of_file (text : String) :
    save p text t = (.ok (), t.put place (.file (.text text))) := by
  unfold save
  cases hp : p.parent with
  | none => exact writeText_of_file hname hl text
  | some dir =>
    simp only
    rw [Action.run_bind]
    rcases isDir_parent hname hl hp with he | hd
    · rw [makeDirs_of_empty he]
      exact writeText_of_file hname hl text
    · rw [makeDirs_of_isDir hd]
      exact writeText_of_file hname hl text

end

theorem save_again {p : Path} (ht : t.WellFormed) (h : save p text t = (.ok (), t')) :
    save p text t' = (.ok (), t') := by
  obtain ⟨place, name, hname, hl, hw⟩ := save_ok h
  have hfile := (locate_ok_iff.mp hl).2.2.1
  rw [save_of_file hname hl text, (hw.sound ht).ordered.put_of_fileAt hfile]

/-- Two texts that have been saved are saved over themselves, also if one of them took the place of
the other. -/
theorem save_both_again {t₁ : FileTree} {p p' : Path} (ht : t.WellFormed)
    (h : save p text t = (.ok (), t₁)) (h' : save p' text' t₁ = (.ok (), t')) :
    ∃ u, save p text t' = (.ok (), u) ∧ save p' text' u = (.ok (), t') := by
  obtain ⟨place, name, hname, hl, hw⟩ := save_ok h
  obtain ⟨place', name', hname', hl', hw'⟩ := save_ok h'
  have ht' := hw'.sound (hw.sound ht)
  have hfile := (locate_ok_iff.mp hl).2.2.1
  have hfile' := (locate_ok_iff.mp hl').2.2.1
  obtain ⟨content, hl₂⟩ := hw'.exists_file hl
  have hagain := save_of_file hname hl₂ text
  refine ⟨_, hagain, ?_⟩
  by_cases hp : place ++ [name] = place' ++ [name']
  · obtain ⟨_, _, -, -, hw₂⟩ := save_ok hagain
    obtain ⟨content', hl₃⟩ := hw₂.exists_file hl'
    rw [save_of_file hname' hl₃ text', hp, put_put, ht'.ordered.put_of_fileAt hfile']
  · have hkept := hw'.kept hfile hp
    rw [ht'.ordered.put_of_fileAt hkept]
    exact save_again (hw.sound ht) h'

end FileTree

end GoOpenApi
