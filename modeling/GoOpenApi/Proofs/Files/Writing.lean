import GoOpenApi.Proofs.Files.Names
import GoOpenApi.Proofs.Files.Order
import GoOpenApi.Proofs.Module.Search
import Mathlib.Data.Set.Basic

/-!
What writing does to a tree. A file is written at one place and directories are made on the way to
it; all else stays, whether the writing succeeds or not.
-/

namespace GoOpenApi

namespace Node

variable {n new : Node} {name : String} {names place : List String}

/-- What a file holds; none for a directory. -/
def content? : Node → Option Content
  | .file content => some content
  | .dir _ => none

/-- Nothing stands below the node. -/
def IsLeaf (n : Node) : Prop := ∀ name names, n.at? (name :: names) = none

theorem isLeaf_file (content : Content) : (Node.file content).IsLeaf := fun _ _ ↦ rfl

theorem isLeaf_emptyDir : (Node.dir []).IsLeaf := fun _ _ ↦ rfl

theorem IsLeaf.eq_nil (h : n.IsLeaf) (hn : n.at? place ≠ none) : place = [] := by
  cases place with
  | nil => rfl
  | cons name names => exact absurd (h name names) hn

theorem at?_of_put (hnew : new.IsLeaf) (h : (put new names n).at? place ≠ none) :
    n.at? place ≠ none ∨ place <+: names := by
  induction names generalizing n place with
  | nil =>
    rw [hnew.eq_nil h]
    exact .inr (List.prefix_refl _)
  | cons a names ih =>
    have hbelow {rest : List String} (h : (put new names (.dir [])).at? rest ≠ none) :
        rest <+: names := by
      rcases ih h with he | hp
      · rw [isLeaf_emptyDir.eq_nil he]
        exact List.nil_prefix
      · exact hp
    cases place with
    | nil => exact .inr List.nil_prefix
    | cons s rest =>
      by_cases hs : s = a
      · subst hs
        rw [List.cons_prefix_cons, eq_self, true_and]
        cases n with
        | file content => exact .inr (hbelow (by simpa [put, at?, Dict.find?_cons] using h))
        | dir entries =>
          cases hf : Dict.find? s entries with
          | none => exact .inr (hbelow (by simpa [put, at?, Dict.find?_insert, hf] using h))
          | some m =>
            rw [at?, hf, Option.bind_some]
            exact ih (by simpa [put, at?, Dict.find?_insert, hf] using h)
      · left
        cases n with
        | file content =>
          simp only [put, at?, Dict.find?_cons, hs, if_false] at h
          exact absurd rfl h
        | dir entries => simpa [put, at?, Dict.find?_insert, hs] using h

theorem at?_append (names names' : List String) (n : Node) :
    n.at? (names ++ names') = (n.at? names).bind (at? names') := by
  induction names generalizing n with
  | nil => rfl
  | cons name names ih =>
    cases n with
    | file content => rfl
    | dir entries =>
      rw [List.cons_append, at?, at?, Option.bind_assoc]
      congr 1
      funext m
      exact ih m

/-- A node put below a directory in the place of nothing or of a file changes that place only. -/
theorem content?_at?_put (hnew : new.IsLeaf) {entries : List (String × Node)}
    (hd : n.at? names = some (.dir entries))
    (hn : ∀ below, n.at? (names ++ [name]) ≠ some (.dir below)) (place : List String) :
    (at? place (put new (names ++ [name]) n)).map content? =
      if place = names ++ [name] then some new.content? else (n.at? place).map content? := by
  induction names generalizing n place with
  | nil =>
    cases hd
    cases place with
    | nil => rfl
    | cons s rest =>
      rw [List.nil_append, put, at?, Dict.find?_insert, at?]
      by_cases hs : s = name
      · subst hs
        cases rest with
        | nil => simp [at?, put]
        | cons s' rest =>
          have hbelow : ((Dict.find? s entries).bind (at? (s' :: rest))) = none := by
            rw [Option.bind_eq_none_iff]
            intro m hm
            cases m with
            | file content => rfl
            | dir below =>
              refine absurd ?_ (hn below)
              rw [List.nil_append, at?, hm]
              rfl
          simp [put, hnew s' rest, hbelow]
      · simp [hs]
  | cons a names ih =>
    cases n with
    | file content => cases hd
    | dir below =>
      rw [at?] at hd
      obtain ⟨m, hm, hm'⟩ := Option.bind_eq_some_iff.mp hd
      have hn' : ∀ below, m.at? (names ++ [name]) ≠ some (.dir below) := by
        intro below h
        refine hn below ?_
        rw [List.cons_append, at?, hm]
        exact h
      cases place with
      | nil => rfl
      | cons s rest =>
        rw [List.cons_append, put, at?, Dict.find?_insert, at?, hm]
        by_cases hs : s = a
        · subst hs
          simpa [hm] using ih hm' hn' rest
        · simp [hs]

end Node

namespace FileTree

variable {t t' t'' : FileTree} {p : Path} {s name : String} {place here : List String}
  {names : List String} {content : Content} {cs cs' : List Path.Component}
  {files files' dirs dirs' : Set (List String)}

def FileAt (t : FileTree) (place : List String) (content : Content) : Prop :=
  t.root.at? place = some (.file content)

def DirAt (t : FileTree) (place : List String) : Prop :=
  ∃ entries, t.root.at? place = some (.dir entries)

theorem fileAt_iff : t.FileAt place content ↔
    (t.root.at? place).map Node.content? = some (some content) := by
  rw [FileAt]
  cases h : t.root.at? place with
  | none => simp
  | some n => cases n <;> simp [Node.content?]

theorem dirAt_iff : t.DirAt place ↔ (t.root.at? place).map Node.content? = some none := by
  rw [DirAt]
  cases h : t.root.at? place with
  | none => simp
  | some n => cases n <;> simp [Node.content?]

theorem at?_ne_none_iff :
    t.root.at? place ≠ none ↔ t.DirAt place ∨ ∃ content, t.FileAt place content := by
  simp only [DirAt, FileAt]
  cases t.root.at? place with
  | none => simp
  | some n => cases n <;> simp

theorem contains_entries {entries : List (String × Node)}
    (h : t.root.at? here = some (.dir entries)) :
    Dict.contains s entries ↔ t.root.at? (here ++ [s]) ≠ none := by
  rw [Node.at?_append, h, Option.bind_some, Node.at?, Dict.contains]
  cases Dict.find? s entries <;> simp [Node.at?]

theorem walk_name_ok_iff : t.walk here (.name s :: cs) = .ok place ↔
    t.DirAt here ∧ t.root.at? (here ++ [s]) ≠ none ∧ t.walk (here ++ [s]) cs = .ok place := by
  rw [walk]
  cases h : t.root.at? here with
  | none => simp [DirAt, h]
  | some n =>
    cases n with
    | file content => simp [DirAt, h]
    | dir entries =>
      have hd : t.DirAt here := ⟨entries, h⟩
      simp only [hd, true_and, ← contains_entries h]
      by_cases hs : Dict.contains s entries <;> simp [hs]

theorem walk_up_ok_iff : t.walk here (.up :: cs) = .ok place ↔
    t.DirAt here ∧ t.walk here.dropLast cs = .ok place := by
  rw [walk]
  cases h : t.root.at? here with
  | none => simp [DirAt, h]
  | some n => cases n <;> simp [DirAt, h]

theorem walk_append (t : FileTree) (here : List String) (cs cs' : List Path.Component) :
    t.walk here (cs ++ cs') = (t.walk here cs).bind fun place ↦ t.walk place cs' := by
  induction cs generalizing here with
  | nil => rfl
  | cons c cs ih =>
    cases c with
    | root => exact ih []
    | here => exact ih here
    | up =>
      rw [List.cons_append, walk, walk]
      split
      · exact ih _
      · rfl
      · rfl
    | name s =>
      rw [List.cons_append, walk, walk]
      split
      · split
        · exact ih _
        · rfl
      · rfl
      · rfl

theorem walk_of_prefix (h : cs <+: cs') (hw : t.walk here cs' = .ok place) :
    ∃ between, t.walk here cs = .ok between := by
  obtain ⟨rest, rfl⟩ := h
  rw [walk_append] at hw
  cases hb : t.walk here cs with
  | ok between => exact ⟨between, rfl⟩
  | error fault =>
    rw [hb] at hw
    cases hw

/-- Entries have names that a path can give, and stand in their order. -/
structure WellFormed (t : FileTree) : Prop where
  ordered : t.Ordered
  named {place : List String} {name : String} :
    t.root.at? (place ++ [name]) ≠ none → Path.IsName name

theorem mem_namedPlace (h : name ∈ namedPlace here p) :
    name ∈ here ∨ .name name ∈ p.components := by
  unfold namedPlace at h
  generalize p.components = cs at h ⊢
  induction cs generalizing here with
  | nil => exact .inl h
  | cons c cs ih =>
    rcases ih h with hh | hc
    · cases c with
      | root => cases hh
      | here => exact .inl hh
      | up => exact .inl (List.dropLast_subset _ hh)
      | name s =>
        rcases List.mem_append.mp hh with hh | hh
        · exact .inl hh
        · rw [List.mem_singleton.mp hh]
          exact .inr List.mem_cons_self
    · exact .inr (List.mem_cons_of_mem _ hc)

theorem WellFormed.put_leaf (ht : t.WellFormed) {n : Node} (hl : n.IsLeaf) (ho : n.Ordered)
    (hnames : ∀ name ∈ names, Path.IsName name) : (t.put names n).WellFormed where
  ordered := ht.ordered.put ho names
  named {above name} h := by
    rcases Node.at?_of_put hl h with h | h
    · exact ht.named h
    · exact hnames name (h.subset (List.mem_concat_self))

/-- Every tree that is built from paths is well-formed. -/
theorem wellFormed_ofNodes {home : List String} {nodes : List (Path × Node)}
    (hhome : ∀ name ∈ home, Path.IsName name)
    (hnodes : ∀ entry ∈ nodes, entry.2.IsLeaf ∧ entry.2.Ordered) :
    (ofNodes home nodes).WellFormed := by
  have hempty : WellFormed ⟨.dir [], home⟩ :=
    ⟨.emptyDir, fun {above name} h ↦ absurd (Node.isLeaf_emptyDir.eq_nil h) (by simp)⟩
  have hstart := hempty.put_leaf Node.isLeaf_emptyDir .emptyDir hhome
  rw [FileTree.put] at hstart
  unfold ofNodes
  generalize FileTree.mk _ home = t at hstart ⊢
  induction nodes generalizing t with
  | nil => exact hstart
  | cons entry nodes ih =>
    rw [List.forall_mem_cons] at hnodes
    refine ih hnodes.2 _ (hstart.put_leaf hnodes.1.1 hnodes.1.2 fun name hm ↦ ?_)
    rcases mem_namedPlace hm with hm | hm
    · exact hhome name hm
    · exact Path.isName_of_mem hm

theorem wellFormed_ofFiles {home : List String} {nodes : List (Path × Node)}
    (hhome : ∀ name ∈ home, Path.IsName name) (hnodes : ∀ entry ∈ nodes, entry.2.isDir = false) :
    (ofNodes home nodes).WellFormed := by
  apply wellFormed_ofNodes hhome
  intro entry he
  have hfile := hnodes entry he
  cases hn : entry.2 with
  | file content => exact ⟨Node.isLeaf_file content, .file content⟩
  | dir entries =>
    rw [hn] at hfile
    cases hfile

/-- The second tree is the first with files written at some places and directories made at others.
Nothing is removed. -/
structure Written (files dirs : Set (List String)) (t t' : FileTree) : Prop where
  home : t'.home = t.home
  dir {place : List String} : t.DirAt place → t'.DirAt place
  file {place : List String} {content : Content} :
    t.FileAt place content → ∃ content', t'.FileAt place content'
  old {place : List String} {content : Content} :
    t'.FileAt place content → place ∉ files → t.FileAt place content
  made {place : List String} : t'.DirAt place → place ∉ dirs → t.DirAt place
  sound : t.WellFormed → t'.WellFormed

namespace Written

theorem refl (t : FileTree) : t.Written files dirs t :=
  ⟨rfl, id, fun h ↦ ⟨_, h⟩, fun h _ ↦ h, fun h _ ↦ h, id⟩

theorem mono (h : t.Written files dirs t') (hf : files ⊆ files') (hd : dirs ⊆ dirs') :
    t.Written files' dirs' t' :=
  { h with
    old := fun ht hn ↦ h.old ht fun hm ↦ hn (hf hm)
    made := fun ht hn ↦ h.made ht fun hm ↦ hn (hd hm) }

theorem trans (h : t.Written files dirs t') (h' : t'.Written files dirs t'') :
    t.Written files dirs t'' where
  home := h'.home.trans h.home
  dir hd := h'.dir (h.dir hd)
  file hf := by
    obtain ⟨content', hf'⟩ := h.file hf
    exact h'.file hf'
  old hf hn := h.old (h'.old hf hn) hn
  made hd hn := h.made (h'.made hd hn) hn
  sound ht := h'.sound (h.sound ht)

theorem trans_union (h : t.Written files dirs t') (h' : t'.Written files' dirs' t'') :
    t.Written (files ∪ files') (dirs ∪ dirs') t'' :=
  (h.mono Set.subset_union_left Set.subset_union_left).trans
    (h'.mono Set.subset_union_right Set.subset_union_right)

theorem kept (h : t.Written files dirs t') (hf : t.FileAt place content) (hn : place ∉ files) :
    t'.FileAt place content := by
  obtain ⟨content', hf'⟩ := h.file hf
  have hold := h.old hf' hn
  obtain rfl : content' = content := by simpa using hold.symm.trans hf
  exact hf'

theorem there (h : t.Written files dirs t') (hn : t.root.at? place ≠ none) :
    t'.root.at? place ≠ none := by
  rw [at?_ne_none_iff] at hn ⊢
  rcases hn with hd | ⟨content, hf⟩
  · exact .inl (h.dir hd)
  · exact .inr (h.file hf)

theorem walk (h : t.Written files dirs t') (hw : t.walk here cs = .ok place) :
    t'.walk here cs = .ok place := by
  induction cs generalizing here with
  | nil => exact hw
  | cons c cs ih =>
    cases c with
    | root =>
      rw [FileTree.walk] at hw ⊢
      exact ih hw
    | here =>
      rw [FileTree.walk] at hw ⊢
      exact ih hw
    | up =>
      rw [walk_up_ok_iff] at hw ⊢
      exact ⟨h.dir hw.1, ih hw.2⟩
    | name s =>
      rw [walk_name_ok_iff] at hw ⊢
      exact ⟨h.dir hw.1, h.there hw.2.1, ih hw.2.2⟩

end Written

section

variable {n : Node} (hd : t.DirAt place) (hn : ¬t.DirAt (place ++ [name]))

include hd hn

theorem content?_put (hl : n.IsLeaf) (there : List String) :
    ((t.put (place ++ [name]) n).root.at? there).map Node.content? =
      if there = place ++ [name] then some n.content?
      else (t.root.at? there).map Node.content? := by
  obtain ⟨entries, hd⟩ := hd
  exact Node.content?_at?_put hl hd (fun below h ↦ hn ⟨below, h⟩) there

theorem fileAt_putFile (content : Content) :
    (t.put (place ++ [name]) (.file content)).FileAt (place ++ [name]) content := by
  rw [fileAt_iff, content?_put hd hn (Node.isLeaf_file content), if_pos rfl]
  rfl

theorem wellFormed_put (hl : n.IsLeaf) (ho : n.Ordered) (hname : Path.IsName name)
    (ht : t.WellFormed) : (t.put (place ++ [name]) n).WellFormed where
  ordered := ht.ordered.put ho _
  named {above name'} h := by
    rw [ne_eq, ← Option.map_eq_none_iff (f := Node.content?), content?_put hd hn hl] at h
    split at h
    · rename_i he
      obtain ⟨-, he⟩ := List.append_inj' he rfl
      cases he
      exact hname
    · rw [Option.map_eq_none_iff] at h
      exact ht.named h

/-- A file put in the place of another or of nothing, or a directory in the place of nothing. -/
theorem written_put (hl : n.IsLeaf) (ho : n.Ordered) (hname : Path.IsName name)
    (hfile : ¬n.isDir → place ++ [name] ∈ files)
    (hdir : n.isDir → place ++ [name] ∈ dirs ∧ t.root.at? (place ++ [name]) = none) :
    t.Written files dirs (t.put (place ++ [name]) n) := by
  have hput := content?_put hd hn hl
  refine ⟨rfl, fun {there} h ↦ ?_, fun {there c} h ↦ ?_, fun {there c} h hne ↦ ?_,
    fun {there} h hne ↦ ?_, wellFormed_put hd hn hl ho hname⟩
  · have hne : there ≠ place ++ [name] := fun he ↦ hn (he ▸ h)
    rw [dirAt_iff, hput, if_neg hne]
    exact dirAt_iff.mp h
  · by_cases he : there = place ++ [name]
    · cases n with
      | file content => exact ⟨content, by rw [fileAt_iff, hput, if_pos he]; rfl⟩
      | dir entries =>
        have hnone := (hdir rfl).2
        rw [← he, h] at hnone
        cases hnone
    · exact ⟨c, by rw [fileAt_iff, hput, if_neg he]; exact fileAt_iff.mp h⟩
  · rw [fileAt_iff, hput] at h
    split at h
    · rename_i he
      cases n with
      | file content => exact absurd (he ▸ hfile (by simp [Node.isDir])) hne
      | dir entries => cases h
    · exact fileAt_iff.mpr h
  · rw [dirAt_iff, hput] at h
    split at h
    · rename_i he
      cases n with
      | file content => cases h
      | dir entries => exact absurd (he ▸ (hdir rfl).1) hne
    · exact dirAt_iff.mpr h

end

theorem placeAbove_of_walk {above : List Path.Component} (hc : p.components = above ++ [.name name])
    (hw : t.walk t.home above = .ok place) (hd : t.DirAt place) :
    t.placeAbove p = .ok (place, name) := by
  obtain ⟨entries, hd⟩ := hd
  have hr : p.components.reverse = .name name :: above.reverse := by simp [hc]
  unfold placeAbove
  split
  · rename_i s above' h
    rw [hr, List.cons.injEq, Path.Component.name.injEq] at h
    obtain ⟨rfl, rfl⟩ := h
    simp [hw, hd]
  · rename_i h
    exact absurd hr (h name above.reverse)

theorem placeAbove_ok (h : t.placeAbove p = .ok (place, name)) : ∃ above,
    p.components = above ++ [.name name] ∧ t.walk t.home above = .ok place ∧ t.DirAt place := by
  unfold placeAbove at h
  split at h
  · rename_i s above hc
    have hc : p.components = above.reverse ++ [.name s] := by
      rw [← List.reverse_reverse p.components, hc, List.reverse_cons]
    cases hw : t.walk t.home above.reverse with
    | error fault => simp [hw] at h
    | ok place' =>
      cases hn : t.root.at? place' with
      | none => simp [hw, hn] at h
      | some n =>
        cases n with
        | file content => simp [hw, hn] at h
        | dir entries =>
          obtain ⟨rfl, rfl⟩ : place' = place ∧ s = name := by
            simpa [hw, hn] using h
          exact ⟨_, hc, hw, entries, hn⟩
  · simp only [bind, Except.bind] at h
    split at h <;> cases h

/-- The places on the way of a path. -/
def passed (t : FileTree) (cs : List Path.Component) : Set (List String) :=
  {place | ∃ way, way <+: cs ∧ t.walk t.home way = .ok place}

theorem passed_mono (t : FileTree) (hc : cs <+: cs') : t.passed cs ⊆ t.passed cs' :=
  fun _ ⟨way, hway, hw⟩ ↦ ⟨way, hway.trans hc, hw⟩

theorem Written.passed_subset (h : t.Written files dirs t') (cs : List Path.Component) :
    t.passed cs ⊆ t'.passed cs := by
  rintro place ⟨way, hway, hw⟩
  refine ⟨way, hway, ?_⟩
  rw [h.home]
  exact h.walk hw

theorem isDir_of_walk (hp : p.text ≠ "") (hw : t.walk t.home p.components = .ok place)
    (hd : t.DirAt place) : t.isDir p := by
  obtain ⟨entries, hd⟩ := hd
  exact isDir_iff.mpr ⟨place, entries, locate_ok_iff.mpr ⟨hp, hw, hd, fun _ ↦ rfl⟩⟩

theorem Written.isDir (h : t.Written files dirs t') (hd : t.isDir p) : t'.isDir p := by
  obtain ⟨place, entries, hl⟩ := isDir_iff.mp hd
  obtain ⟨hp, hw, hn, -⟩ := locate_ok_iff.mp hl
  refine isDir_of_walk hp ?_ (h.dir ⟨entries, hn⟩)
  rw [h.home]
  exact h.walk hw

theorem Written.locate_file (h : t.Written files dirs t')
    (hl : t.locate p = .ok (place, .file content)) (hn : place ∉ files) :
    t'.locate p = .ok (place, .file content) := by
  obtain ⟨hp, hw, hf, hm⟩ := locate_ok_iff.mp hl
  refine locate_ok_iff.mpr ⟨hp, ?_, h.kept hf hn, hm⟩
  rw [h.home]
  exact h.walk hw

theorem makeDir_eq (p : Path) (t : FileTree) : makeDir p t = match t.placeAbove p with
    | .ok (place, name) =>
      if (t.root.at? (place ++ [name])).isSome then (.error .alreadyExists, t)
      else (.ok (), t.put (place ++ [name]) (.dir []))
    | .error fault => (.error fault, t) := by
  rw [makeDir, Action.run_get_bind, Action.run_lift_bind]
  cases t.placeAbove p with
  | error fault => rfl
  | ok found =>
    obtain ⟨place, name⟩ := found
    by_cases hn : (t.root.at? (place ++ [name])).isSome
    · simp only [hn, if_true]
      rfl
    · simp only [hn, if_false, Bool.false_eq_true]
      rfl

/-- All that is new in the second tree are directories on the way of the path. -/
def Paves (p : Path) (t t' : FileTree) : Prop := t.Written ∅ (t'.passed p.components) t'

theorem Paves.refl (t : FileTree) : Paves p t t := Written.refl t

theorem Paves.trans (h : Paves p t t') (h' : Paves p t' t'') : Paves p t t'' :=
  (Written.mono h (Set.Subset.refl _) (h'.passed_subset p.components)).trans h'

theorem Paves.further {above : Path} (h : Paves above t t')
    (hp : above.components <+: p.components) : Paves p t t' :=
  Written.mono h (Set.Subset.refl _) (passed_mono t' hp)

theorem makeDir_paves (p : Path) (t : FileTree) : Paves p t (makeDir p t).2 := by
  rw [makeDir_eq]
  cases ha : t.placeAbove p with
  | error fault => exact .refl t
  | ok found =>
    obtain ⟨place, name⟩ := found
    obtain ⟨above, hc, hw, hd⟩ := placeAbove_ok ha
    simp only
    split
    · exact .refl t
    · rename_i hn
      rw [Option.not_isSome_iff_eq_none] at hn
      have hnot : ¬t.DirAt (place ++ [name]) := fun ⟨_, h⟩ ↦ by cases hn.symm.trans h
      have hname : Path.IsName name := Path.isName_of_mem (p := p) (by simp [hc])
      have hput (dirs : Set (List String)) (hm : place ++ [name] ∈ dirs) :
          t.Written ∅ dirs (t.put (place ++ [name]) (.dir [])) :=
        written_put hd hnot Node.isLeaf_emptyDir .emptyDir hname (by simp [Node.isDir])
          fun _ ↦ ⟨hm, hn⟩
      -- the new directory is where its path leads now
      refine hput _ ⟨p.components, List.prefix_refl _, ?_⟩
      have hany := hput Set.univ trivial
      have hmade : (t.put (place ++ [name]) (.dir [])).DirAt (place ++ [name]) := by
        rw [dirAt_iff, content?_put hd hnot Node.isLeaf_emptyDir, if_pos rfl]
        rfl
      rw [hc, walk_append, hany.home, hany.walk hw]
      exact walk_name_ok_iff.mpr ⟨hany.dir hd, at?_ne_none_iff.mpr (.inl hmade), rfl⟩

theorem unlessThere_paves (h : Paves p t t') (fault : FileFault) :
    Paves p t ((do if !(← get).isDir p then throw fault : Change Unit) t').2 := by
  rw [Action.run_get_bind]
  by_cases hd : t'.isDir p
  · simp only [hd]
    exact h
  · simp only [hd]
    exact h

theorem tryMakeDir_paves (h : Paves p t t') {handle : FileFault → Change Unit}
    (hh : ∀ fault t', Paves p t t' → Paves p t (handle fault t').2) :
    Paves p t (tryCatch (makeDir p) handle t').2 := by
  have hmade := h.trans (makeDir_paves p t')
  rw [Action.run_tryCatch]
  rcases hm : makeDir p t' with ⟨fault | _, t''⟩ <;> rw [hm] at hmade
  · exact hh fault t'' hmade
  · exact hmade

theorem makeDirsWithin_paves (n : Nat) (p : Path) (t : FileTree) :
    Paves p t (makeDirsWithin n p t).2 := by
  unfold makeDirsWithin
  by_cases hp : p.text.isEmpty
  · simp only [hp, if_true]
    exact .refl t
  · simp only [hp, if_false, Bool.false_eq_true]
    apply tryMakeDir_paves (.refl t)
    intro fault t' h
    split
    · match n, ha : p.parent with
      | 0, _ | n + 1, none => exact h
      | n + 1, some above =>
        have hcs : above.components <+: p.components := by
          rw [Path.components_parent ha]
          exact List.dropLast_prefix p.components
        have hmade := h.trans ((makeDirsWithin_paves n above t').further hcs)
        simp only
        rw [Action.run_bind]
        rcases hm : makeDirsWithin n above t' with ⟨fault | _, t''⟩ <;> rw [hm] at hmade
        · exact hmade
        · exact tryMakeDir_paves hmade fun fault _ h ↦ unlessThere_paves h fault
    · exact unlessThere_paves h _

theorem writeText_cases (p : Path) (text : String) (t : FileTree) :
    (∃ fault, writeText p text t = (.error fault, t)) ∨
      ∃ place name, t.placeAbove p = .ok (place, name) ∧ meansDirectory p = false ∧
        ¬t.DirAt (place ++ [name]) ∧
        writeText p text t = (.ok (), t.put (place ++ [name]) (.file (.text text))) := by
  rw [writeText, Action.run_get_bind]
  cases ha : t.placeAbove p with
  | error fault => cases fault <;> exact .inl ⟨_, rfl⟩
  | ok found =>
    obtain ⟨place, name⟩ := found
    simp only
    by_cases hm : meansDirectory p
    · refine .inl ?_
      simp only [hm, if_true]
      split
      · cases t.locate p <;> exact ⟨_, rfl⟩
      · exact ⟨_, rfl⟩
    · have hp : lastPiece p ≠ ['.'] := by
        intro hp
        simp [meansDirectory, hp] at hm
      rw [Bool.not_eq_true] at hm
      simp only [hp, hm, if_false, Bool.false_eq_true]
      cases hn : t.root.at? (place ++ [name]) with
      | none => exact .inr ⟨place, name, rfl, trivial, by simp [DirAt, hn], rfl⟩
      | some n =>
        cases n with
        | file content => exact .inr ⟨place, name, rfl, trivial, by simp [DirAt, hn], rfl⟩
        | dir entries => exact .inl ⟨_, rfl⟩

/-- The places of directories above a path. -/
def above (t : FileTree) (p : Path) : Set (List String) := t.passed p.components.dropLast

/-- Directories above the path are made first; then its text is written, or this fails. -/
theorem save_cases (p : Path) (text : String) (t : FileTree) :
    ∃ t₁, t.Written ∅ (t₁.above p) t₁ ∧
      ((∃ fault, save p text t = (.error fault, t₁)) ∨ save p text t = writeText p text t₁) := by
  unfold save
  cases hp : p.parent with
  | none => exact ⟨t, .refl t, .inr rfl⟩
  | some dir =>
    simp only
    rw [Action.run_bind]
    have hw : t.Written ∅ ((makeDirs dir t).2.above p) (makeDirs dir t).2 := by
      rw [above, ← Path.components_parent hp]
      exact makeDirsWithin_paves _ dir t
    rcases hd : makeDirs dir t with ⟨fault | _, t₁⟩ <;> rw [hd] at hw
    · exact ⟨t₁, hw, .inl ⟨fault, rfl⟩⟩
    · exact ⟨t₁, hw, .inr rfl⟩

/-- A text that is saved stands at the place of its path. No other file is changed, and directories
are made above the path only. -/
theorem save_ok {text : String} (h : save p text t = (.ok (), t')) : ∃ place name,
    p.fileName? = some name ∧ t'.locate p = .ok (place ++ [name], .file (.text text)) ∧
      t.Written {place ++ [name]} (t'.above p) t' := by
  obtain ⟨t₁, hw, ⟨fault, hs⟩ | hs⟩ := save_cases p text t
  · cases hs.symm.trans h
  · rcases writeText_cases p text t₁ with ⟨fault, hf⟩ | ⟨place, name, ha, hm, hn, hf⟩
    · cases (hs.trans hf).symm.trans h
    · obtain rfl : t₁.put (place ++ [name]) (.file (.text text)) = t' :=
        congrArg Prod.snd ((hs.trans hf).symm.trans h)
      obtain ⟨above, hc, hwalk, hd⟩ := placeAbove_ok ha
      have hname : Path.IsName name := Path.isName_of_mem (p := p) (by simp [hc])
      have hput : t₁.Written {place ++ [name]} ∅
          (t₁.put (place ++ [name]) (.file (.text text))) :=
        written_put hd hn (Node.isLeaf_file _) (.file _) hname (fun _ ↦ rfl) (by simp [Node.isDir])
      have hfile := fileAt_putFile hd hn (.text text)
      refine ⟨place, name, Path.fileName?_eq_some_iff.mpr ⟨above, hc⟩,
        locate_ok_iff.mpr ⟨?_, ?_, hfile, by simp [hm]⟩, ?_⟩
      · intro ht
        simp [Path.components_nil_iff.mpr ht] at hc
      · rw [hc, walk_append, hput.home, hput.walk hwalk]
        exact walk_name_ok_iff.mpr ⟨hput.dir hd, at?_ne_none_iff.mpr (.inr ⟨_, hfile⟩), rfl⟩
      · exact (hw.mono (Set.empty_subset _) (hput.passed_subset _)).trans
          (hput.mono (Set.Subset.refl _) (Set.empty_subset _))

/-- A text that cannot be saved changes no file; directories may have been made above its path. -/
theorem save_error {text : String} {fault : FileFault} (h : save p text t = (.error fault, t')) :
    t.Written ∅ (t'.above p) t' := by
  obtain ⟨t₁, hw, ⟨fault, hs⟩ | hs⟩ := save_cases p text t
  · cases hs.symm.trans h
    exact hw
  · rcases writeText_cases p text t₁ with ⟨fault, hf⟩ | ⟨place, name, ha, hm, hn, hf⟩
    · cases (hs.trans hf).symm.trans h
      exact hw
    · cases (hs.trans hf).symm.trans h

end FileTree

end GoOpenApi
