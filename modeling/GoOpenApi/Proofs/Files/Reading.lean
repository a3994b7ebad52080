import GoOpenApi.Proofs.Files.Writing
import GoOpenApi.Proofs.Module.History
import Mathlib.Data.List.Induction

/-!
Reading after writing. A path finds what it found before, or something new; only one that leads up
out of a new directory may find something old that it did not find before.
-/

namespace GoOpenApi

/-- What a search says depends on the places up to the first one that says something. -/
theorem firstFound_congr {look look' : α → Option (Option β)} {as : List α}
    (h : ∀ before a after, as = before ++ a :: after → (∀ b ∈ before, look b = some none) →
      look' a = look a) : firstFound look' as = firstFound look as := by
  induction as with
  | nil => rfl
  | cons a as ih =>
    have ha : look' a = look a := h [] a as rfl (by simp)
    rw [firstFound, firstFound, ha]
    rcases hl : look a with _ | _ | b
    · rfl
    · refine ih fun before a' after he hn ↦ h (a :: before) a' after (by rw [he]; rfl) ?_
      exact List.forall_mem_cons.mpr ⟨hl, hn⟩
    · rfl

namespace FileTree

variable {t t' : FileTree} {p dir : Path} {name : String} {place : List String} {n : Node}
  {cs : List Path.Component} {c : Path.Component} {content : Content}
  {files dirs : Set (List String)}

theorem walk_concat_ok_iff {here : List String} : t.walk here (cs ++ [c]) = .ok place ↔
    ∃ between, t.walk here cs = .ok between ∧ t.walk between [c] = .ok place := by
  rw [walk_append]
  cases t.walk here cs <;> simp [Except.bind]

theorem dirAt_of_at?_concat (h : t.root.at? (place ++ [name]) ≠ none) : t.DirAt place := by
  rw [Node.at?_append] at h
  cases hn : t.root.at? place with
  | none => simp [hn] at h
  | some n =>
    cases n with
    | file content => simp [hn, Node.at?] at h
    | dir entries => exact ⟨entries, hn⟩

/-- The path leads up out of a directory of the second tree that the first has not. -/
def Climbs (t t' : FileTree) (p : Path) : Prop :=
  ∃ way place, way ++ [.up] <+: p.components ∧ t'.walk t'.home way = .ok place ∧
    t'.DirAt place ∧ ¬t.DirAt place

theorem not_climbs_of_notMem (h : .up ∉ p.components) : ¬t.Climbs t' p := by
  rintro ⟨way, place, hway, -⟩
  exact h (hway.subset (by simp))

theorem not_climbs_join (hn : Path.IsName name) (h : ¬t.Climbs t' dir) :
    ¬t.Climbs t' (dir.join ⟨name⟩) := by
  rintro ⟨way, place, hway, hclimb⟩
  rw [Path.components_join_name dir hn, List.prefix_concat_iff] at hway
  rcases hway with hway | hway
  · obtain ⟨-, hlast⟩ := List.append_inj' hway rfl
    cases hlast
  · exact h ⟨way, place, hway, hclimb⟩

namespace Written

variable (h : t.Written files dirs t')

include h

theorem not_climbs_of_walk (hw : t.walk t.home p.components = .ok place) : ¬t.Climbs t' p := by
  rintro ⟨way, there, hway, hthere, -, hn⟩
  obtain ⟨above, ha⟩ := walk_of_prefix hway hw
  obtain ⟨between, hb, hup⟩ := walk_concat_ok_iff.mp ha
  have hb' := h.walk hb
  rw [h.home, hb'] at hthere
  cases hthere
  exact hn (walk_up_ok_iff.mp hup).1

/-- No part of a path that does not climb leads elsewhere than before, unless to something new. -/
theorem walk_prefix_back (hup : ¬t.Climbs t' p) (hcs : cs <+: p.components)
    (hw : t'.walk t'.home cs = .ok place) :
    t.walk t.home cs = .ok place ∨ t.root.at? place = none := by
  induction cs using List.reverseRecOn generalizing place with
  | nil =>
    cases hw
    exact .inl (congrArg Except.ok h.home.symm)
  | append_singleton cs c ih =>
    obtain ⟨between, hb, hc⟩ := walk_concat_ok_iff.mp hw
    have ih := ih ((List.prefix_append cs [c]).trans hcs) hb
    simp only [walk_concat_ok_iff]
    cases c with
    | root =>
      cases cs with
      | nil => exact .inl ⟨t.home, rfl, hc⟩
      | cons first cs =>
        obtain ⟨rest, hrest⟩ := hcs
        refine absurd ?_ (Path.root_notMem_tail p)
        simp [← hrest]
    | here =>
      obtain rfl : between = place := Except.ok.inj hc
      exact ih.imp_left fun hb ↦ ⟨between, hb, rfl⟩
    | up =>
      obtain ⟨hd, hplace⟩ := walk_up_ok_iff.mp hc
      have hd' : t.DirAt between := by
        by_contra hn
        exact hup ⟨cs, between, hcs, hb, hd, hn⟩
      have hb := ih.resolve_right (at?_ne_none_iff.mpr (.inl hd'))
      exact .inl ⟨between, hb, walk_up_ok_iff.mpr ⟨hd', hplace⟩⟩
    | name s =>
      obtain ⟨hd, hs, hplace⟩ := walk_name_ok_iff.mp hc
      cases hplace
      by_cases hnew : t.root.at? (between ++ [s]) = none
      · exact .inr hnew
      · have hd' := dirAt_of_at?_concat hnew
        have hb := ih.resolve_right (at?_ne_none_iff.mpr (.inl hd'))
        exact .inl ⟨between, hb, walk_name_ok_iff.mpr ⟨hd', hnew, rfl⟩⟩

/-- A path that does not climb leads where it led before, or to something new. -/
theorem walk_back (hup : ¬t.Climbs t' p) (hw : t'.walk t'.home p.components = .ok place) :
    t.walk t.home p.components = .ok place ∨ t.root.at? place = none :=
  h.walk_prefix_back hup (List.prefix_refl _) hw

theorem locate (hl : t.locate p = .ok (place, n)) : ∃ n', t'.locate p = .ok (place, n') := by
  obtain ⟨hp, hw, hn, hm⟩ := locate_ok_iff.mp hl
  have hw' : t'.walk t'.home p.components = .ok place := by
    rw [h.home]
    exact h.walk hw
  cases n with
  | file content =>
    obtain ⟨content', hf⟩ := h.file hn
    exact ⟨_, locate_ok_iff.mpr ⟨hp, hw', hf, hm⟩⟩
  | dir entries =>
    obtain ⟨entries', hd⟩ := h.dir ⟨entries, hn⟩
    exact ⟨_, locate_ok_iff.mpr ⟨hp, hw', hd, fun _ ↦ rfl⟩⟩

theorem canonical (hl : t.locate p = .ok (place, n)) : t'.canonical p = t.canonical p := by
  obtain ⟨n', hl'⟩ := h.locate hl
  simp only [FileTree.canonical, hl, hl']

section

variable (hup : ¬t.Climbs t' p) (hname : p.fileName? = some name)
  (hf : ∀ above, above ++ [name] ∉ files)

include hup hname hf

theorem locate_file_iff :
    t'.locate p = .ok (place, .file content) ↔ t.locate p = .ok (place, .file content) := by
  obtain ⟨above, hc⟩ := Path.fileName?_eq_some_iff.mp hname
  -- the place ends with the name, so it is none of those that were written to
  have hplace {u : FileTree} (hw : u.walk u.home p.components = .ok place) : place ∉ files := by
    rw [hc] at hw
    obtain ⟨between, -, hn⟩ := walk_concat_ok_iff.mp hw
    obtain ⟨-, -, hn⟩ := walk_name_ok_iff.mp hn
    cases hn
    exact hf between
  constructor
  · intro hl
    obtain ⟨hp, hw, hn, hm⟩ := locate_ok_iff.mp hl
    have hold : t.FileAt place content := h.old hn (hplace hw)
    rcases h.walk_back hup hw with hw | hnew
    · exact locate_ok_iff.mpr ⟨hp, hw, hold, hm⟩
    · exact absurd (at?_ne_none_iff.mpr (.inr ⟨content, hold⟩)) (not_not.mpr hnew)
  · intro hl
    exact h.locate_file hl (hplace (locate_ok_iff.mp hl).2.1)

theorem isFile : t'.isFile p = t.isFile p := by
  rw [Bool.eq_iff_iff, isFile_iff, isFile_iff]
  simp only [h.locate_file_iff hup hname hf]

theorem readText (hp : t.isFile p) : t'.readText p = t.readText p := by
  obtain ⟨place, content, hl⟩ := isFile_iff.mp hp
  have hl' := (h.locate_file_iff hup hname hf).mpr hl
  simp only [FileTree.readText, hl, hl']

theorem source (hp : t.isFile p) : t'.source p = t.source p := by
  rw [FileTree.source, FileTree.source, h.readText hup hname hf hp]

end

end Written

theorem mem_goNames_iff (ht : t.WellFormed) : name ∈ t.goNames dir ↔
    dir.text ≠ "" ∧ Path.IsName name ∧ isPackageFile name ∧ t.isFile (dir.join ⟨name⟩) := by
  rw [goNames, List.mem_filter, Bool.and_eq_true]
  constructor
  · rintro ⟨hn, hg, hf⟩
    unfold namesIn at hn
    split at hn
    · rename_i place entries hl
      obtain ⟨hd, -, hplace, -⟩ := locate_ok_iff.mp hl
      have hname := (contains_entries hplace).mp (Dict.contains_iff.mpr hn)
      exact ⟨hd, ht.named hname, hg, hf⟩
    · cases hn
  · rintro ⟨hd, hname, hg, hf⟩
    refine ⟨?_, hg, hf⟩
    obtain ⟨place, content, hl⟩ := isFile_iff.mp hf
    obtain ⟨-, hw, -, -⟩ := locate_ok_iff.mp hl
    rw [Path.components_join_name dir hname] at hw
    obtain ⟨between, hw, hn⟩ := walk_concat_ok_iff.mp hw
    obtain ⟨⟨entries, he⟩, hn, -⟩ := walk_name_ok_iff.mp hn
    have hl : t.locate dir = .ok (between, .dir entries) :=
      locate_ok_iff.mpr ⟨hd, hw, he, fun _ ↦ rfl⟩
    simp only [namesIn, hl]
    exact Dict.contains_iff.mp ((contains_entries he).mpr hn)

/-- Nothing that a search for declarations reads is among the files. -/
def Unread (files : Set (List String)) : Prop :=
  ∀ above name, above ++ [name] ∈ files → name ≠ "go.mod" ∧ ¬isPackageFile name

namespace Written

variable (h : t.Written files dirs t') (ht : t.WellFormed) (hf : Unread files)
  (hup : ¬t.Climbs t' dir)

include h ht hf hup

theorem goNames : t'.goNames dir = t.goNames dir := by
  have hm (name : String) : name ∈ t'.goNames dir ↔ name ∈ t.goNames dir := by
    rw [mem_goNames_iff ht, mem_goNames_iff (h.sound ht)]
    refine and_congr_right fun _ ↦ and_congr_right fun hn ↦ and_congr_right fun hg ↦ ?_
    have hname : (dir.join ⟨name⟩).fileName? = some name :=
      Path.fileName?_eq_some_iff.mpr ⟨_, Path.components_join_name dir hn⟩
    rw [h.isFile (not_climbs_join hn hup) hname fun above ha ↦ (hf above name ha).2 hg]
  have ho := ht.ordered.goNames dir
  have ho' := (h.sound ht).ordered.goNames dir
  have hperm := (List.perm_ext_iff_of_nodup (ho'.imp ne_of_lt) (ho.imp ne_of_lt)).mpr hm
  exact hperm.eq_of_pairwise (fun a b _ _ hab hba ↦ absurd hab (lt_asymm hba)) ho' ho

theorem goFiles : t'.goFiles dir = t.goFiles dir := by
  rw [FileTree.goFiles, FileTree.goFiles, h.goNames ht hf hup]

theorem source_of_mem_goFiles (hp : p ∈ t.goFiles dir) : t'.source p = t.source p := by
  have hfile := isFile_of_mem_goFiles hp
  obtain ⟨name, hn, rfl⟩ := List.mem_map.mp hp
  obtain ⟨-, hname, hg, -⟩ := (mem_goNames_iff ht).mp hn
  exact h.source (not_climbs_join hname hup)
    (Path.fileName?_eq_some_iff.mpr ⟨_, Path.components_join_name dir hname⟩)
    (fun above ha ↦ (hf above name ha).2 hg) hfile

theorem declaredUnder (name : String) : t'.declaredUnder name dir = t.declaredUnder name dir := by
  rw [declaredUnder_eq, declaredUnder_eq, h.goFiles ht hf hup]
  apply firstFound_congr
  intro before p after he _
  have hp : p ∈ t.goFiles dir := by simp [he]
  rw [declaredAt, declaredAt, h.source_of_mem_goFiles ht hf hup hp]

theorem sources? (hd : t.isDir dir) : t'.sources? dir = t.sources? dir := by
  rw [FileTree.sources?, FileTree.sources?, if_pos hd, if_pos (h.isDir hd),
    h.goFiles ht hf hup]
  have hs : ∀ p ∈ t.goFiles dir, t'.source p = t.source p :=
    fun p hp ↦ h.source_of_mem_goFiles ht hf hup hp
  generalize t.goFiles dir = ps at hs
  induction ps with
  | nil => rfl
  | cons p ps ih =>
    rw [List.forall_mem_cons] at hs
    rw [List.mapM_cons, List.mapM_cons, hs.1, ih hs.2]

end Written

end FileTree

end GoOpenApi
