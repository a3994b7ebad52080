import GoOpenApi.CommandLine.Options
import GoOpenApi.Generation
import GoOpenApi.Proofs.Files.Reading
import Mathlib.Data.List.Find

/-!
The layout of a project and what it declares stay as they are when files are written that no search
reads, and no path leads up out of a directory that was made for them.
-/

namespace GoOpenApi

namespace Path

theorem components_of_mem_ancestors {p dir : Path} (h : dir ∈ p.ancestors) :
    dir.components <+: p.components := by
  unfold ancestors at h
  generalize p.placed.length = n at h
  induction n generalizing p with
  | zero =>
    obtain rfl := List.mem_singleton.mp h
    exact List.prefix_refl _
  | succ n ih =>
    rw [ancestorsWithin] at h
    split at h
    · rename_i q hq
      rcases List.mem_cons.mp h with rfl | h
      · exact List.prefix_refl _
      · refine (ih h).trans ?_
        rw [components_parent hq]
        exact List.dropLast_prefix _
    · obtain rfl := List.mem_singleton.mp h
      exact List.prefix_refl _

theorem below?_eq_none {base p : Path} (h : ¬base.components <+: p.components) :
    below? base p = none := by
  rw [below?, if_neg]
  rwa [List.isPrefixOf_iff_prefix]

theorem prefix_of_map_name {place names : List String}
    (h : names.map Component.name <+: place.map Component.name) : names <+: place := by
  rw [List.prefix_iff_eq_take, List.length_map, List.map_take.symm] at h
  rw [List.map_injective_iff.mpr (fun _ _ ↦ Component.name.inj) h]
  exact List.take_prefix _ _

end Path

namespace FileTree

variable {t t' : FileTree} {p : Path} {place names : List String} {files dirs : Set (List String)}

theorem dirAt_of_prefix (hp : names <+: place) (h : t.DirAt place) : t.DirAt names := by
  obtain ⟨rest, rfl⟩ := hp
  obtain ⟨entries, h⟩ := h
  rw [Node.at?_append] at h
  obtain ⟨n, hn, h⟩ := Option.bind_eq_some_iff.mp h
  cases n with
  | dir entries => exact ⟨entries, hn⟩
  | file content => cases rest <;> cases h

theorem WellFormed.isName (ht : t.WellFormed) (h : t.root.at? place ≠ none) :
    ∀ s ∈ place, Path.IsName s := by
  intro s hs
  obtain ⟨above, below, rfl⟩ := List.append_of_mem hs
  have hs : t.root.at? (above ++ [s]) ≠ none := by
    intro hn
    rw [List.append_cons, Node.at?_append, hn] at h
    exact h rfl
  exact ht.named hs

theorem walk_names {here : List String} (h : t.DirAt (here ++ names)) :
    t.walk here (names.map .name) = .ok (here ++ names) := by
  induction names generalizing here with
  | nil => simp [walk]
  | cons name names ih =>
    rw [List.append_cons] at h ⊢
    have hname := dirAt_of_prefix (List.prefix_append _ _) h
    have hhere := dirAt_of_prefix (List.prefix_append _ _) hname
    exact walk_name_ok_iff.mpr ⟨hhere, at?_ne_none_iff.mpr (.inl hname), ih h⟩

/-- There is something at the path, or it is empty. -/
def Known (t : FileTree) (p : Path) : Prop := p.text = "" ∨ ∃ place n, t.locate p = .ok (place, n)

/-- A path that begins the path of a directory leads to one above it. -/
theorem known_above (h : t.DirAt place) (hp : p.components <+: .root :: place.map .name) :
    t.Known p := by
  by_cases ht : p.text = ""
  · exact .inl ht
  · obtain ⟨c, cs, hc⟩ := List.exists_cons_of_ne_nil (mt Path.components_nil_iff.mp ht)
    rw [hc, List.cons_prefix_cons] at hp
    obtain ⟨rfl, hp⟩ := hp
    obtain ⟨above, habove, rfl⟩ : ∃ above, above <+: place ∧ cs = above.map .name := by
      rw [List.prefix_iff_eq_take, ← List.map_take] at hp
      exact ⟨_, List.take_prefix _ _, hp⟩
    obtain ⟨entries, he⟩ := dirAt_of_prefix habove h
    refine .inr ⟨above, _, locate_ok_iff.mpr ⟨ht, ?_, he, fun _ ↦ rfl⟩⟩
    rw [hc]
    exact walk_names ⟨entries, he⟩

theorem known_of_isDir (h : t.isDir p) : t.Known p := by
  obtain ⟨place, entries, hl⟩ := isDir_iff.mp h
  exact .inr ⟨place, _, hl⟩

/-- The path of a directory without dots is that of its place. -/
theorem exists_canonical (ht : t.WellFormed) (hp : t.isDir p) : ∃ place, t.DirAt place ∧
    t.canonical p = pathOf place ∧ (pathOf place).components = .root :: place.map .name := by
  obtain ⟨place, entries, hl⟩ := isDir_iff.mp hp
  have hd : t.DirAt place := ⟨entries, (locate_ok_iff.mp hl).2.2.1⟩
  refine ⟨place, hd, by simp only [canonical, hl], ?_⟩
  exact Path.components_pathOf (ht.isName (at?_ne_none_iff.mpr (.inl hd)))

theorem known_of_mem_ancestors {dir : Path} (ht : t.WellFormed) (hp : t.isDir p)
    (hd : dir ∈ (t.canonical p).ancestors) : t.Known dir := by
  obtain ⟨place, hplace, hc, hcs⟩ := exists_canonical ht hp
  have hprefix := Path.components_of_mem_ancestors hd
  rw [hc, hcs] at hprefix
  exact known_above hplace hprefix

namespace Written

variable (h : t.Written files dirs t')

include h

theorem not_climbs_of_known (hp : t.Known p) : ¬t.Climbs t' p := by
  rcases hp with hp | ⟨place, n, hl⟩
  · apply not_climbs_of_notMem
    simp [Path.components_nil_iff.mpr hp]
  · exact h.not_climbs_of_walk (locate_ok_iff.mp hl).2.1

theorem canonical_of_known (hp : t.Known p) : t'.canonical p = t.canonical p := by
  rcases hp with hp | ⟨place, n, hl⟩
  · simp only [FileTree.canonical, locate_of_empty hp]
  · exact h.canonical hl

/-- Where a directory lies below another one does not change, though that one may be new. -/
theorem below_canonical (ht : t.WellFormed) (hup : ¬t.Climbs t' p) (hd : t.DirAt place) :
    Path.below? (t'.canonical p) (pathOf place) = Path.below? (t.canonical p) (pathOf place) := by
  by_cases hk : t.Known p
  · rw [h.canonical_of_known hk]
  · have hc := Path.components_pathOf (ht.isName (at?_ne_none_iff.mpr (.inl hd)))
    have hp : Path.below? p (pathOf place) = none := by
      apply Path.below?_eq_none
      rw [hc]
      exact fun hp ↦ hk (known_above hd hp)
    have hcanon : t.canonical p = p := by
      unfold FileTree.canonical
      split
      · exact absurd (.inr ⟨_, _, ‹_›⟩) hk
      · rfl
    rw [hcanon, hp]
    unfold FileTree.canonical
    split
    · rename_i there n hl
      obtain ⟨htext, hw, hn, -⟩ := locate_ok_iff.mp hl
      have hthere : t'.root.at? there ≠ none := by simp [hn]
      apply Path.below?_eq_none
      rw [hc, Path.components_pathOf ((h.sound ht).isName hthere), List.cons_prefix_cons]
      rintro ⟨-, hprefix⟩
      -- what lies above an old directory is old, so the path led there before
      have hold := dirAt_of_prefix (Path.prefix_of_map_name hprefix) hd
      rcases h.walk_back hup hw with hw | hnew
      · obtain ⟨entries, he⟩ := hold
        exact hk (.inr ⟨there, _, locate_ok_iff.mpr ⟨htext, hw, he, fun _ ↦ rfl⟩⟩)
      · exact at?_ne_none_iff.mpr (.inl hold) hnew
    · exact hp

end Written

end FileTree

namespace Layout

variable {t t' : FileTree} {files dirs : Set (List String)} {env : Environment} {l : Layout}
  {root start dir : Path}

theorem root_discover (hl : discover t env root = .ok l) : l.root = root := by
  unfold discover at hl
  dsimp only at hl
  split at hl
  · cases hr : t.readText (root.join ⟨"go.mod"⟩) with
    | error fault =>
      rw [hr] at hl
      cases hl
    | ok text =>
      rw [hr] at hl
      cases hl
      rfl
  · cases hl
    rfl

section

variable (h : t.Written files dirs t')

include h

theorem importPathOf_written (ht : t.WellFormed) (hdir : t.isDir dir) (hroot : t.Known l.root)
    (hup : ¬t.Climbs t' l.vendorDir) : l.importPathOf t' dir = l.importPathOf t dir := by
  obtain ⟨place, hd, hc, -⟩ := FileTree.exists_canonical ht hdir
  rw [importPathOf, importPathOf, h.canonical_of_known (FileTree.known_of_isDir hdir),
    h.canonical_of_known hroot, hc]
  simp only [h.below_canonical ht hup hd]

theorem goMod_written (hf : FileTree.Unread files) (hup : ¬t.Climbs t' dir) :
    t'.isFile (dir.join ⟨"go.mod"⟩) = t.isFile (dir.join ⟨"go.mod"⟩) ∧
      (t.isFile (dir.join ⟨"go.mod"⟩) →
        t'.readText (dir.join ⟨"go.mod"⟩) = t.readText (dir.join ⟨"go.mod"⟩)) := by
  have hn : Path.IsName "go.mod" := by unfold Path.IsName; decide
  have hname := Path.fileName?_eq_some_iff.mpr ⟨_, Path.components_join_name dir hn⟩
  have hwritten : ∀ above, above ++ ["go.mod"] ∉ files := fun above ha ↦ (hf above _ ha).1 rfl
  have hup' := FileTree.not_climbs_join hn hup
  exact ⟨h.isFile hup' hname hwritten, h.readText hup' hname hwritten⟩

theorem discover_written (hf : FileTree.Unread files) (hroot : t.Known root) :
    discover t' env root = discover t env root := by
  obtain ⟨hfile, hread⟩ := goMod_written h hf (h.not_climbs_of_known hroot)
  unfold discover
  simp only [hfile]
  split
  · rw [hread ‹_›]
  · rfl

theorem findRoot?_written (hf : FileTree.Unread files) (ht : t.WellFormed) (hs : t.isDir start) :
    findRoot? t' start = findRoot? t start := by
  rw [findRoot?, findRoot?, h.canonical_of_known (FileTree.known_of_isDir hs)]
  apply List.find?_congr
  intro dir hdir
  have hk := FileTree.known_of_mem_ancestors ht hs hdir
  exact (goMod_written h hf (h.not_climbs_of_known hk)).1

end

end Layout

namespace Project

variable {p p' : Project} {q : QualifiedName} {files dirs : Set (List String)}

/-- The search for a declared type comes to a directory. -/
def Searches (p : Project) (q : QualifiedName) (dir : Path) : Prop :=
  ∃ before step after, SearchStep.all = before ++ step :: after ∧
    (∀ earlier ∈ before, p.declaredBy q earlier = some none) ∧
    p.layout.candidate? step q.package = some dir

theorem declared?_written (hl : p'.layout = p.layout)
    (h : p.files.Written files dirs p'.files) (ht : p.files.WellFormed)
    (hf : FileTree.Unread files) (hup : ∀ dir, p.Searches q dir → ¬p.files.Climbs p'.files dir) :
    p'.declared? q = p.declared? q := by
  apply firstFound_congr
  intro before step after he hn
  rw [declaredBy, declaredBy, hl]
  cases hc : p.layout.candidate? step q.package with
  | none => rfl
  | some dir => exact h.declaredUnder ht hf (hup dir ⟨before, step, after, he, hn, hc⟩) q.name

end Project

namespace CommandLine.Options

variable {o : Options} {t t' : FileTree} {env : Environment} {l : Layout}
  {files dirs : Set (List String)}

theorem check_ok_iff :
    o.check t = .ok () ↔ t.isDir o.services ∧ ∀ root ∈ o.root?, t.isDir root := by
  have hd : t.isDir o.services → t.doesExist o.services := by
    intro h
    obtain ⟨place, entries, hl⟩ := FileTree.isDir_iff.mp h
    simp [FileTree.doesExist, hl]
  by_cases hs : t.isDir o.services
  · cases hr : o.root? with
    | none => simp [check, hs, hd hs, hr]
    | some root => by_cases hdir : t.isDir root <;> simp [check, hs, hd hs, hr, hdir]
  · by_cases he : t.doesExist o.services <;> simp [check, hs, he]

theorem known_moduleRoot (hc : o.check t = .ok ()) (ht : t.WellFormed) :
    t.Known (o.moduleRoot t) := by
  obtain ⟨hs, hr⟩ := check_ok_iff.mp hc
  unfold moduleRoot
  cases hroot : o.root? with
  | some root => exact FileTree.known_of_isDir (hr root hroot)
  | none =>
    cases hfind : Layout.findRoot? t o.services with
    | none => exact FileTree.known_of_isDir hs
    | some root =>
      exact FileTree.known_of_mem_ancestors ht hs (List.mem_of_find?_eq_some hfind)

theorem root_layout (h : o.layout t env = .ok l) : l.root = o.moduleRoot t := by
  unfold layout at h
  split at h
  · rename_i hl
    have hroot := Layout.root_discover hl
    cases h
    exact hroot
  · cases h

section

variable (h : t.Written files dirs t') (hc : o.check t = .ok ())

include h hc

theorem check_written : o.check t' = .ok () := by
  obtain ⟨hs, hr⟩ := check_ok_iff.mp hc
  exact check_ok_iff.mpr ⟨h.isDir hs, fun root hm ↦ h.isDir (hr root hm)⟩

theorem layout_written (ht : t.WellFormed) (hf : FileTree.Unread files) :
    o.layout t' env = o.layout t env := by
  have hroot : o.moduleRoot t' = o.moduleRoot t := by
    rw [moduleRoot, moduleRoot, Layout.findRoot?_written h hf ht (check_ok_iff.mp hc).1]
  rw [layout, layout, hroot, Layout.discover_written h hf (known_moduleRoot hc ht)]

end

end CommandLine.Options

end GoOpenApi
