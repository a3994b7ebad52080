import GoOpenApi.Proofs.Module.Mapping
import GoOpenApi.Proofs.Module.Unchanged

/-!
The way back from import paths to directories. The import path of a directory below the module or
the vendor directory leads back to it; that of any other directory is read as a path below the
module, and leads elsewhere.
-/

namespace GoOpenApi

namespace Path

variable {names : List String}

theorem slashed_names (names : List String) : slashed (names.map .name) = Text.join "/" names := by
  rw [slashed, List.filterMap_map]
  exact congrArg _ (List.filterMap_some)

theorem segments_join (h : ∀ s ∈ names, IsName s) :
    (Text.split '/' (Text.join "/" names)).filter (!·.isEmpty) = names := by
  have hj : (Text.join "/" names).toList = ['/'].intercalate (names.map String.toList) :=
    String.toList_intercalate
  rw [Text.split, hj]
  cases names with
  | nil => rfl
  | cons name names =>
    rw [Text.splitList_intercalate (by simp), List.map_map]
    · have he : (String.ofList ∘ String.toList) = id := funext fun s ↦ String.ofList_toList
      rw [he, List.map_id, List.filter_eq_self]
      intro s hs
      have hn := (isName_iff.mp (h s hs)).2
      by_contra hempty
      simp at hempty
      simp [hempty] at hn
    · intro piece hp
      obtain ⟨s, hs, rfl⟩ := List.mem_map.mp hp
      exact (isName_iff.mp (h s hs)).1

theorem isAbsolute_join (h : ∀ s ∈ names, IsName s) :
    isAbsolute ⟨Text.join "/" names⟩ = false := by
  cases names with
  | nil => rfl
  | cons name names =>
    obtain ⟨hslash, hne⟩ := isName_iff.mp (h name List.mem_cons_self)
    have hj : (Text.join "/" (name :: names)).toList =
        ['/'].intercalate ((name :: names).map String.toList) := String.toList_intercalate
    obtain ⟨c, cs, hc⟩ := List.exists_cons_of_ne_nil fun hn : name.toList = [] ↦ hne (by simp [hn])
    have hhead : (Text.join "/" (name :: names)).toList.head? = some c := by
      rw [hj, List.map_cons, hc]
      cases names <;> simp [List.intercalate_cons_cons]
    rw [isAbsolute, hhead, beq_eq_false_iff_ne]
    rintro ⟨⟩
    exact hslash (hc ▸ List.mem_cons_self)

theorem components_joinSegments (p : Path) (h : ∀ s ∈ names, IsName s) :
    (p.joinSegments (Text.join "/" names)).components = p.components ++ names.map .name := by
  rw [joinSegments, segments_join h]
  induction names generalizing p with
  | nil => simp
  | cons name names ih =>
    rw [List.forall_mem_cons] at h
    rw [List.foldl_cons, ih _ h.2, components_join_name p h.1, List.append_assoc]
    rfl

end Path

namespace FileTree

variable {t : FileTree} {p : Path} {place above there names : List String}

/-- There is a directory at the path, and this is its place. -/
def LeadsTo (t : FileTree) (p : Path) (place : List String) : Prop :=
  ∃ entries, t.locate p = .ok (place, .dir entries)

/-- There is a directory at the path, and the place is the same or below it. -/
def Holds (t : FileTree) (p : Path) (place : List String) : Prop :=
  ∃ above, t.LeadsTo p above ∧ above <+: place

theorem leadsTo_iff : t.LeadsTo p place ↔
    p.text ≠ "" ∧ t.walk t.home p.components = .ok place ∧ t.DirAt place := by
  simp only [LeadsTo, locate_ok_iff, DirAt]
  constructor
  · rintro ⟨entries, hp, hw, hn, -⟩
    exact ⟨hp, hw, entries, hn⟩
  · rintro ⟨hp, hw, entries, hn⟩
    exact ⟨entries, hp, hw, hn, fun _ ↦ rfl⟩

theorem LeadsTo.canonical_eq (h : t.LeadsTo p place) : t.canonical p = pathOf place := by
  obtain ⟨entries, hl⟩ := h
  simp only [canonical, hl]

theorem LeadsTo.dirAt (h : t.LeadsTo p place) : t.DirAt place := (leadsTo_iff.mp h).2.2

theorem LeadsTo.holds_iff (h : t.LeadsTo p above) : t.Holds p place ↔ above <+: place := by
  refine ⟨?_, fun hp ↦ ⟨above, h, hp⟩⟩
  rintro ⟨above', h', hp⟩
  obtain ⟨entries, hl⟩ := h
  obtain ⟨entries', hl'⟩ := h'
  obtain ⟨rfl, -⟩ := Prod.mk.inj (Except.ok.inj (hl.symm.trans hl'))
  exact hp

theorem WellFormed.isName_of_dirAt (ht : t.WellFormed) (h : t.DirAt place) :
    ∀ s ∈ place, Path.IsName s := ht.isName (at?_ne_none_iff.mpr (.inl h))

theorem walk_names_eq {here : List String} (h : t.walk here (names.map .name) = .ok there) :
    there = here ++ names := by
  induction names generalizing here with
  | nil =>
    cases h
    exact (List.append_nil _).symm
  | cons name names ih =>
    obtain ⟨-, -, h⟩ := walk_name_ok_iff.mp h
    rw [ih h, List.append_assoc]
    rfl

/-- Names joined to a path lead to the place below it. -/
theorem leadsTo_joinSegments_iff (hn : ∀ s ∈ names, Path.IsName s) (hp : p.text ≠ "") :
    t.LeadsTo (p.joinSegments (Text.join "/" names)) there ↔
      ∃ above, t.LeadsTo p above ∧ there = above ++ names ∧ t.DirAt there := by
  have hc := Path.components_joinSegments p hn
  have htext : (p.joinSegments (Text.join "/" names)).text ≠ "" := by
    rw [ne_eq, ← Path.components_nil_iff, hc, List.append_eq_nil_iff, Path.components_nil_iff]
    exact fun h ↦ hp h.1
  rw [leadsTo_iff, hc, walk_append]
  constructor
  · rintro ⟨-, hw, hd⟩
    cases hw' : t.walk t.home p.components with
    | error fault =>
      rw [hw'] at hw
      cases hw
    | ok above =>
      rw [hw'] at hw
      have he : there = above ++ names := walk_names_eq hw
      refine ⟨above, leadsTo_iff.mpr ⟨hp, hw', ?_⟩, he, hd⟩
      exact dirAt_of_prefix (he ▸ List.prefix_append _ _) hd
  · rintro ⟨above, hl, rfl, hd⟩
    obtain ⟨-, hw, -⟩ := leadsTo_iff.mp hl
    refine ⟨htext, ?_, hd⟩
    rw [hw]
    exact walk_names hd

/-- An empty path is no directory, but every path goes on from it. -/
theorem below?_canonical_of_not_holds (ht : t.WellFormed) (hp : p.text ≠ "") (hd : t.DirAt place)
    (hn : ¬t.Holds p place) : Path.below? (t.canonical p) (pathOf place) = none := by
  apply Path.below?_eq_none
  rw [Path.components_pathOf (ht.isName_of_dirAt hd)]
  intro hprefix
  cases hl : t.locate p with
  | error fault =>
    have hc : t.canonical p = p := by simp only [canonical, hl]
    rcases known_above hd (hc ▸ hprefix) with he | ⟨there, n, hk⟩
    · exact hp he
    · rw [hl] at hk
      cases hk
  | ok found =>
    obtain ⟨there, n⟩ := found
    obtain ⟨htext, hw, hthere, -⟩ := locate_ok_iff.mp hl
    have hc : t.canonical p = pathOf there := by simp only [canonical, hl]
    have hname : ∀ s ∈ there, Path.IsName s := ht.isName (by simp [hthere])
    rw [hc, Path.components_pathOf hname, List.cons_prefix_cons] at hprefix
    have habove := Path.prefix_of_map_name hprefix.2
    exact hn ⟨there, leadsTo_iff.mpr ⟨htext, hw, dirAt_of_prefix habove hd⟩, habove⟩

end FileTree

namespace Layout

variable {t : FileTree} {l : Layout} {dir : Path} {place above names : List String}

/-- The step maps the package to the directory at the place. -/
def Finds (l : Layout) (t : FileTree) (step : SearchStep) (package : String)
    (place : List String) : Prop :=
  ∃ dir, l.candidate? step package = some dir ∧ t.LeadsTo dir place

theorem packageDir_join (hn : ∀ s ∈ names, Path.IsName s) :
    l.packageDir (Text.join "/" names) = l.root.joinSegments (Text.join "/" names) := by
  rw [packageDir, Path.isAbsolute_join hn]
  rfl

/-- What is left of a package without the leading segments of the module is below the root. -/
theorem exists_localDir?_eq (hn : ∀ s ∈ names, Path.IsName s)
    (h : l.localDir? (Text.join "/" names) = some dir) :
    ∃ left, left <:+ names ∧ dir = l.root.joinSegments (Text.join "/" left) := by
  obtain ⟨module, -, h⟩ := Option.bind_eq_some_iff.mp h
  simp only [Path.segments_join hn] at h
  split at h
  · cases h
  · exact ⟨_, List.drop_suffix _ _, (Option.some.inj h).symm⟩

section

variable (ht : t.WellFormed)

include ht

variable (htext : l.vendorDir.text ≠ "")

include htext

section

variable (hr : t.LeadsTo l.root above) (hdir : t.LeadsTo dir (above ++ names))
  (hv : ¬t.Holds l.vendorDir (above ++ names))

include hr hdir hv

end

theorem importPathOf_outside (hrtext : l.root.text ≠ "") (hdir : t.LeadsTo dir place)
    (hr : ¬t.Holds l.root place) (hv : ¬t.Holds l.vendorDir place) :
    l.importPathOf t dir = Text.join "/" place := by
  rw [importPathOf, hdir.canonical_eq]
  simp only [FileTree.below?_canonical_of_not_holds ht htext hdir.dirAt hv,
    FileTree.below?_canonical_of_not_holds ht hrtext hdir.dirAt hr,
    Path.components_pathOf (ht.isName_of_dirAt hdir.dirAt)]
  rw [← Path.slashed_names]
  rfl

end

/-- A module with a vendor directory, and a package beside it. -/
def besideModule : FileTree :=
  .ofNodes ["tmp", "w"]
    [(⟨"app/go.mod"⟩, .file (.text "module m\n")),
      (⟨"app/pkg/service/service.go"⟩, .file (.text "package service\n")),
      (⟨"app/vendor/x.org/y/y.go"⟩, .file (.text "package y\n")),
      (⟨"other/user.go"⟩, .file (.text "package other\n\ntype User struct\x7b\x7d\n"))]

theorem besideModule_wellFormed : besideModule.WellFormed :=
  FileTree.wellFormed_ofFiles (by decide) (by simp [Node.isDir])

theorem besideModule_leadsTo {dir : Path} {place : List String} (hp : dir.text ≠ "")
    (hw : besideModule.walk besideModule.home dir.components = .ok place)
    (hn : (besideModule.root.at? place).map Node.content? = some none) :
    besideModule.LeadsTo dir place :=
  FileTree.leadsTo_iff.mpr ⟨hp, hw, FileTree.dirAt_iff.mpr hn⟩

/-- The layout of the module, whose root is given by a path that leads up. -/
def dottedRoot : Layout := .ofGoMod {} ⟨"app/pkg/.."⟩ (.parse "module m\n")

theorem dottedRoot_root : besideModule.LeadsTo dottedRoot.root ["tmp", "w", "app"] :=
  besideModule_leadsTo (by decide) (by decide +kernel) (by decide +kernel)

theorem dottedRoot_vendorDir :
    besideModule.LeadsTo dottedRoot.vendorDir ["tmp", "w", "app", "vendor"] :=
  besideModule_leadsTo (by decide) (by decide +kernel) (by decide +kernel)

/-- The import path of a directory outside both the module and the vendor directory consists of the
names on the way to it. The path itself is then read below the module, and no step but the one
through `go.mod` can lead back to the directory. -/
theorem importPathOf_outside_lost (l : Layout) (ht : t.WellFormed) (hdir : t.LeadsTo dir place)
    (hr : ¬t.Holds l.root place) (hv : ¬t.Holds l.vendorDir place) (hrtext : l.root.text ≠ "")
    (hvtext : l.vendorDir.text ≠ "") :
    l.importPathOf t dir = Text.join "/" place ∧
    (∀ there, l.Finds t .packageDir (l.importPathOf t dir) there ↔
      ∃ above, t.LeadsTo l.root above ∧ there = above ++ place ∧ t.DirAt there) ∧
    ∀ step, l.Finds t step (l.importPathOf t dir) place → step = .moduleMapping := by
  have hnames := ht.isName_of_dirAt hdir.dirAt
  have hpath := importPathOf_outside ht hvtext hrtext hdir hr hv
  have hpackage (there : List String) : l.Finds t .packageDir (l.importPathOf t dir) there ↔
      ∃ above, t.LeadsTo l.root above ∧ there = above ++ place ∧ t.DirAt there := by
    rw [← FileTree.leadsTo_joinSegments_iff hnames hrtext, ← packageDir_join hnames, hpath]
    simp [Finds, candidate?]
  refine ⟨hpath, hpackage, fun step hfound ↦ ?_⟩
  cases step with
  | moduleMapping => rfl
  | packageDir =>
    obtain ⟨above, habove, he, -⟩ := (hpackage place).mp hfound
    exact absurd ⟨above, habove, he ▸ List.prefix_append _ _⟩ hr
  | vendor =>
    obtain ⟨found, hf, hl⟩ := hfound
    rw [candidate?, hpath, Option.some_inj] at hf
    rw [← hf] at hl
    obtain ⟨above, habove, he, -⟩ := (FileTree.leadsTo_joinSegments_iff hnames hvtext).mp hl
    exact absurd ⟨above, habove, he ▸ List.prefix_append _ _⟩ hv
  | localPrefix =>
    obtain ⟨found, hf, hl⟩ := hfound
    rw [candidate?, hpath] at hf
    obtain ⟨left, hleft, rfl⟩ := exists_localDir?_eq hnames hf
    obtain ⟨above, habove, he, -⟩ :=
      (FileTree.leadsTo_joinSegments_iff (fun s hs ↦ hnames s (hleft.subset hs)) hrtext).mp hl
    exact absurd ⟨above, habove, he ▸ List.prefix_append _ _⟩ hr

/-- The package beside the module. -/
theorem dottedRoot_other : besideModule.LeadsTo ⟨"other"⟩ ["tmp", "w", "other"] ∧
    ¬besideModule.Holds dottedRoot.root ["tmp", "w", "other"] ∧
    ¬besideModule.Holds dottedRoot.vendorDir ["tmp", "w", "other"] :=
  ⟨besideModule_leadsTo (by decide) (by decide +kernel) (by decide +kernel),
    dottedRoot_root.holds_iff.not.mpr (by decide),
    dottedRoot_vendorDir.holds_iff.not.mpr (by decide)⟩

theorem dottedRoot_other_lost :
    besideModule.LeadsTo ⟨"other"⟩ ["tmp", "w", "other"] ∧
      dottedRoot.importPathOf besideModule ⟨"other"⟩ = "tmp/w/other" ∧
      ∀ step, dottedRoot.Finds besideModule step (dottedRoot.importPathOf besideModule ⟨"other"⟩)
        ["tmp", "w", "other"] → step = .moduleMapping := by
  obtain ⟨hother, hr, hv⟩ := dottedRoot_other
  obtain ⟨hpath, -, hstep⟩ := importPathOf_outside_lost dottedRoot besideModule_wellFormed hother
    hr hv (by decide) (by decide)
  exact ⟨hother, hpath, hstep⟩

/-- The package beside the module is outside both directories, and its import path is mapped to a
path at which there is no directory. -/
theorem dottedRoot_other_unfound :
    (besideModule.LeadsTo ⟨"other"⟩ ["tmp", "w", "other"] ∧
      ¬besideModule.Holds dottedRoot.root ["tmp", "w", "other"] ∧
      ¬besideModule.Holds dottedRoot.vendorDir ["tmp", "w", "other"]) ∧
    dottedRoot.importPathOf besideModule ⟨"other"⟩ = "tmp/w/other" ∧
    dottedRoot.candidate? .packageDir "tmp/w/other" = some ⟨"app/pkg/../tmp/w/other"⟩ ∧
    besideModule.isDir ⟨"app/pkg/../tmp/w/other"⟩ = false ∧
    ¬dottedRoot.Finds besideModule .packageDir (dottedRoot.importPathOf besideModule ⟨"other"⟩)
      ["tmp", "w", "other"] := by
  have hpath : dottedRoot.importPathOf besideModule ⟨"other"⟩ = "tmp/w/other" := by decide +kernel
  have hdir : dottedRoot.candidate? .packageDir "tmp/w/other" =
      some ⟨"app/pkg/../tmp/w/other"⟩ := by decide +kernel
  have hnone : besideModule.isDir ⟨"app/pkg/../tmp/w/other"⟩ = false := by decide +kernel
  refine ⟨dottedRoot_other, hpath, hdir, hnone, ?_⟩
  rintro ⟨dir, hd, entries, hl⟩
  rw [hpath, hdir, Option.some_inj] at hd
  rw [← hd] at hl
  exact absurd (FileTree.isDir_iff.mpr ⟨_, entries, hl⟩) (by simp [hnone])

end Layout

end GoOpenApi
