import GoOpenApi.Module.Project
import GoOpenApi.Proofs.Action
import GoOpenApi.Proofs.Files.Path

/-!
The search for a declaration in a tree of files that does not change. What has been read before
makes no difference to what a search finds.
-/

namespace GoOpenApi

namespace FileTree

variable {t : FileTree} {p p' : Path} {place : List String}

theorem locate_of_empty (hp : p.text = "") : t.locate p = .error .notFound := by
  simp [locate, hp]

theorem locate_of_walk_error {fault : FileFault} (hp : p.text ≠ "")
    (hw : t.walk t.home p.components = .error fault) : t.locate p = .error fault := by
  simp [locate, hp, hw]

section

variable (hp : p.text ≠ "") (hw : t.walk t.home p.components = .ok place)

include hp hw

theorem locate_of_none (hn : t.root.at? place = none) : t.locate p = .error .notFound := by
  simp [locate, hp, hw, hn]

theorem locate_of_some {n : Node} (hn : t.root.at? place = some n) :
    t.locate p =
      if meansDirectory p && !n.isDir then .error .notDirectory else .ok (place, n) := by
  cases n <;> simp [locate, hp, hw, hn, Node.isDir]

end

theorem locate_ok_iff {n : Node} :
    t.locate p = .ok (place, n) ↔ p.text ≠ "" ∧ t.walk t.home p.components = .ok place ∧
      t.root.at? place = some n ∧ (meansDirectory p → n.isDir) := by
  constructor
  · intro h
    by_cases hp : p.text = ""
    · rw [locate_of_empty hp] at h
      cases h
    · cases hw : t.walk t.home p.components with
      | error fault =>
        rw [locate_of_walk_error hp hw] at h
        cases h
      | ok here =>
        cases hn : t.root.at? here with
        | none =>
          rw [locate_of_none hp hw hn] at h
          cases h
        | some n' =>
          rw [locate_of_some hp hw hn] at h
          split at h
          · cases h
          · rename_i hm
            cases h
            exact ⟨hp, rfl, hn, by simpa using hm⟩
  · rintro ⟨hp, hw, hn, hm⟩
    rw [locate_of_some hp hw hn, if_neg (by simpa using hm)]

theorem isDir_iff : t.isDir p ↔ ∃ place entries, t.locate p = .ok (place, .dir entries) := by
  unfold isDir
  split <;> simp_all

theorem isFile_iff : t.isFile p ↔ ∃ place content, t.locate p = .ok (place, .file content) := by
  unfold isFile
  split <;> simp_all

theorem meansDirectory_of_isFile (h : t.isFile p) : meansDirectory p = false := by
  obtain ⟨place, content, h⟩ := isFile_iff.mp h
  obtain ⟨-, -, -, hm⟩ := locate_ok_iff.mp h
  simpa [Node.isDir] using hm

section

variable (h : p.components = p'.components)

include h

theorem text_eq_empty_congr : p.text = "" ↔ p'.text = "" := by
  rw [← Path.components_nil_iff, ← Path.components_nil_iff, h]

theorem locate_congr (hm : meansDirectory p = meansDirectory p') :
    t.locate p = t.locate p' := by
  have he : p.text.isEmpty = p'.text.isEmpty := by
    rw [Bool.eq_iff_iff, String.isEmpty_iff, String.isEmpty_iff, text_eq_empty_congr h]
  simp only [locate, he, h, hm]

theorem locate_dir_congr {entries : List (String × Node)}
    (hl : t.locate p = .ok (place, .dir entries)) : t.locate p' = .ok (place, .dir entries) := by
  obtain ⟨hp, hw, hn, -⟩ := locate_ok_iff.mp hl
  exact locate_ok_iff.mpr ⟨mt (text_eq_empty_congr h).mpr hp, h ▸ hw, hn, fun _ ↦ rfl⟩

theorem isDir_congr : t.isDir p = t.isDir p' := by
  rw [Bool.eq_iff_iff, isDir_iff, isDir_iff]
  exact ⟨fun ⟨place, entries, hl⟩ ↦ ⟨place, entries, locate_dir_congr h hl⟩,
    fun ⟨place, entries, hl⟩ ↦ ⟨place, entries, locate_dir_congr h.symm hl⟩⟩

theorem namesIn_congr (hd : t.isDir p) : t.namesIn p = t.namesIn p' := by
  obtain ⟨place, entries, hl⟩ := isDir_iff.mp hd
  simp only [namesIn, hl, locate_dir_congr h hl]

theorem isFile_congr (hm : meansDirectory p = meansDirectory p') : t.isFile p = t.isFile p' := by
  simp only [isFile, locate_congr h hm]

theorem source_congr (hm : meansDirectory p = meansDirectory p') {file : SourceFile}
    (hs : t.source p = .ok file) : t.source p' = .ok file := by
  have hr : t.readText p' = t.readText p := by simp only [readText, locate_congr h hm]
  unfold source at hs ⊢
  rw [hr]
  cases ht : t.readText p with
  | error fault => simp [ht] at hs
  | ok text =>
    cases hf : SourceFile.parse? text with
    | none => simp [ht, hf] at hs
    | some file' => simpa [ht, hf] using hs

end

theorem lastPiece_join (p q : Path) : lastPiece (p.join q) = lastPiece q := by
  have hl (as : List Char) :
      ((Text.splitList (· == '/') (as ++ '/' :: q.text.toList)).getLast?).getD [] =
        lastPiece q := by
    obtain ⟨piece, pieces, hs⟩ := Text.splitList_eq_cons (· == '/') q.text.toList
    rw [Text.splitList_append rfl, lastPiece, hs, List.getLast?_append, List.getLast?_cons]
    rfl
  unfold Path.join
  split
  · rfl
  · by_cases hp : p.text = ""
    · simp [hp]
    · by_cases hs : p.text.toList.getLast? = some '/'
      · obtain ⟨as, ha⟩ := List.getLast?_eq_some_iff.mp hs
        simpa [hs, lastPiece, ha] using hl as
      · simpa [hs, hp, lastPiece] using hl p.text.toList

end FileTree

/-- What the first place of a list says that says something; none if a place before it cannot be
read. -/
def firstFound (look : α → Option (Option β)) : List α → Option (Option β)
  | [] => some none
  | a :: as => match look a with
    | none => none
    | some (some b) => some (some b)
    | some none => firstFound look as

section

variable {look look' : α → Option (Option β)} {a : α} {as : List α}

theorem firstFound_of_fault (h : look a = none) : firstFound look (a :: as) = none := by
  simp [firstFound, h]

theorem firstFound_of_found {b : β} (h : look a = some (some b)) :
    firstFound look (a :: as) = some (some b) := by
  simp [firstFound, h]

theorem firstFound_of_nothing (h : look a = some none) :
    firstFound look (a :: as) = firstFound look as := by
  simp [firstFound, h]

theorem firstFound_mem {b : β} (h : firstFound look as = some (some b)) :
    ∃ a ∈ as, look a = some (some b) := by
  induction as with
  | nil => simp [firstFound] at h
  | cons a as ih =>
    rcases hl : look a with _ | _ | b'
    · simp [firstFound_of_fault hl] at h
    · obtain ⟨a', ha', hb⟩ := ih (firstFound_of_nothing hl ▸ h)
      exact ⟨a', List.mem_cons_of_mem _ ha', hb⟩
    · rw [firstFound_of_found hl] at h
      exact ⟨a, List.mem_cons_self, by rw [hl, h]⟩

theorem firstFound_append (as as' : List α) :
    firstFound look (as ++ as') = match firstFound look as with
      | some none => firstFound look as'
      | found => found := by
  induction as with
  | nil => rfl
  | cons a as ih =>
    rcases hl : look a with _ | _ | b
    · rw [List.cons_append, firstFound_of_fault hl, firstFound_of_fault hl]
    · rw [List.cons_append, firstFound_of_nothing hl, firstFound_of_nothing hl, ih]
    · rw [List.cons_append, firstFound_of_found hl, firstFound_of_found hl]

theorem firstFound_map {f : β → γ} (as : List α) :
    firstFound (fun a ↦ (look a).map (·.map f)) as = (firstFound look as).map (·.map f) := by
  induction as with
  | nil => rfl
  | cons a as ih => rcases hl : look a with _ | _ | b <;> simp [firstFound, hl, ih]

theorem firstFound_flatMap {look : β → Option (Option γ)} (parts : α → List β) (as : List α) :
    firstFound look (as.flatMap parts) =
      firstFound (fun a ↦ firstFound look (parts a)) as := by
  induction as with
  | nil => rfl
  | cons a as ih =>
    rw [List.flatMap_cons, firstFound_append, ih, firstFound]
    rcases firstFound look (parts a) with _ | _ | c <;> rfl

end

namespace FileTree

variable (t : FileTree) (name : String)

/-- What a file says about a name. -/
def declaredAt (p : Path) : Option (Option Declaration) :=
  (t.source p).toOption.map (·.find? name)

/-- What a file says about a name, with the place of the file. -/
def foundAt (p : Path) : Option (Option (Declaration × List Path.Component)) :=
  (t.declaredAt name p).map (·.map (·, p.components))

/-- What a directory says about a name. -/
def declaredUnder (dir : Path) : Option (Option Declaration) :=
  if t.isDir dir then (t.packageFiles dir).toOption.bind (firstFound (t.declaredAt name))
  else some none

/-- The names of the Go files of a package directory that are no tests; none where there is no
directory. -/
def goNames (dir : Path) : List String :=
  (t.namesIn dir).filter fun name ↦ isPackageFile name && t.isFile (dir.join ⟨name⟩)

def goFiles (dir : Path) : List Path := (t.goNames dir).map fun name ↦ dir.join ⟨name⟩

/-- What stands in the Go files of a directory; none if there is no directory or a file cannot be
read. -/
def sources? (dir : Path) : Option (List SourceFile) :=
  if t.isDir dir then (t.goFiles dir).mapM fun p ↦ (t.source p).toOption else none

end FileTree

/-- What a step of the search says about a declared type. -/
def Project.declaredBy (p : Project) (q : QualifiedName) (step : SearchStep) :
    Option (Option Declaration) :=
  match p.layout.candidate? step q.package with
  | some dir => p.files.declaredUnder q.name dir
  | none => some none

/-- What the files say about a declared type, whatever has been read before. -/
def Project.declared? (p : Project) (q : QualifiedName) : Option (Option Declaration) :=
  firstFound (p.declaredBy q) SearchStep.all

namespace FileTree

variable {t : FileTree} {dir dir' p : Path}

theorem packageFiles_eq (h : t.isDir dir) : t.packageFiles dir = .ok (t.goFiles dir) := by
  rw [packageFiles, if_pos h, goFiles, goNames, List.filter_map, List.filter_filter]
  congr 3
  exact funext fun name ↦ Bool.and_comm _ _

theorem namesIn_of_not_isDir (h : ¬t.isDir dir) : t.namesIn dir = [] := by
  unfold namesIn
  split
  · rename_i place entries hl
    exact absurd (isDir_iff.mpr ⟨place, entries, hl⟩) h
  · rfl

theorem isFile_of_mem_goFiles (h : p ∈ t.goFiles dir) : t.isFile p := by
  obtain ⟨name, hn, rfl⟩ := List.mem_map.mp h
  simpa using (Bool.and_eq_true_iff.mp (List.mem_filter.mp hn).2).2

theorem declaredUnder_eq (name : String) (dir : Path) :
    t.declaredUnder name dir = firstFound (t.declaredAt name) (t.goFiles dir) := by
  unfold declaredUnder
  split
  · rename_i hd
    rw [packageFiles_eq hd]
    rfl
  · rename_i hd
    rw [goFiles, goNames, namesIn_of_not_isDir hd]
    rfl

theorem toOption_source_congr (h : p.components = dir.components)
    (hm : meansDirectory p = meansDirectory dir) :
    (t.source p).toOption = (t.source dir).toOption := by
  cases hs : t.source p with
  | ok file => rw [source_congr h hm hs]
  | error fault =>
    cases hs' : t.source dir with
    | ok file =>
      rw [source_congr h.symm hm.symm hs'] at hs
      cases hs
    | error fault' => rfl

theorem declaredAt_congr (h : p.components = dir.components)
    (hm : meansDirectory p = meansDirectory dir) (name : String) :
    t.declaredAt name p = t.declaredAt name dir := by
  unfold declaredAt
  rw [toOption_source_congr h hm]

theorem meansDirectory_join_congr (dir dir' p : Path) :
    meansDirectory (dir.join p) = meansDirectory (dir'.join p) := by
  simp only [meansDirectory, lastPiece_join]

section

variable (h : dir.components = dir'.components)

include h

theorem goNames_congr : t.goNames dir = t.goNames dir' := by
  by_cases hd : t.isDir dir
  · simp only [goNames, namesIn_congr h hd, fun file ↦ isFile_congr (t := t)
      (Path.components_join_congr h ⟨file⟩) (meansDirectory_join_congr dir dir' _)]
  · rw [goNames, goNames, namesIn_of_not_isDir hd, namesIn_of_not_isDir (isDir_congr h ▸ hd)]
    rfl

theorem foundAt_goFiles_congr (name : String) :
    firstFound (t.foundAt name) (t.goFiles dir) = firstFound (t.foundAt name) (t.goFiles dir') := by
  rw [goFiles, goFiles, ← goNames_congr h]
  induction t.goNames dir with
  | nil => rfl
  | cons file files ih =>
    have hj := Path.components_join_congr h ⟨file⟩
    rw [List.map_cons, List.map_cons, firstFound, firstFound, ih, foundAt, foundAt,
      declaredAt_congr hj (meansDirectory_join_congr dir dir' _), hj]

theorem sources?_congr : t.sources? dir = t.sources? dir' := by
  unfold sources?
  rw [isDir_congr h, goFiles, goFiles, ← goNames_congr h, List.mapM_map, List.mapM_map]
  congr 2
  funext file
  exact toOption_source_congr (Path.components_join_congr h ⟨file⟩)
    (meansDirectory_join_congr dir dir' _)

end

theorem exists_source_of_mapM {ps : List Path} {files : List SourceFile} {file : SourceFile}
    (h : (ps.mapM fun p ↦ (t.source p).toOption) = some files) (hf : file ∈ files) :
    ∃ p, t.source p = .ok file := by
  induction ps generalizing files with
  | nil =>
    cases h
    cases hf
  | cons p ps ih =>
    rw [List.mapM_cons] at h
    obtain ⟨first, hfirst, h⟩ := Option.bind_eq_some_iff.mp h
    obtain ⟨rest, hrest, h⟩ := Option.bind_eq_some_iff.mp h
    cases h
    rcases List.mem_cons.mp hf with rfl | hf
    · cases hs : t.source p with
      | ok file' => exact ⟨p, by simpa [hs, Except.toOption] using hfirst⟩
      | error fault => simp [hs, Except.toOption] at hfirst
    · exact ih hrest hf

theorem exists_source {files : List SourceFile} {file : SourceFile}
    (h : t.sources? dir = some files) (hf : file ∈ files) : ∃ p, t.source p = .ok file := by
  unfold sources? at h
  split at h
  · exact exists_source_of_mapM h hf
  · cases h

end FileTree

namespace Sources

/-- All that has been read stands in the files. -/
structure Faithful (t : FileTree) (s : Sources) : Prop where
  files : ∀ place read, s.files.find? place = some read →
    read.1.components = place ∧ t.isFile read.1 ∧ t.source read.1 = .ok read.2
  listings : ∀ place paths, s.listings.find? place = some paths →
    ∃ dir : Path, dir.components = place ∧ t.isDir dir ∧ t.packageFiles dir = .ok paths

theorem Faithful.empty (t : FileTree) : empty.Faithful t where
  files := nofun
  listings := nofun

variable {t : FileTree} {p dir : Path}

/-- A file is read or was read before, and what cannot be read is not kept. -/
theorem file_spec (hp : t.isFile p) :
    Action.Triple (Faithful t) (file t p) (fun read s ↦ s.Faithful t ∧ t.source p = .ok read.2)
      fun _ s ↦ s.Faithful t ∧ (t.source p).toOption = none := by
  refine .get fun s hs ↦ ?_
  split
  · rename_i read hr
    obtain ⟨hc, hf, hr⟩ := hs.files _ _ hr
    have hm : FileTree.meansDirectory read.1 = FileTree.meansDirectory p := by
      rw [FileTree.meansDirectory_of_isFile hf, FileTree.meansDirectory_of_isFile hp]
    exact .pure fun _ h ↦ ⟨h ▸ hs, FileTree.source_congr hc hm hr⟩
  · split
    · rename_i fault hr
      exact .throw fun _ h ↦ ⟨h ▸ hs, by rw [hr]; rfl⟩
    · rename_i file hr
      refine .bind (Q := fun _ s ↦ s.Faithful t) (.modify fun s' h ↦ ?_)
        fun _ ↦ .pure fun _ h ↦ ⟨h, hr⟩
      subst h
      refine ⟨fun place read h ↦ ?_, hs.listings⟩
      rw [Table.find?_insert] at h
      split at h
      · rename_i heq
        cases h
        exact ⟨heq.symm, hp, hr⟩
      · exact hs.files _ _ h

/-- A directory is listed as it is, under the path by which it was first listed. -/
theorem listing_spec (dir : Path) :
    Action.Triple (Faithful t) (listing t dir)
      (fun paths s ↦ s.Faithful t ∧ ∃ dir' : Path, dir'.components = dir.components ∧
        t.isDir dir' ∧ paths = t.goFiles dir')
      fun _ s ↦ s.Faithful t ∧ ¬t.isDir dir := by
  refine .get fun s hs ↦ ?_
  split
  · rename_i paths hr
    obtain ⟨dir', hc, hd', hr⟩ := hs.listings _ _ hr
    cases (FileTree.packageFiles_eq hd').symm.trans hr
    exact .pure fun _ h ↦ ⟨h ▸ hs, dir', hc, hd', rfl⟩
  · by_cases hd : t.isDir dir
    · have hr := FileTree.packageFiles_eq hd
      rw [hr]
      refine .bind (Q := fun paths s' ↦ s' = s ∧ paths = t.goFiles dir)
        (.pure fun _ h ↦ ⟨h, rfl⟩) fun paths ↦ .assume fun hp ↦ ?_
      subst hp
      refine .bind (Q := fun _ s ↦ s.Faithful t) (.modify fun s' h ↦ ?_) fun _ ↦
        .pure fun _ h ↦ ⟨h, dir, rfl, hd, rfl⟩
      subst h
      refine ⟨hs.files, fun place paths' h ↦ ?_⟩
      rw [Table.find?_insert] at h
      split at h
      · rename_i heq
        cases h
        exact ⟨dir, heq.symm, hd, hr⟩
      · exact hs.listings _ _ h
    · rw [FileTree.packageFiles, if_neg hd]
      exact fun _ h ↦ ⟨h ▸ hs, hd⟩

theorem filesAt_spec (ps : List Path) (hp : ∀ p ∈ ps, t.isFile p) :
    Action.Triple (Faithful t) (filesAt t ps)
      (fun files s ↦ s.Faithful t ∧
        (ps.mapM fun p ↦ (t.source p).toOption) = some (files.map (·.2)))
      fun _ s ↦ s.Faithful t ∧ (ps.mapM fun p ↦ (t.source p).toOption) = none := by
  induction ps with
  | nil => exact .pure fun _ h ↦ ⟨h, rfl⟩
  | cons p ps ih =>
    rw [List.forall_mem_cons] at hp
    refine .bind ((file_spec hp.1).mono (fun _ h ↦ h) (fun _ _ h ↦ h) fun _ _ h ↦ ⟨h.1, ?_⟩)
      fun read ↦ .assume fun hr ↦ ?_
    · rw [List.mapM_cons, h.2]
      rfl
    · refine .bind ((ih hp.2).mono (fun _ h ↦ h) (fun _ _ h ↦ h) fun _ _ h ↦ ⟨h.1, ?_⟩)
        fun files ↦ .assume fun hf ↦ .pure fun _ h ↦ ⟨h, ?_⟩
      · rw [List.mapM_cons, hr, h.2]
        rfl
      · rw [List.mapM_cons, hr, hf]
        rfl

theorem package_spec (dir : Path) :
    Action.Triple (Faithful t) (package t dir)
      (fun files s ↦ s.Faithful t ∧ t.sources? dir = some (files.map (·.2)))
      fun _ s ↦ s.Faithful t ∧ t.sources? dir = none := by
  refine .bind ((listing_spec dir).mono (fun _ h ↦ h) (fun _ _ h ↦ h) fun _ _ h ↦ ⟨h.1, ?_⟩)
    fun paths ↦ .assume fun ⟨dir', hc, hd, hp⟩ ↦ ?_
  · rw [FileTree.sources?, if_neg h.2]
  · subst hp
    rw [← FileTree.sources?_congr hc, FileTree.sources?, if_pos hd]
    exact filesAt_spec _ fun _ ↦ FileTree.isFile_of_mem_goFiles

theorem searchFiles_spec (name : String) (ps : List Path) (hp : ∀ p ∈ ps, t.isFile p) :
    Action.Triple (Faithful t) (searchFiles t name ps)
      (fun found s ↦ s.Faithful t ∧
        firstFound (t.foundAt name) ps = some (found.map fun f ↦ (f.1, f.2.components)))
      fun _ s ↦ s.Faithful t ∧ firstFound (t.foundAt name) ps = none := by
  induction ps with
  | nil => exact .pure fun _ h ↦ ⟨h, rfl⟩
  | cons p ps ih =>
    rw [List.forall_mem_cons] at hp
    refine .bind ((file_spec hp.1).mono (fun _ h ↦ h) (fun _ _ h ↦ h) fun _ _ h ↦ ⟨h.1, ?_⟩)
      fun read ↦ ?_
    · exact firstFound_of_fault (by rw [FileTree.foundAt, FileTree.declaredAt, h.2]; rfl)
    · refine .assume fun hr ↦ ?_
      have hl : t.foundAt name p = some ((read.2.find? name).map (·, p.components)) := by
        rw [FileTree.foundAt, FileTree.declaredAt, hr]
        rfl
      cases hf : read.2.find? name with
      | some d => exact .pure fun _ h ↦ ⟨h, firstFound_of_found (by rw [hl, hf]; rfl)⟩
      | none =>
        rw [firstFound_of_nothing (by rw [hl, hf]; rfl)]
        exact ih hp.2

theorem searchDir_spec (name : String) (dir : Path) :
    Action.Triple (Faithful t) (searchDir t dir name)
      (fun found s ↦ s.Faithful t ∧ firstFound (t.foundAt name) (t.goFiles dir) =
        some (found.map fun f ↦ (f.1, f.2.components)))
      fun _ s ↦ s.Faithful t ∧ firstFound (t.foundAt name) (t.goFiles dir) = none := by
  unfold searchDir
  split
  · rename_i hd
    refine .bind ((listing_spec dir).mono (fun _ h ↦ h) (fun _ _ h ↦ h)
      fun _ _ h ↦ (h.2 hd).elim) fun paths ↦ .assume fun ⟨dir', hc, _, hp⟩ ↦ ?_
    rw [hp, ← FileTree.foundAt_goFiles_congr hc name]
    exact searchFiles_spec name _ fun _ ↦ FileTree.isFile_of_mem_goFiles
  · rename_i hd
    refine .pure fun _ h ↦ ⟨h, ?_⟩
    rw [FileTree.goFiles, FileTree.goNames, FileTree.namesIn_of_not_isDir hd]
    rfl

end Sources

namespace Project

variable (p : Project) (q : QualifiedName)

/-- The files that a step searches for a name of a package. -/
def searchedBy (package : String) (step : SearchStep) : List (SearchStep × Path) :=
  match p.layout.candidate? step package with
  | some dir => (p.files.goFiles dir).map (step, ·)
  | none => []

/-- The files that are searched for a name of a package: by the steps in their order, and in a
directory by their names. -/
def searched (package : String) : List (SearchStep × Path) :=
  SearchStep.all.flatMap (p.searchedBy package)

/-- What a file says about a declared type, with the step and the place. -/
def foundIn (e : SearchStep × Path) :
    Option (Option (Declaration × SearchStep × List Path.Component)) :=
  (p.files.declaredAt q.name e.2).map (·.map (·, e.1, e.2.components))

variable {p q} {step : SearchStep} {dir : Path}

theorem searchedBy_of_dir (h : p.layout.candidate? step q.package = some dir) :
    p.searchedBy q.package step = (p.files.goFiles dir).map (step, ·) := by
  rw [searchedBy, h]

theorem firstFound_searchedBy_of_dir (h : p.layout.candidate? step q.package = some dir) :
    firstFound (p.foundIn q) (p.searchedBy q.package step) =
      (firstFound (p.files.foundAt q.name) (p.files.goFiles dir)).map
        (·.map fun f ↦ (f.1, step, f.2)) := by
  rw [searchedBy_of_dir h, ← firstFound_map]
  induction p.files.goFiles dir with
  | nil => rfl
  | cons file files ih =>
    rw [List.map_cons, firstFound, firstFound, ih, foundIn, FileTree.foundAt]
    simp [Function.comp_def]

theorem declaredBy_eq (p : Project) (q : QualifiedName) (step : SearchStep) :
    p.declaredBy q step =
      (firstFound (p.foundIn q) (p.searchedBy q.package step)).map (·.map (·.1)) := by
  unfold declaredBy
  split
  · rename_i dir hc
    rw [firstFound_searchedBy_of_dir hc, FileTree.declaredUnder_eq, ← firstFound_map,
      ← firstFound_map]
    simp [FileTree.foundAt, Function.comp_def]
  · rename_i hc
    rw [searchedBy, hc]
    rfl

/-- The files say of a declared type what the first file says that declares it. -/
theorem declared_eq (p : Project) (q : QualifiedName) :
    p.declared? q = (firstFound (p.foundIn q) (p.searched q.package)).map (·.map (·.1)) := by
  rw [declared?, searched, firstFound_flatMap, ← firstFound_map]
  exact congrArg (firstFound · SearchStep.all) (funext (p.declaredBy_eq q))

end Project

namespace Sources

/-- What a search found by some of the steps after those tried. -/
structure FoundAfter (tried steps : List SearchStep) (located : Located) : Prop where
  step : located.step ∈ steps
  attempted : located.attempted =
    tried ++ steps.takeWhile (· ≠ located.step) ++ [located.step]

theorem searchSteps_spec (p : Project) (q : QualifiedName) (tried : List SearchStep)
    {steps : List SearchStep} (hs : steps.Nodup) :
    Action.Triple (Faithful p.files) (searchSteps p.files p.layout q.name q.package tried steps)
      (fun found s ↦ s.Faithful p.files ∧ (∀ l ∈ found, FoundAfter tried steps l) ∧
        firstFound (p.foundIn q) (steps.flatMap (p.searchedBy q.package)) =
          some (found.map fun l ↦ (l.declaration, l.step, l.file.components)))
      fun fault s ↦ s.Faithful p.files ∧ (∃ cause, fault = .search q.package q.name cause) ∧
        firstFound (p.foundIn q) (steps.flatMap (p.searchedBy q.package)) = none := by
  induction steps generalizing tried with
  | nil => exact .pure fun _ h ↦ ⟨h, nofun, rfl⟩
  | cons step steps ih =>
    have hlater {found : Option Located} (h : ∀ l ∈ found, FoundAfter (tried ++ [step]) steps l) :
        ∀ l ∈ found, FoundAfter tried (step :: steps) l := by
      intro l hl
      obtain ⟨hm, ha⟩ := h l hl
      have hne : step ≠ l.step := fun he ↦ (List.nodup_cons.mp hs).1 (he ▸ hm)
      exact ⟨List.mem_cons_of_mem _ hm, by simp [ha, hne]⟩
    -- a step that finds nothing leaves the answer to the steps behind it
    have hrest (hn : firstFound (p.foundIn q) (p.searchedBy q.package step) = some none) :
        firstFound (p.foundIn q) ((step :: steps).flatMap (p.searchedBy q.package)) =
          firstFound (p.foundIn q) (steps.flatMap (p.searchedBy q.package)) := by
      rw [List.flatMap_cons, firstFound_append, hn]
    rw [searchSteps]
    cases hc : p.layout.candidate? step q.package with
    | none =>
      rw [hrest (by rw [Project.searchedBy, hc]; rfl)]
      exact (ih _ (List.nodup_cons.mp hs).2).mono (fun _ h ↦ h)
        (fun _ _ h ↦ ⟨h.1, hlater h.2.1, h.2.2⟩) fun _ _ h ↦ h
    | some dir =>
      have hd := Project.firstFound_searchedBy_of_dir hc
      refine .bind (.tryCatch (searchDir_spec q.name dir) fun fault ↦
        .throw fun _ h ↦ ⟨h.1, ⟨fault, rfl⟩, ?_⟩) fun found ↦ .assume fun hf ↦ ?_
      · rw [List.flatMap_cons, firstFound_append, hd, h.2]
        rfl
      · rw [hf] at hd
        cases found with
        | some found =>
          refine .pure fun _ h ↦ ⟨h, fun l hl ↦ ?_, ?_⟩
          · cases hl
            exact ⟨List.mem_cons_self, by simp⟩
          · rw [List.flatMap_cons, firstFound_append, hd]
            rfl
        | none =>
          rw [hrest hd]
          exact (ih _ (List.nodup_cons.mp hs).2).mono (fun _ h ↦ h)
            (fun _ _ h ↦ ⟨h.1, hlater h.2.1, h.2.2⟩) fun _ _ h ↦ h

/-- A search gives what the files say, and a fault only where they give one. -/
theorem locate_spec (p : Project) (q : QualifiedName) :
    Action.Triple (Faithful p.files) (locate p.files p.layout q.name q.package)
      (fun found s ↦ s.Faithful p.files ∧ (∀ l ∈ found, FoundAfter [] SearchStep.all l) ∧
        firstFound (p.foundIn q) (p.searched q.package) =
          some (found.map fun l ↦ (l.declaration, l.step, l.file.components)))
      fun fault s ↦ s.Faithful p.files ∧ (∃ cause, fault = .search q.package q.name cause) ∧
        firstFound (p.foundIn q) (p.searched q.package) = none :=
  searchSteps_spec p q [] (by decide)

end Sources

end GoOpenApi
