import GoOpenApi.Proofs.Document.Lockstep
import GoOpenApi.Proofs.Document.Schemas
import GoOpenApi.Proofs.Files.Saving
import GoOpenApi.Proofs.Generation.Failure
import GoOpenApi.Proofs.Module.Unchanged

/-!
A run after a run. What was written is read by no search, so the second run makes the same document
and writes it over itself. Only a path that leads up out of a directory that the first run has made
can lead the second one elsewhere.
-/

namespace GoOpenApi

namespace Generation

variable {p : Project} {t t' : FileTree} {env : Environment} {o : CommandLine.Options}
  {g : Generation} {files dirs : Set (List String)}

/-- The declaration of a name is looked up on the way to the document. -/
def Asks (p : Project) (o : CommandLine.Options) (q : QualifiedName) : Prop :=
  ∃ services tables b g,
    Service.load p o.services o.interfaces .empty = (.ok services, tables) ∧
    addServices p services
      (Builder.initial.withDirectives (Service.allDirectives services), ⟨tables, .empty⟩) =
        .ok (b, g) ∧
    g.tables.Asked q

/-- The vendor directory, and those that are searched for names that are looked up. -/
def LooksInto (t : FileTree) (env : Environment) (o : CommandLine.Options) (dir : Path) : Prop :=
  ∃ l, o.layout t env = .ok l ∧
    (dir = l.vendorDir ∨ ∃ q, Asks (.of t l) o q ∧ (Project.of t l).Searches q dir)

/-- A path that is looked into leads up. -/
def looksUp (t : FileTree) (env : Environment) (o : CommandLine.Options) : Bool :=
  match o.layout t env with
  | .error _ => false
  | .ok l =>
    let leadsUp (dir : Path) : Bool := dir.components.contains .up
    leadsUp l.vendorDir ||
      match Service.load (.of t l) o.services o.interfaces .empty with
      | (.error _, _) => false
      | (.ok services, tables) =>
        match addServices (.of t l) services
            (Builder.initial.withDirectives (Service.allDirectives services), ⟨tables, .empty⟩) with
        | .error _ => false
        | .ok (_, g) => g.tables.declarations.any fun (q, _) ↦
          SearchStep.all.any fun step ↦ (l.candidate? step q.package).any leadsUp

theorem not_climbs_of_looksUp (hn : looksUp t env o = false) {dir : Path}
    (h : LooksInto t env o dir) : ¬t.Climbs t' dir := by
  apply FileTree.not_climbs_of_notMem
  intro hup
  rw [← List.contains_iff_mem] at hup
  obtain ⟨l, hl, h⟩ := h
  simp only [looksUp, hl, Bool.or_eq_false_iff] at hn
  rcases h with rfl | ⟨q, ⟨services, tables, b, u, hload, hadd, found, hq⟩, hs⟩
  · rw [hup] at hn
    cases hn.1
  · obtain ⟨before, step, after, he, -, hc⟩ := hs
    have hn := hn.2
    simp only [hload, hadd, List.any_eq_false] at hn
    refine hn _ (Table.mem_of_find? hq) (List.any_eq_true.mpr ⟨step, by simp [he], ?_⟩)
    have hc : l.candidate? step q.package = some dir := hc
    rw [hc]
    exact hup

theorem generate_of_parts {l : Layout} {services : List Service} {tables : Tables} {b : Builder}
    {u : Generator} (hl : o.layout t env = .ok l)
    (hs : Service.load (.of t l) o.services o.interfaces .empty = (.ok services, tables))
    (hne : services ≠ [])
    (ha : addServices (.of t l) services
      (Builder.initial.withDirectives (Service.allDirectives services), ⟨tables, .empty⟩) =
        .ok (b, u)) : generate t env o = .ok ⟨services, b.document u.registry⟩ := by
  cases services with
  | nil => exact absurd rfl hne
  | cons s services =>
    unfold generate
    rw [hl]
    rw [Except.ok_bind]
    dsimp only
    rw [hs]
    dsimp only
    rw [ha]
    rfl

theorem services_ne_nil (h : generate t env o = .ok g) : g.services ≠ [] := by
  obtain ⟨l, tables, b, u, hl, hs, -, -⟩ := generate_ok h
  intro hn
  unfold generate at h
  rw [hl] at h
  rw [Except.ok_bind] at h
  dsimp only at h
  rw [hs, hn] at h
  cases h

/-- Another project gives the same services and the same document if the files of the services are
the same and the projects agree about all names that are looked up. -/
theorem documented_again (p p' : Project) {services : List Service} {tables : Tables}
    {b₀ b : Builder} {u : Generator}
    (hsources : p'.files.sources? o.services = p.files.sources? o.services)
    (himport : p'.layout.importPathOf p'.files o.services =
      p.layout.importPathOf p.files o.services)
    (hload : Service.load p o.services o.interfaces .empty = (.ok services, tables))
    (hadd : addServices p services (b₀, ⟨tables, .empty⟩) = .ok (b, u))
    (hsame : ∀ q, u.tables.Asked q → p'.declared? q = p.declared? q) : ∃ tables' u',
      Service.load p' o.services o.interfaces .empty = (.ok services, tables') ∧
      addServices p' services (b₀, ⟨tables', .empty⟩) = .ok (b, u') ∧
      u'.registry = u.registry := by
  have hl : (Tables.lockstep p p' True False).Relates (Service.load p o.services o.interfaces)
      (Service.load p' o.services o.interfaces) :=
    Service.load_lockstep hsources himport o.interfaces
  obtain ⟨⟨-, htables, -⟩, hloads⟩ := hl _ _ _ (.empty p) hload
  obtain ⟨⟨-, hasked⟩, hadds⟩ := addServices_lockstep p' htables hadd
  obtain ⟨tables', hload', hfound, hdefs⟩ | ⟨h, -⟩ :=
    hloads .empty (.empty p') (fun _ ↦ rfl) fun q hq ↦ hsame q (hasked q hq)
  · obtain ⟨u', hadd', halike⟩ := hadds ⟨tables', .empty⟩ ⟨hfound, hdefs trivial, rfl⟩ hsame
    exact ⟨tables', u', hload', hadd', halike.registry⟩
  · exact h.elim

/-- The same services and the same document are made from a tree with more files, as far as none of
them is read. -/
theorem generate_written (h : t.Written files dirs t') (ht : t.WellFormed)
    (hf : FileTree.Unread files) (hc : o.check t = .ok ())
    (hup : ∀ dir, LooksInto t env o dir → ¬t.Climbs t' dir) (hg : generate t env o = .ok g) :
    generate t' env o = .ok g := by
  obtain ⟨l, tables, b, u, hl, hload, hadd, hdoc⟩ := generate_ok hg
  have hl' : o.layout t' env = .ok l := by rw [o.layout_written h hc ht hf, hl]
  have hdir : t.isDir o.services := (o.check_ok_iff.mp hc).1
  have hroot : t.Known l.root := by
    rw [o.root_layout hl]
    exact o.known_moduleRoot hc ht
  have hvendor := hup _ ⟨l, hl, .inl rfl⟩
  have hsources : t'.sources? o.services = t.sources? o.services :=
    h.sources? ht hf (h.not_climbs_of_known (FileTree.known_of_isDir hdir)) hdir
  have himport := l.importPathOf_written h ht hdir hroot hvendor
  -- all names that are asked for are declared as before
  have hsame : ∀ q, u.tables.Asked q →
      (Project.of t' l).declared? q = (Project.of t l).declared? q := by
    intro q hq
    have hsearched : ∀ dir, (Project.of t l).Searches q dir → ¬t.Climbs t' dir :=
      fun dir hdir ↦ hup dir ⟨l, hl, .inr ⟨q, ⟨_, tables, b, u, hload, hadd, hq⟩, hdir⟩⟩
    exact Project.declared?_written rfl h ht hf hsearched
  obtain ⟨tables', u', hload', hadd', hr⟩ :=
    documented_again (.of t l) (.of t' l) hsources himport hload hadd hsame
  rw [generate_of_parts hl' hload' (services_ne_nil hg) hadd', hr, ← hdoc]

end Generation

namespace Run

variable {env : Environment} {o : CommandLine.Options} {t t' : FileTree}
  {outputs : List (Path × String)}

theorem write_ok (h : write outputs t = (.ok (), t')) : ∃ files dirs, t.Written files dirs t' ∧
    ∀ above name, above ++ [name] ∈ files → ∃ entry ∈ outputs, entry.1.fileName? = some name := by
  induction outputs generalizing t with
  | nil =>
    cases h
    exact ⟨∅, ∅, .refl _, fun _ _ hm ↦ absurd hm (Set.notMem_empty _)⟩
  | cons entry outputs ih =>
    obtain ⟨file, text⟩ := entry
    rw [write_cons] at h
    rcases hs : FileTree.save file text t with ⟨_ | _, t₁⟩ <;> rw [hs] at h
    · cases h
    · obtain ⟨place, name, hname, -, hw⟩ := FileTree.save_ok hs
      obtain ⟨files, dirs, hw', hfiles⟩ := ih h
      refine ⟨_, _, hw.trans_union hw', ?_⟩
      intro above name' hm
      rcases hm with hm | hm
      · obtain ⟨-, he⟩ := List.append_inj' hm rfl
        cases he
        exact ⟨(file, text), List.mem_cons_self, hname⟩
      · obtain ⟨entry, he, hn⟩ := hfiles above name' hm
        exact ⟨entry, List.mem_cons_of_mem _ he, hn⟩

theorem write_again (ht : t.WellFormed) (hlen : outputs.length ≤ 2)
    (h : write outputs t = (.ok (), t')) : write outputs t' = (.ok (), t') := by
  match outputs, hlen with
  | [], _ => rfl
  | [(file, text)], _ =>
    rw [write_cons] at h ⊢
    rcases hs : FileTree.save file text t with ⟨_ | _, t₁⟩ <;> rw [hs] at h
    · cases h
    · cases h
      rw [FileTree.save_again ht hs]
      rfl
  | [(file, text), (file', text')], _ =>
    simp only [write_cons] at h ⊢
    rcases hs : FileTree.save file text t with ⟨_ | _, t₁⟩ <;> simp only [hs] at h
    · cases h
    · rcases hs' : FileTree.save file' text' t₁ with ⟨_ | _, t₂⟩ <;> simp only [hs'] at h
      · cases h
      · cases h
        obtain ⟨u, hu, hu'⟩ := FileTree.save_both_again ht hs hs'
        simp only [hu, hu']
        rfl

theorem fileName?_of_mem_outputs {g : Generation} {entry : Path × String}
    (h : entry ∈ g.outputs o) : entry.1 ∈ o.output :: o.model?.toList := by
  unfold Generation.outputs at h
  rcases List.mem_cons.mp h with rfl | h
  · exact List.mem_cons_self
  · cases hm : o.model? with
    | none => simp [hm] at h
    | some file => simp_all

/-- A run that has succeeded succeeds again with the same arguments, makes the same document and
changes nothing, if the files that it writes are neither Go files nor a `go.mod` and no path that it
looks into leads up out of a directory that it has made. -/
theorem perform_again (ht : t.WellFormed)
    (hout : ∀ file ∈ o.output :: o.model?.toList,
      file.fileName? ≠ some "go.mod" ∧ file.extension? ≠ some "go")
    (h : perform env o t = (.ok (), t'))
    (hup : ∀ dir, Generation.LooksInto t env o dir → ¬t.Climbs t' dir) :
    perform env o t' = (.ok (), t') ∧
      Generation.generate t' env o = Generation.generate t env o := by
  rw [perform_eq] at h
  cases hc : o.check t with
  | error fault =>
    rw [hc] at h
    cases h
  | ok _ =>
    rw [hc] at h
    cases hg : Generation.generate t env o with
    | error fault =>
      rw [hg] at h
      cases h
    | ok g =>
      rw [hg] at h
      obtain ⟨files, dirs, hw, hfiles⟩ := write_ok h
      have hunread : FileTree.Unread files := by
        intro above name hm
        obtain ⟨entry, he, hname⟩ := hfiles above name hm
        obtain ⟨hmod, hext⟩ := hout entry.1 (fileName?_of_mem_outputs he)
        refine ⟨fun hn ↦ hmod (hn ▸ hname), fun hn ↦ hext ?_⟩
        rw [Path.extension?_of_fileName? hname]
        exact eq_of_beq ((Bool.and_eq_true _ _).mp hn).1
      have hg' := Generation.generate_written hw ht hunread hc hup hg
      rw [perform_eq, o.check_written hw hc, hg']
      exact ⟨write_again ht (length_outputs_le g o) h, rfl⟩

/-- A service with an argument of a declared type. -/
def shop : FileTree :=
  let service := "package service\n\n// @tg server-jsonrpc\n" ++
    "type A interface \x7b\n\tGet(u B)\n\x7d\n\ntype B struct \x7b\n\tX int\n\x7d\n"
  .ofNodes ["w"] [(⟨"go.mod"⟩, .file (.text "module m\n")),
    (⟨"service/service.go"⟩, .file (.text service))]

def intoDocs : CommandLine.Options where
  services := ⟨"service"⟩
  output? := some ⟨"docs/api.yaml"⟩

set_option maxRecDepth 20000 in
theorem shop_perform_again : ∃ t', perform {} intoDocs shop = (.ok (), t') ∧
    perform {} intoDocs t' = (.ok (), t') ∧
    Generation.generate t' {} intoDocs = Generation.generate shop {} intoDocs := by
  have hok : (perform {} intoDocs shop).1.isOk = true := by decide +kernel
  have hup : Generation.looksUp shop {} intoDocs = false := by decide +kernel
  have hshop : shop.WellFormed := FileTree.wellFormed_ofFiles (by decide) (by decide)
  rcases h : perform {} intoDocs shop with ⟨_ | _, t'⟩
  · rw [h] at hok
    cases hok
  · have hlooks : ∀ dir, Generation.LooksInto shop {} intoDocs dir → ¬shop.Climbs t' dir :=
      fun _ hdir ↦ Generation.not_climbs_of_looksUp hup hdir
    exact ⟨t', rfl, perform_again hshop (by decide) h hlooks⟩

/-- A service with an interface embedded from a package that cannot be read. -/
def vendored : FileTree :=
  let service := "package service\n\nimport \"p\"\n\n" ++
    "// @tg x\ntype A interface \x7b\n\tp.B\n\x7d\n"
  .ofNodes ["w"] [(⟨"go.mod"⟩, .file (.text "module m\n")),
    (⟨"service/service.go"⟩, .file (.text service)),
    (⟨"v/p/p.go"⟩, .file (.text "package p\n\ntype B interface \x7b\n"))]

/-- The vendor directory is reached through the directory of the document. -/
def throughDocs : CommandLine.Options where
  services := ⟨"service"⟩
  output? := some ⟨"docs/api.yaml"⟩
  vendor? := some ⟨"docs/../v"⟩

def failsAgain : Bool :=
  match perform {} throughDocs vendored with
  | (.ok _, t') => !(perform {} throughDocs t').1.isOk
  | _ => false

set_option maxRecDepth 20000 in
theorem perform_again_may_fail :
    ¬∀ env o t t', t.WellFormed →
      (∀ file ∈ o.output :: o.model?.toList,
        file.fileName? ≠ some "go.mod" ∧ file.extension? ≠ some "go") →
      perform env o t = (.ok (), t') → (perform env o t').1 = .ok () := by
  intro hall
  have hfails : failsAgain = true := by decide +kernel
  have ht : vendored.WellFormed := FileTree.wellFormed_ofFiles (by decide) (by decide)
  unfold failsAgain at hfails
  split at hfails
  · rename_i t' h
    rw [hall _ _ _ _ ht (by decide) h] at hfails
    cases hfails
  · cases hfails

end Run

end GoOpenApi
