import GoOpenApi.Proofs.Resolve.Lockstep
import GoOpenApi.Service.Load

/-!
The making of a service from related ways to search. It has room for all interfaces that are
embedded, and in another project it gives the same service where the files say the same.
-/

namespace GoOpenApi

open GoOpenApi.Action (Relation)

variable {R : Relation Tables Tables} {p p' : Project} {same endless : Prop}

namespace Tables

theorem package_of_identity {type : GoType} {package name : String} {origin : Option String}
    (h : type.identity = some (origin, name)) :
    origin.getD package ∈ package :: type.packages := by
  unfold GoType.identity at h
  split at h
  · cases h
    cases origin <;> simp [GoType.packages]
  · cases h
    simp [GoType.packages]
  · cases h

section

variable {Inv : Gathered → Prop} {package : String}
  {enter enter' : InterfaceDecl → String → Gathered → Action Tables Gathered}

theorem gatherEmbedded_relates (hmet : ∀ q g, Inv g → Inv { g with met := q :: g.met })
    (hd : ∀ q, R.Holds (fun found ↦ p.declared? q = some found) (declaration p q)
      (declaration p' q))
    {types : List GoType}
    (he : ∀ q d g, q.package ∈ package :: types.flatMap GoType.packages →
      p.declared? q = some (some (.interface d)) → q ∉ g.met → Inv g →
      R.Holds Inv (enter d q.package { g with met := q :: g.met })
        (enter' d q.package { g with met := q :: g.met }))
    {g : Gathered} (hg : Inv g) :
    R.Holds Inv (gatherEmbedded p enter package types g)
      (gatherEmbedded p' enter' package types g) := by
  induction types generalizing g with
  | nil => exact R.pure hg
  | cons type types ih =>
    have hsub : types.flatMap GoType.packages ⊆ (type :: types).flatMap GoType.packages := by
      rw [List.flatMap_cons]
      exact List.subset_append_right _ _
    have hrest {g : Gathered} (hg : Inv g) := ih
      (fun q d g hq ↦ he q d g (List.cons_subset_cons _ hsub hq)) hg
    rw [gatherEmbedded, gatherEmbedded]
    cases hi : type.identity with
    | none => exact hrest hg
    | some identity =>
      obtain ⟨origin, name⟩ := identity
      simp only
      split
      · exact hrest hg
      · rename_i hc
        rw [List.contains_iff_mem] at hc
        refine R.bind (hd _) fun found hf ↦ ?_
        split
        · refine R.bind (he _ _ g ?_ hf hc hg) fun g hg ↦ hrest hg
          rw [List.flatMap_cons]
          exact List.cons_subset_cons package (List.subset_append_left _ _) (package_of_identity hi)
        · exact hrest (hmet _ g hg)

end

theorem met_add (g : Gathered) (m : Method) : (g.add m).met = g.met := by
  unfold Gathered.add
  split <;> rfl

theorem met_addAll (g : Gathered) (package home : String) (methods : List Method) :
    (g.addAll package home methods).met = g.met := by
  unfold Gathered.addAll
  induction methods generalizing g with
  | nil => rfl
  | cons m methods ih => rw [List.foldl_cons, ih, met_add]

/-- Every interface is entered once, while there is room for it. -/
theorem gatherWithin_finding (packages : List String) (home : String) {n : Nat}
    {entered : List QualifiedName} {d : InterfaceDecl} {package : String} {g : Gathered}
    (h : ¬endless → Room p packages entered n ∧
      package :: d.embedded.flatMap GoType.packages ⊆ p.packagesWith packages)
    (hg : entered ⊆ g.met) :
    (finding p endless).Holds (fun g ↦ entered ⊆ g.met) (gatherWithin p home n d package g)
      (gatherWithin p home n d package g) := by
  induction n generalizing entered d package g with
  | zero =>
    apply finding_endless
    by_contra he
    exact (h he).1.ne_zero rfl
  | succ n ih =>
    have hmet (q : QualifiedName) (g : Gathered) (hg : entered ⊆ g.met) : entered ⊆ q :: g.met :=
      List.subset_cons_of_subset q hg
    refine gatherEmbedded_relates hmet declaration_finding (fun q d' g' hq hd hn hg' ↦ ?_) ?_
    · have hroom (he : ¬endless) : Room p packages (q :: entered) n ∧
          q.package :: d'.embedded.flatMap GoType.packages ⊆ p.packagesWith packages := by
        obtain ⟨hr, hs⟩ := h he
        have hr := hr.enter (fun hm ↦ hn (hg' hm)) (Project.mem_range_of_declared hd (hs hq))
        exact ⟨hr, Project.subset_packagesWith hd (hs hq)⟩
      refine (finding p endless).mono (ih hroom (List.cons_subset_cons q hg')) fun g hg ↦ ?_
      exact List.Subset.trans (List.subset_cons_self q entered) hg
    · rwa [met_addAll]

theorem methodsOf_finding (d : InterfaceDecl) (package : String) :
    (finding p endless).Relates (methodsOf p d package) (methodsOf p d package) := by
  apply finding_get
  intro t
  refine (finding p endless).bind (gatherWithin_finding
    (package :: d.embedded.flatMap GoType.packages) package (fun _ ↦ ⟨?_, ?_⟩)
    (List.nil_subset _)) fun g _ ↦ (finding p endless).pure trivial
  · exact room_budget t (Nat.succ_le_succ (length_flatMap_le GoType.length_packages_le d.embedded))
  · exact List.subset_append_left _ _

theorem gatherWithin_lockstep (he : endless) (home : String) {n n' : Nat} (d : InterfaceDecl)
    (package : String) (g : Gathered) :
    (lockstep p p' same endless).Relates (gatherWithin p home n d package g)
      (gatherWithin p' home n' d package g) := by
  induction n' generalizing n d package g with
  | zero =>
    have hf : (finding p True).Holds (fun g ↦ [] ⊆ g.met) (gatherWithin p home n d package g)
        (gatherWithin p home n d package g) :=
      gatherWithin_finding [] home (fun h ↦ (h trivial).elim) (List.nil_subset g.met)
    exact lockstep_endless he ((finding p True).mono hf fun _ _ ↦ trivial)
  | succ n' ih =>
    cases n with
    | zero => exact lockstep_throw _
    | succ n =>
      exact gatherEmbedded_relates (fun _ _ _ ↦ trivial) declaration_lockstep
        (fun q d g _ _ _ _ ↦ ih d q.package _) trivial

theorem methodsOf_lockstep (d : InterfaceDecl) (package : String) :
    (lockstep p p' same False).Relates (methodsOf p d package) (methodsOf p' d package) := by
  refine lockstep_of_finding ?_ (methodsOf_finding d package)
  apply lockstep_get
  intro t t' _
  exact (gatherWithin_lockstep trivial package d package _).map Gathered.methods

end Tables

section

variable (hn : ∀ type package path, R.Relates (Tables.nestedType p type package path)
  (Tables.nestedType p' type package path))

include hn

theorem Endpoint.bind_relates (m : Endpoint) (package : String) (specs : List BindingSpec) :
    R.Relates (m.bind p package specs) (m.bind p' package specs) := by
  induction specs with
  | nil => exact .pure _
  | cons spec specs ih =>
    rw [Endpoint.bind, Endpoint.bind]
    dsimp only
    split
    · exact ih
    · exact (hn _ _ _).bind fun nested ↦ ih.bind fun rest ↦ .pure _

theorem Endpoint.build_relates (service : String) (d : Directives) (package : String)
    (m : Method) : R.Relates (build p service d package m) (build p' service d package m) :=
  (bind_relates hn _ package _).bind fun _ ↦ .pure _

namespace Service

theorem buildMethods_relates (service : String) (d : Directives) (package : String)
    (ms : List Method) :
    R.Relates (buildMethods p service d package ms) (buildMethods p' service d package ms) := by
  induction ms with
  | nil => exact .pure _
  | cons m ms ih => exact (Endpoint.build_relates hn service d package m).bind fun o ↦ ih.map _

theorem build_relates {d : InterfaceDecl} {package : String}
    (hm : R.Relates (Tables.methodsOf p d package) (Tables.methodsOf p' d package)) :
    R.Holds (fun s ↦ s.name = d.name) (build p d package) (build p' d package) :=
  R.bind hm fun ms _ ↦ R.bind (buildMethods_relates hn d.name _ package ms) fun _ _ ↦ R.pure rfl

end Service

end

namespace Service

theorem build_finding (d : InterfaceDecl) (package : String) :
    (Tables.finding p endless).Holds (fun s ↦ s.name = d.name) (build p d package)
      (build p d package) :=
  build_relates Tables.nestedType_finding (Tables.methodsOf_finding d package)

theorem build_lockstep (d : InterfaceDecl) (package : String) :
    (Tables.lockstep p p' same False).Holds (fun s ↦ s.name = d.name) (build p d package)
      (build p' d package) :=
  build_relates Tables.nestedType_lockstep (Tables.methodsOf_lockstep d package)

theorem buildAll_relates {package : String}
    (hb : ∀ d, R.Holds (fun s ↦ s.name = d.name) (build p d package) (build p' d package))
    (ds : List InterfaceDecl) : R.Relates (buildAll p package ds) (buildAll p' package ds) := by
  induction ds with
  | nil => exact .pure _
  | cons d ds ih => exact R.bind (hb d) fun s _ ↦ ih.map _

end Service

namespace Tables

variable {dir : Path}

/-- The files of a package directory. -/
def contents (p : Project) (dir : Path) : Action Tables (List SourceFile) := do
  return (← onSources (Sources.package p.files dir)).map (·.2)

theorem contents_finding (dir : Path) :
    (finding p True).Holds (fun files ↦ p.files.sources? dir = some files) (contents p dir)
      (contents p dir) :=
  (finding p True).bind (finding_onSources ((Sources.package_spec dir).mono (fun _ h ↦ h)
    (fun _ _ h ↦ h) fun _ _ h ↦ h.1)) fun _ hf ↦ (finding p True).pure hf

theorem contents_run (p : Project) (dir : Path) (t : Tables) : contents p dir t =
    ((Sources.package p.files dir t.sources).1.map (·.map (·.2)),
      { t with sources := (Sources.package p.files dir t.sources).2 }) := by
  rw [contents, Action.run_bind, onSources, Action.run_focus]
  rcases Sources.package p.files dir t.sources with ⟨fault | files, s⟩ <;> rfl

theorem contents_error {t u : Tables} {fault : Fault} (ht : t.Found p)
    (h : contents p dir t = (.error fault, u)) : p.files.sources? dir = none := by
  rw [contents_run] at h
  rcases hr : Sources.package p.files dir t.sources with ⟨fault' | files, s⟩ <;> rw [hr] at h
  · exact ((Sources.package_spec dir).error ht.sources hr).2
  · cases h

theorem contents_lockstep (h : p'.files.sources? dir = p.files.sources? dir) :
    (lockstep p p' same endless).Relates (contents p dir) (contents p' dir) := by
  intro t files u ht hr
  obtain ⟨hf, hu, hasked⟩ := finding_ok (contents_finding dir) ht hr
  refine ⟨⟨trivial, hu, hasked⟩, fun t' ht' hd _ ↦ .inl ?_⟩
  rcases hr' : contents p' dir t' with ⟨fault | files', u'⟩
  · have hn := contents_error ht' hr'
    cases (h.symm.trans hn).symm.trans hf
  · obtain ⟨hf', hu', -⟩ := finding_ok (contents_finding dir) ht' hr'
    obtain rfl : files' = files := Option.some.inj (hf'.symm.trans (h.trans hf))
    rw [contents_run] at hr hr'
    cases congrArg Prod.snd hr
    cases congrArg Prod.snd hr'
    exact ⟨_, rfl, hu', hd⟩

end Tables

namespace Service

theorem load_eq (p : Project) (dir : Path) (filter : List String) :
    load p dir filter = (do
      let files ← Tables.contents p dir
      buildAll p (p.layout.importPathOf p.files dir)
        ((files.flatMap (·.interfaces)).filter (isSelected filter))) := by
  rw [load, Tables.contents, bind_assoc]
  congr 1
  funext files
  rw [pure_bind, List.flatMap_map]

theorem load_finding (dir : Path) (filter : List String) :
    (Tables.finding p True).Relates (load p dir filter) (load p dir filter) := by
  rw [load_eq]
  exact (Tables.finding p True).bind (Tables.contents_finding dir) fun files _ ↦
    buildAll_relates (fun d ↦ build_finding d _) _

/-- The same services are loaded in another project with the same files in the directory. -/
theorem load_lockstep {dir : Path} (hs : p'.files.sources? dir = p.files.sources? dir)
    (hi : p'.layout.importPathOf p'.files dir = p.layout.importPathOf p.files dir)
    (filter : List String) :
    (Tables.lockstep p p' same False).Relates (load p dir filter) (load p' dir filter) := by
  rw [load_eq, load_eq, hi]
  refine (Tables.contents_lockstep hs).bind fun files ↦ ?_
  exact buildAll_relates (fun d ↦ build_lockstep d _) _

end Service

end GoOpenApi
