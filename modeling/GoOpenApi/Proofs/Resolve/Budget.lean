import GoOpenApi.Proofs.Resolve.Meaning
import Mathlib.Data.List.Nodup
import Mathlib.Data.List.Perm.Subperm
import Mathlib.Tactic.Linarith

/-!
How deep declared types can lie inside each other. Each of them is declared in a file, and its
package is named there or in the type from which the walk starts.
-/

namespace GoOpenApi

section

variable {α β : Type} {weight : β → Nat} {f : α → List β}

theorem totalWeight_append (as bs : List β) :
    totalWeight weight (as ++ bs) = totalWeight weight as + totalWeight weight bs := by
  induction as with
  | nil => simp [totalWeight]
  | cons a as ih => rw [List.cons_append, totalWeight, totalWeight, ih, Nat.add_assoc]

theorem totalWeight_flatMap (as : List α) :
    totalWeight weight (as.flatMap f) = totalWeight (fun a ↦ totalWeight weight (f a)) as := by
  induction as with
  | nil => rfl
  | cons a as ih => rw [List.flatMap_cons, totalWeight_append, ih, totalWeight]

theorem totalWeight_map (g : α → β) (as : List α) :
    totalWeight weight (as.map g) = totalWeight (fun a ↦ weight (g a)) as := by
  induction as with
  | nil => rfl
  | cons a as ih => rw [List.map_cons, totalWeight, ih, totalWeight]

theorem length_flatMap_le {weight : α → Nat} (h : ∀ a, (f a).length ≤ weight a) (as : List α) :
    (as.flatMap f).length ≤ totalWeight weight as := by
  induction as with
  | nil => exact Nat.le_refl _
  | cons a as ih =>
    rw [List.flatMap_cons, List.length_append, totalWeight]
    exact Nat.add_le_add (h a) ih

theorem length_le_totalWeight {weight : α → Nat} (h : ∀ a, 0 < weight a) (as : List α) :
    as.length ≤ totalWeight weight as := by
  induction as with
  | nil => exact Nat.le_refl _
  | cons a as ih =>
    have := h a
    rw [List.length_cons, totalWeight]
    omega

end

mutual

/-- The packages that are named in a type. -/
def GoType.packages : GoType → List String
  | .named _ (some origin) => [origin]
  | .named _ none => []
  | .imported package next => package :: next.packages
  | .pointer next | .slice next | .ellipsis next | .array _ next => next.packages
  | .map key value => key.packages ++ value.packages
  | .interface _ => []
  | .struct fields => Field.packages fields

def Field.packages : List Field → List String
  | [] => []
  | ⟨_, type, _, _⟩ :: fields => type.packages ++ Field.packages fields

end

mutual

theorem GoType.length_packages_le : ∀ type : GoType, type.packages.length ≤ type.weight
  | .named _ (some _) | .named _ none | .interface _ => by simp [GoType.packages, GoType.weight]
  | .imported _ next | .pointer next | .slice next | .ellipsis next | .array _ next => by
    have := next.length_packages_le
    simp only [GoType.packages, GoType.weight, List.length_cons]
    omega
  | .map key value => by
    have hk := key.length_packages_le
    have hv := value.length_packages_le
    simp only [GoType.packages, GoType.weight, List.length_append]
    omega
  | .struct fields => by
    have := Field.length_packages_le fields
    simp only [GoType.packages, GoType.weight]
    omega

theorem Field.length_packages_le :
    ∀ fields : List Field, (Field.packages fields).length ≤ Field.weights fields
  | [] => Nat.le_refl _
  | ⟨_, type, _, _⟩ :: fields => by
    have ht := type.length_packages_le
    have hf := Field.length_packages_le fields
    simp only [Field.packages, Field.weights, List.length_append]
    omega

end

mutual

/-- A name is one of the package in which the type is written, or its package is named there. -/
theorem GoType.package_of_mem_names {q : QualifiedName} :
    ∀ (type : GoType) (package : String), q ∈ type.names package →
      q.package ∈ package :: type.packages
  | .named name (some origin), package, h => by
    simp only [GoType.names] at h
    split at h <;> simp_all [GoType.packages]
  | .named name none, package, h => by
    simp only [GoType.names] at h
    split at h <;> simp_all [GoType.packages]
  | .interface _, _, h => by simp [GoType.names] at h
  | .imported origin next, package, h => by
    have := next.package_of_mem_names origin h
    simp_all [GoType.packages]
  | .pointer next, package, h | .ellipsis next, package, h | .array _ next, package, h =>
    next.package_of_mem_names package h
  | .slice next, package, h => by
    simp only [GoType.names] at h
    split at h
    · cases h
    · exact next.package_of_mem_names package h
  | .map key value, package, h => by
    rcases List.mem_append.mp h with h | h
    · have := key.package_of_mem_names package h
      grind [GoType.packages]
    · have := value.package_of_mem_names package h
      grind [GoType.packages]
  | .struct fields, package, h => Field.package_of_mem_names fields package h

theorem Field.package_of_mem_names {q : QualifiedName} :
    ∀ (fields : List Field) (package : String), q ∈ Field.names fields package →
      q.package ∈ package :: Field.packages fields
  | ⟨_, type, _, _⟩ :: fields, package, h => by
    rcases List.mem_append.mp h with h | h
    · have := type.package_of_mem_names package h
      grind [Field.packages]
    · have := Field.package_of_mem_names fields package h
      grind [Field.packages]

end

namespace Declaration

def packages : Declaration → List String
  | .struct d => Field.packages d.fields
  | .interface d => d.embedded.flatMap GoType.packages
  | .alias d => d.target.packages

theorem length_packages_le (d : Declaration) : d.packages.length ≤ d.weight := by
  cases d with
  | interface d =>
    have hle := length_flatMap_le GoType.length_packages_le d.embedded
    rw [packages, weight]
    omega
  | struct d => exact Nat.le_succ_of_le (Field.length_packages_le d.fields)
  | «alias» d => exact Nat.le_succ_of_le d.target.length_packages_le

theorem packages_toType (d : Declaration) : d.toType.packages ⊆ d.packages := by
  cases d with
  | struct d => exact List.Subset.refl _
  | interface d => exact List.nil_subset _
  | «alias» d => exact List.Subset.refl _

theorem weight_pos (d : Declaration) : 0 < d.weight := by
  cases d <;> exact Nat.succ_pos _

theorem package_of_mem_names {d : Declaration} {package : String} {q : QualifiedName}
    (h : q ∈ d.names package) : q.package ∈ package :: d.packages := by
  cases d with
  | interface d => cases h
  | struct d => exact Field.package_of_mem_names d.fields package h
  | «alias» d => exact d.target.package_of_mem_names package h

end Declaration

namespace Declaration

/-- The declarations of a list, each with the name under which it is found. -/
def entries (declarations : List Declaration) : List (String × Declaration) :=
  declarations.map fun d ↦ (d.name, d)

theorem mem_entries {d : Declaration} {declarations : List Declaration} (h : d ∈ declarations) :
    (d.name, d) ∈ entries declarations := List.mem_map_of_mem h

theorem totalWeight_entries (declarations : List Declaration) :
    totalWeight (·.2.weight) (entries declarations) = totalWeight weight declarations :=
  totalWeight_map ..

end Declaration

section

variable {ds : List (String × Declaration)} {packages : List String} {q q' : QualifiedName}
  {d : Declaration}

/-- The given packages and those that are named in declarations. -/
def packagesAmong (ds : List (String × Declaration)) (packages : List String) : List String :=
  packages ++ ds.flatMap (·.2.packages)

/-- The names that can be met on the way from a type that names the given packages. -/
def namesAmong (ds : List (String × Declaration)) (packages : List String) : List QualifiedName :=
  (packagesAmong ds packages).flatMap fun package ↦ ds.map fun d ↦ ⟨package, d.1⟩

theorem mem_namesAmong (h : (q.name, d) ∈ ds) (hq : q.package ∈ packagesAmong ds packages) :
    q ∈ namesAmong ds packages :=
  List.mem_flatMap.mpr ⟨q.package, hq, List.mem_map.mpr ⟨_, h, rfl⟩⟩

theorem packagesAmong_of_mem_names (h : (q.name, d) ∈ ds)
    (hq : q.package ∈ packagesAmong ds packages) (hn : q' ∈ d.names q.package) :
    q'.package ∈ packagesAmong ds packages := by
  rcases List.mem_cons.mp (Declaration.package_of_mem_names hn) with he | hd
  · exact he ▸ hq
  · exact List.mem_append_right _ (List.mem_flatMap.mpr ⟨_, h, hd⟩)

theorem length_namesAmong_lt {size weight : Nat} (hd : totalWeight (·.2.weight) ds ≤ size)
    (h : packages.length ≤ weight + 1) :
    (namesAmong ds packages).length < (size + weight + 2) * (size + weight + 2) := by
  have hn : ds.length ≤ size :=
    (length_le_totalWeight (fun d ↦ d.2.weight_pos) ds).trans hd
  have hp : (ds.flatMap (·.2.packages)).length ≤ size :=
    (length_flatMap_le (fun d ↦ d.2.length_packages_le) ds).trans hd
  have hl : (namesAmong ds packages).length =
      (packages.length + (ds.flatMap (·.2.packages)).length) * ds.length := by
    simp [namesAmong, packagesAmong, List.length_flatMap, Nat.add_mul]
  rw [hl]
  nlinarith

end

namespace Node

theorem filesFrom_subset_entriesFrom {n : Node} {above : List String} {name : String}
    {entries : List (String × Node)} (h : Dict.find? name entries = some n) :
    filesFrom (above ++ [name]) n ⊆ entriesFrom above entries := by
  induction entries with
  | nil => simp at h
  | cons entry entries ih =>
    rw [Dict.find?_cons] at h
    rw [entriesFrom]
    split at h
    · rename_i hn
      cases h
      exact hn ▸ List.subset_append_left _ _
    · exact List.Subset.trans (ih h) (List.subset_append_right _ _)

theorem mem_filesFrom_of_at? {content : Content} (names above : List String) (n : Node)
    (h : n.at? names = some (.file content)) : (above ++ names, content) ∈ filesFrom above n := by
  induction names generalizing above n with
  | nil =>
    cases h
    simp [filesFrom]
  | cons name names ih =>
    cases n with
    | file content => simp [at?] at h
    | dir entries =>
      rw [at?] at h
      obtain ⟨n, hn, h⟩ := Option.bind_eq_some_iff.mp h
      rw [List.append_cons]
      exact filesFrom_subset_entriesFrom hn (ih (above ++ [name]) n h)

end Node

def Content.declarations : Content → List Declaration
  | .text s => (SourceFile.parse? s).toList.flatMap SourceFile.declarations
  | .binary _ => []

theorem Content.totalWeight_declarations (content : Content) :
    totalWeight Declaration.weight content.declarations = content.weight := by
  cases content with
  | text s => exact totalWeight_flatMap _
  | binary bytes => rfl

namespace FileTree

/-- What is declared in all files. -/
def declarations (t : FileTree) : List Declaration := t.root.files.flatMap (·.2.declarations)

theorem totalWeight_declarations (t : FileTree) :
    totalWeight Declaration.weight t.declarations = t.weight := by
  rw [declarations, totalWeight_flatMap, weight]
  congr 1
  funext file
  exact file.2.totalWeight_declarations

variable {t : FileTree} {p dir : Path} {name : String} {d : Declaration}

theorem declarations_of_source {file : SourceFile} (h : t.source p = .ok file) :
    file.declarations ⊆ t.declarations := by
  unfold source at h
  split at h
  · cases h
  · rename_i text hr
    split at h
    · rename_i file' hf
      cases h
      unfold readText at hr
      cases hl : t.locate p with
      | error fault => simp [hl] at hr
      | ok found =>
        obtain ⟨place, n⟩ := found
        obtain ⟨-, -, hn, -⟩ := locate_ok_iff.mp hl
        rcases n with (s | bytes) | entries
        · have hs : s = text := by simpa [hl] using hr
          intro d hd
          refine List.mem_flatMap.mpr ⟨_, Node.mem_filesFrom_of_at? place [] _ hn, ?_⟩
          simpa [Content.declarations, hs, hf] using hd
        · simp [hl] at hr
        · simp [hl] at hr
    · cases h

theorem mem_of_declaredAt (h : t.declaredAt name p = some (some d)) :
    d ∈ t.declarations ∧ d.name = name := by
  unfold declaredAt at h
  cases hs : t.source p with
  | error fault => simp [hs, Except.toOption] at h
  | ok file =>
    have hf : file.declarations.find? (·.name == name) = some d := by
      simpa [hs, Except.toOption, SourceFile.find?] using h
    exact ⟨declarations_of_source hs (List.mem_of_find?_eq_some hf), by
      simpa using List.find?_some hf⟩

theorem mem_of_declaredUnder (h : t.declaredUnder name dir = some (some d)) :
    d ∈ t.declarations ∧ d.name = name := by
  rw [declaredUnder_eq] at h
  obtain ⟨p, -, h⟩ := firstFound_mem h
  exact mem_of_declaredAt h

end FileTree

namespace Project

variable {p : Project} {q q' : QualifiedName} {d : Declaration}

theorem mem_of_declared (h : p.declared? q = some (some d)) :
    d ∈ p.files.declarations ∧ d.name = q.name := by
  obtain ⟨step, -, h⟩ := firstFound_mem h
  unfold declaredBy at h
  split at h
  · exact FileTree.mem_of_declaredUnder h
  · cases h

variable (p)

/-- The given packages and those that are named in declarations. -/
def packagesWith (packages : List String) : List String :=
  packages ++ p.files.declarations.flatMap Declaration.packages

/-- The names that can be met on the way from a type that names the given packages. -/
def range (packages : List String) : List QualifiedName :=
  (p.packagesWith packages).flatMap fun package ↦
    p.files.declarations.map fun d ↦ ⟨package, d.name⟩

theorem packagesWith_eq (packages : List String) : p.packagesWith packages =
    packagesAmong (Declaration.entries p.files.declarations) packages := by
  simp [packagesWith, packagesAmong, Declaration.entries, List.flatMap_map]

theorem range_eq (packages : List String) :
    p.range packages = namesAmong (Declaration.entries p.files.declarations) packages := by
  simp [range, namesAmong, packagesWith_eq, Declaration.entries, Function.comp_def]

theorem length_range_lt (packages : List String) {weight : Nat}
    (h : packages.length ≤ weight + 1) :
    (p.range packages).length < (p.weight + weight + 2) * (p.weight + weight + 2) := by
  rw [range_eq]
  refine length_namesAmong_lt (Nat.le_of_eq ?_) h
  rw [Declaration.totalWeight_entries, p.files.totalWeight_declarations, p.weight_eq]

variable {p}

variable {packages : List String}

theorem mem_range_of_declared (h : p.declared? q = some (some d))
    (hq : q.package ∈ p.packagesWith packages) : q ∈ p.range packages := by
  obtain ⟨hd, hn⟩ := mem_of_declared h
  rw [range_eq]
  exact mem_namesAmong (hn ▸ Declaration.mem_entries hd) (p.packagesWith_eq packages ▸ hq)

theorem mem_range_of_leads (h : p.Leads q q') (hq : q.package ∈ p.packagesWith packages) :
    q ∈ p.range packages := by
  obtain ⟨d, h, -⟩ := h
  exact mem_range_of_declared h hq

/-- The package of a declared type and those named in what is declared are among the packages. -/
theorem subset_packagesWith (h : p.declared? q = some (some d))
    (hq : q.package ∈ p.packagesWith packages) :
    q.package :: d.packages ⊆ p.packagesWith packages :=
  List.cons_subset.mpr ⟨hq, fun _ hm ↦ List.mem_append_right _
    (List.mem_flatMap.mpr ⟨d, (mem_of_declared h).1, hm⟩)⟩

theorem package_of_leads (h : p.Leads q q') (hq : q.package ∈ p.packagesWith packages) :
    q'.package ∈ p.packagesWith packages := by
  obtain ⟨d, hd, hn⟩ := h
  exact subset_packagesWith hd hq (Declaration.package_of_mem_names hn)

end Project

namespace Tables

variable {p : Project} {packages : List String} {inside : List QualifiedName} {n : Nat}
  {q q' : QualifiedName}

/-- Inside the bodies of `inside` there is room for `n` more levels of names from a list. -/
structure RoomAmong (names inside : List QualifiedName) (n : Nat) : Prop where
  nodup : inside.Nodup
  subset : inside ⊆ names
  enough : names.length < inside.length + n

namespace RoomAmong

variable {names : List QualifiedName}

theorem ne_zero (h : RoomAmong names inside n) : n ≠ 0 := by
  have hle := (List.subperm_of_subset h.nodup h.subset).length_le
  have := h.enough
  omega

theorem enter (h : RoomAmong names inside (n + 1)) (hi : q ∉ inside) (hq : q ∈ names) :
    RoomAmong names (q :: inside) n where
  nodup := List.nodup_cons.mpr ⟨hi, h.nodup⟩
  subset := List.cons_subset.mpr ⟨hq, h.subset⟩
  enough := by
    have := h.enough
    rw [List.length_cons]
    omega

end RoomAmong

/-- Inside the bodies of `inside` there is room for `n` more levels. -/
structure Room (p : Project) (packages : List String) (inside : List QualifiedName) (n : Nat) :
    Prop where
  nodup : inside.Nodup
  range : inside ⊆ p.range packages
  enough : (p.range packages).length < inside.length + n

theorem Room.among (h : Room p packages inside n) : RoomAmong (p.range packages) inside n :=
  ⟨h.nodup, h.range, h.enough⟩

theorem Room.ne_zero (h : Room p packages inside n) : n ≠ 0 := h.among.ne_zero

theorem Room.enter (h : Room p packages inside (n + 1)) (hi : q ∉ inside)
    (hq : q ∈ p.range packages) : Room p packages (q :: inside) n :=
  have hr := h.among.enter hi hq
  ⟨hr.nodup, hr.subset, hr.enough⟩

theorem lt_budget (tables : Tables) {weight : Nat} (h : packages.length ≤ weight + 1) :
    (p.range packages).length < budget p tables weight := by
  unfold budget
  exact Nat.lt_of_lt_of_le (p.length_range_lt packages h) (Nat.mul_le_mul (by omega) (by omega))

theorem room_budget (tables : Tables) {weight : Nat} (h : packages.length ≤ weight + 1) :
    Room p packages [] (budget p tables weight) :=
  ⟨.nil, List.nil_subset _, by simpa using lt_budget tables h⟩

theorem room_of_leads (tables : Tables) (h : p.Leads q q') :
    Room p [q.package] [q] (budget p tables 0) :=
  ⟨List.nodup_singleton q,
    by simpa using Project.mem_range_of_leads h (List.mem_append_left _ List.mem_cons_self),
    Nat.lt_add_left 1 (lt_budget tables (Nat.le_refl 1))⟩

end Tables

end GoOpenApi
