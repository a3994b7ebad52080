import GoOpenApi.Go.SourceText
import Mathlib.Data.List.Basic
import Mathlib.Tactic.Common

/-!
Which import a qualified type belongs to. An import without a name of its own, be it a blank or a
dot import, goes by the name that is guessed from its path, and the first import that goes by a
name takes all types qualified with it.
-/

namespace GoOpenApi

mutual

/-- The types that a type is made of, itself first. -/
def GoType.parts : GoType → List GoType
  | .named name package => [.named name package]
  | .pointer next => .pointer next :: next.parts
  | .slice next => .slice next :: next.parts
  | .array length next => .array length next :: next.parts
  | .map key value => .map key value :: (key.parts ++ value.parts)
  | .interface methods => .interface methods :: Method.parts methods
  | .struct fields => .struct fields :: Field.parts fields
  | .ellipsis next => .ellipsis next :: next.parts
  | .imported package next => .imported package next :: next.parts

def Field.parts : List Field → List GoType
  | [] => []
  | ⟨_, type, _, _⟩ :: fields => type.parts ++ Field.parts fields

def Method.parts : List Method → List GoType
  | [] => []
  | ⟨_, _, args, results⟩ :: methods =>
    Field.parts args ++ Field.parts results ++ Method.parts methods

end

section

open GoOpenApi.GoType (mapFields mapMethods)

variable (f : String → String)

mutual

theorem GoType.parts_mapPackages :
    ∀ t : GoType, (t.mapPackages f).parts = t.parts.map (·.mapPackages f)
  | .named name package => by simp [GoType.mapPackages, GoType.parts]
  | .pointer next | .slice next | .array _ next | .ellipsis next | .imported _ next => by
    simp [GoType.mapPackages, GoType.parts, next.parts_mapPackages]
  | .map key value => by
    simp [GoType.mapPackages, GoType.parts, key.parts_mapPackages, value.parts_mapPackages]
  | .interface methods => by
    simp [GoType.mapPackages, GoType.parts, Method.parts_mapMethods methods]
  | .struct fields => by
    simp [GoType.mapPackages, GoType.parts, Field.parts_mapFields fields]

theorem Field.parts_mapFields : ∀ fields : List Field,
    Field.parts (mapFields f fields) = (Field.parts fields).map (·.mapPackages f)
  | [] => by simp [mapFields, Field.parts]
  | ⟨_, type, _, _⟩ :: fields => by
    simp [mapFields, GoType.mapField, Field.parts, type.parts_mapPackages,
      Field.parts_mapFields fields]

theorem Method.parts_mapMethods : ∀ methods : List Method,
    Method.parts (mapMethods f methods) = (Method.parts methods).map (·.mapPackages f)
  | [] => by simp [mapMethods, Method.parts]
  | ⟨_, _, args, results⟩ :: methods => by
    simp [mapMethods, GoType.mapMethod, Method.parts, Field.parts_mapFields args,
      Field.parts_mapFields results, Method.parts_mapMethods methods]

end

end

/-- The types in a declaration, with all that they are made of. -/
def Declaration.parts : Declaration → List GoType
  | .interface d => Method.parts d.methods ++ d.embedded.flatMap (·.parts)
  | .struct d => Field.parts d.fields
  | .alias d => d.target.parts

namespace Go

def TypeBody.parts : TypeBody → List GoType
  | .interface methods embedded => Method.parts methods ++ embedded.flatMap (·.parts)
  | .struct fields => Field.parts fields
  | .other type => type.parts

/-- The declaration of a specification, once its packages have become import paths. -/
def declarationOf (path : String → String) (spec : List String × TypeSpec) : Declaration :=
  match spec.2.body with
  | .interface methods embedded =>
    .interface ⟨spec.2.name, spec.1, GoType.mapMethods path methods,
      embedded.map (·.mapPackages path)⟩
  | .struct fields => .struct ⟨spec.2.name, spec.1, GoType.mapFields path fields⟩
  | .other type => .alias ⟨spec.2.name, spec.1, type.mapPackages path⟩

/-- The type specifications of a text with their docs, as they are written. -/
def writtenSpecs? (text : String) : Option (List (List String × TypeSpec)) :=
  ((Token.ofText? text).bind fileOf?).map fun items ↦ (documented items).flatMap specsOf

theorem parts_declarationOf (path : String → String) (spec : List String × TypeSpec) :
    (declarationOf path spec).parts = spec.2.body.parts.map (·.mapPackages path) := by
  obtain ⟨docs, name, body⟩ := spec
  cases body with
  | interface methods embedded =>
    have hembedded : (embedded.map (·.mapPackages path)).flatMap (·.parts) =
        (embedded.flatMap (·.parts)).map (·.mapPackages path) := by
      simp only [List.flatMap_map, List.map_flatMap, GoType.parts_mapPackages]
    simp only [declarationOf, Declaration.parts, TypeBody.parts, Method.parts_mapMethods, hembedded,
      List.map_append]
  | struct fields => exact Field.parts_mapFields path fields
  | other type => exact type.parts_mapPackages path

/-- A file has a declaration for each specification. -/
theorem declarations_collect (items : List (Sibling TopLevel)) :
    (collect items).declarations.Perm (((documented items).flatMap specsOf).map
      (declarationOf (importPath (collect items).imports))) := by
  simp only [SourceFile.declarations, collect]
  generalize importPath _ = path
  induction (documented items).flatMap specsOf with
  | nil => exact .refl _
  | cons spec specs ih =>
    obtain ⟨docs, name, body⟩ := spec
    cases body with
    | interface methods embedded => exact ih.cons _
    | struct fields => exact List.perm_middle.trans (ih.cons _)
    | other type => exact (List.perm_middle.append_right _).trans (ih.cons _)

end Go

/-- The name is only guessed for the import, from its path. -/
def Import.isGuessed (name : String) (i : Import) : Bool :=
  i.alias?.isNone && guessedPackageName i.path == name

/-- A name that one import alone is given stands for that import, unless the name is guessed for
one before it. -/
theorem Go.importPath_of_alias {before after : List Import} {i : Import} {name : String}
    (hi : i.alias? = some name) (hother : ∀ j ∈ before, j.alias? ≠ some name) :
    importPath (before ++ i :: after) name = ((before.find? (·.isGuessed name)).getD i).path := by
  induction before with
  | nil =>
    have hself : (i.localName == name) = true := by simp [Import.localName, hi]
    rw [importPath, List.nil_append,
      List.find?_cons_of_pos (p := fun i : Import ↦ i.localName == name) hself]
    rfl
  | cons j before ih =>
    obtain ⟨hj, hbefore⟩ := List.forall_mem_cons.mp hother
    have hname : (j.localName == name) = j.isGuessed name := by
      rw [Import.localName, Import.isGuessed]
      cases ha : j.alias? with
      | none => rw [Option.getD_none, Option.isNone_none, Bool.true_and]
      | some other =>
        rw [Option.getD_some, Option.isNone_some, Bool.false_and, beq_eq_false_iff_ne]
        rintro rfl
        exact hj ha
    rw [importPath, List.cons_append, List.find?_cons, List.find?_cons, hname]
    cases j.isGuessed name with
    | true => rfl
    | false => exact ih hbefore

/-- Every declaration of a file is that of a specification in it, with the types in the same
places. A type that is qualified with the name of one import alone gets the path of the first one
before it for which that name is guessed, and of that import itself only if there is none or its
path is the same. -/
theorem qualified_type_iff {text : String} {file : SourceFile}
    (h : SourceFile.parse? text = some file) {before after : List Import} {i : Import}
    {name : String} (hf : file.imports = before ++ i :: after) (hi : i.alias? = some name)
    (hother : ∀ j ∈ before ++ after, j.alias? ≠ some name) :
    ∃ specs, Go.writtenSpecs? text = some specs ∧
      file.declarations.Perm (specs.map (Go.declarationOf (Go.importPath file.imports))) ∧
      ∀ spec ∈ specs, ∀ (k : Nat) (type : String),
        spec.2.body.parts[k]? = some (GoType.qualified name type) →
        (Go.declarationOf (Go.importPath file.imports) spec).parts[k]? =
          some (GoType.qualified ((before.find? (·.isGuessed name)).getD i).path type) ∧
        ((Go.declarationOf (Go.importPath file.imports) spec).parts[k]? =
            some (GoType.qualified i.path type) ↔
          ∀ j, before.find? (·.isGuessed name) = some j → j.path = i.path) := by
  obtain ⟨items, hitems, rfl⟩ := Option.map_eq_some_iff.mp h
  refine ⟨_, by rw [Go.writtenSpecs?, hitems, Option.map_some], Go.declarations_collect items,
    fun spec _ k type hk ↦ ?_⟩
  have hpath : Go.importPath (Go.collect items).imports name =
      ((before.find? (·.isGuessed name)).getD i).path := by
    rw [hf]
    exact Go.importPath_of_alias hi fun j hj ↦ hother j (List.mem_append_left _ hj)
  have hpart : (Go.declarationOf (Go.importPath (Go.collect items).imports) spec).parts[k]? =
      some (GoType.qualified ((before.find? (·.isGuessed name)).getD i).path type) := by
    rw [Go.parts_declarationOf, List.getElem?_map, hk, ← hpath]
    rfl
  refine ⟨hpart, ?_⟩
  rw [hpart]
  cases before.find? (·.isGuessed name) <;> simp [GoType.qualified]

def GoType.isQualified (package name : String) : GoType → Bool
  | .imported package' (.named name' (some package'')) =>
    package' == package && name' == name && package'' == package
  | _ => false

theorem GoType.isQualified_iff {package name : String} {t : GoType} :
    t.isQualified package name ↔ t = .qualified package name := by
  constructor
  · intro h
    unfold GoType.isQualified at h
    split at h
    · simp only [Bool.and_eq_true, beq_iff_eq] at h
      obtain ⟨⟨rfl, rfl⟩, rfl⟩ := h
      rfl
    · cases h
  · rintro rfl
    simp [GoType.qualified, GoType.isQualified]

/-- A file with two imports, the second under the name `models`, and a type from it. -/
def withImports (first : String) : String :=
  "package service\n\nimport (\n\t" ++ first ++ "\n\tmodels \"m/models\"\n)\n\n" ++
    "type A struct \x7b\n\tX []models.T\n\x7d\n"

theorem withImports_blank_tools : ∃ file specs spec,
    SourceFile.parse? (withImports "_ \"example.com/lib/tools\"") = some file ∧
      file.imports = [⟨none, "example.com/lib/tools"⟩] ++ ⟨some "models", "m/models"⟩ :: [] ∧
      Go.writtenSpecs? (withImports "_ \"example.com/lib/tools\"") = some specs ∧
      spec ∈ specs ∧ spec.2.body.parts[1]? = some (.qualified "models" "T") ∧
      (Go.declarationOf (Go.importPath file.imports) spec).parts[1]? =
        some (.qualified "m/models" "T") := by
  have hf : (SourceFile.parse? (withImports "_ \"example.com/lib/tools\"")).map (·.imports) =
      some [⟨none, "example.com/lib/tools"⟩, ⟨some "models", "m/models"⟩] := by
    decide +kernel
  have hs : (Go.writtenSpecs? (withImports "_ \"example.com/lib/tools\"")).map (·.map fun spec ↦
      spec.2.body.parts[1]?.map (·.isQualified "models" "T")) = some [some true] := by
    decide +kernel
  obtain ⟨file, hfile, hf⟩ := Option.map_eq_some_iff.mp hf
  obtain ⟨specs, hspecs, hs⟩ := Option.map_eq_some_iff.mp hs
  obtain ⟨spec, rfl, hs⟩ := List.map_eq_singleton_iff.mp hs
  obtain ⟨type, htype, hq⟩ := Option.map_eq_some_iff.mp (List.singleton_inj.mp hs)
  obtain rfl := GoType.isQualified_iff.mp hq
  have himports : file.imports =
      [⟨none, "example.com/lib/tools"⟩] ++ ⟨some "models", "m/models"⟩ :: [] := hf
  obtain ⟨specs', hspecs', -, hparts⟩ := qualified_type_iff hfile himports rfl (by decide)
  cases hspecs.symm.trans hspecs'
  refine ⟨file, [spec], spec, hfile, himports, hspecs, List.mem_singleton_self spec, htype, ?_⟩
  have hnone : [(⟨none, "example.com/lib/tools"⟩ : Import)].find? (·.isGuessed "models") =
      none := by
    decide +kernel
  refine (hparts spec (List.mem_singleton_self spec) 1 "T" htype).2.mpr fun j hj ↦ ?_
  rw [hnone] at hj
  cases hj

/-- A blank import takes the type, although nothing can be qualified with it. -/
theorem withImports_blank_models : ∃ file specs,
    SourceFile.parse? (withImports "_ \"example.com/lib/models\"") = some file ∧
      file.imports = [⟨none, "example.com/lib/models"⟩, ⟨some "models", "m/models"⟩] ∧
      Go.writtenSpecs? (withImports "_ \"example.com/lib/models\"") = some specs ∧
      (∃ spec ∈ specs, .qualified "models" "T" ∈ spec.2.body.parts) ∧
      (∃ d ∈ file.declarations, .qualified "example.com/lib/models" "T" ∈ d.parts) ∧
      ∀ d ∈ file.declarations, .qualified "m/models" "T" ∉ d.parts := by
  have hf : (SourceFile.parse? (withImports "_ \"example.com/lib/models\"")).map (fun file ↦
      (file.imports, file.declarations.any fun d ↦
        d.parts.any (·.isQualified "example.com/lib/models" "T"),
        file.declarations.any fun d ↦ d.parts.any (·.isQualified "m/models" "T"))) =
      some ([⟨none, "example.com/lib/models"⟩, ⟨some "models", "m/models"⟩], true, false) := by
    decide +kernel
  have hs : (Go.writtenSpecs? (withImports "_ \"example.com/lib/models\"")).map (·.any fun spec ↦
      spec.2.body.parts.any (·.isQualified "models" "T")) = some true := by
    decide +kernel
  obtain ⟨file, hfile, hf⟩ := Option.map_eq_some_iff.mp hf
  obtain ⟨specs, hspecs, hs⟩ := Option.map_eq_some_iff.mp hs
  simp only [Prod.mk.injEq, List.any_eq_true, List.any_eq_false, GoType.isQualified_iff] at hf hs
  obtain ⟨himports, ⟨d, hd, type, htype, rfl⟩, hnone⟩ := hf
  obtain ⟨spec, hspec, type, hpart, rfl⟩ := hs
  exact ⟨file, specs, hfile, himports, hspecs, ⟨spec, hspec, hpart⟩, ⟨d, hd, htype⟩,
    fun d hd hm ↦ hnone d hd ⟨_, hm, rfl⟩⟩

end GoOpenApi
