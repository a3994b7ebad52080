import GoOpenApi.Proofs.Resolve.Determinism

/-!
The declared types that shapes name. Those in an answer, and those in a body between calls that are
answered, have bodies in the table.
-/

namespace GoOpenApi

mutual

/-- The names of declared types in a shape. -/
def Shape.names : Shape → List QualifiedName
  | .named q => [q]
  | .record fields => ShapeField.names fields
  | .alias target | .pointer target => target.names
  | .array _ item => item.names
  | .map key value => key.names ++ value.names
  | .primitive _ | .unresolved _ | .interface _ => []

def ShapeField.names : List ShapeField → List QualifiedName
  | [] => []
  | ⟨_, _, _, _, type⟩ :: fields => type.names ++ ShapeField.names fields

end

theorem ShapeField.names_subset {f : ShapeField} {fields : List ShapeField} (h : f ∈ fields) :
    f.type.names ⊆ ShapeField.names fields := by
  induction fields with
  | nil => cases h
  | cons f' fields ih =>
    obtain ⟨name, jsonName, flatten, omitsEmpty, type⟩ := f'
    rw [ShapeField.names]
    rcases List.mem_cons.mp h with rfl | h
    · exact List.subset_append_left _ _
    · exact List.Subset.trans (ih h) (List.subset_append_right _ _)

section

variable {named : QualifiedName → Shape}

mutual

theorem GoType.names_shape : ∀ (type : GoType) (package : String),
    (type.shape named package).names = (type.names package).flatMap fun q ↦ (named q).names
  | .named name (some origin), _ => by
    rw [GoType.shape, GoType.names]
    cases Primitive.wellKnown? origin name <;> simp [Shape.names]
  | .named name none, _ => by
    rw [GoType.shape, GoType.names]
    cases Primitive.ofName? name <;> simp [Shape.names]
  | .imported origin next, _ => next.names_shape origin
  | .pointer next, package | .ellipsis next, package | .array _ next, package =>
    next.names_shape package
  | .slice next, package => by
    rw [GoType.shape, GoType.names]
    split
    · rfl
    · exact next.names_shape package
  | .map key value, package => by
    rw [GoType.shape, GoType.names, Shape.names, List.flatMap_append, key.names_shape package,
      value.names_shape package]
  | .interface [], _ | .interface (_ :: _), _ => rfl
  | .struct fields, package => Field.names_shapes fields package

theorem Field.names_shapes : ∀ (fields : List Field) (package : String),
    ShapeField.names (Field.shapes named fields package) =
      (Field.names fields package).flatMap fun q ↦ (named q).names
  | [], _ => rfl
  | ⟨_, type, _, _⟩ :: fields, package => by
    rw [Field.shapes, ShapeField.names, Field.names, List.flatMap_append, type.names_shape package,
      Field.names_shapes fields package]

end

theorem Declaration.names_body (package : String) (d : Declaration) :
    (d.body named package).names = (d.names package).flatMap fun q ↦ (named q).names := by
  cases d with
  | struct d => exact Field.names_shapes d.fields package
  | interface d => rfl
  | «alias» d => exact d.target.names_shape package

end

/-- All names in the shape have entries. -/
def Shape.DefinedIn (definitions : Table QualifiedName Shape) (shape : Shape) : Prop :=
  ∀ q ∈ shape.names, ∃ body, definitions.find? q = some body

theorem Project.mem_names_named {p : Project} {q q' : QualifiedName} :
    q ∈ (p.named q').names ↔ q = q' ∧ p.body? q ≠ none := by
  by_cases hb : p.body? q' = none
  · rw [named_of_no_body hb]
    refine ⟨fun h ↦ (List.not_mem_nil h).elim, ?_⟩
    rintro ⟨rfl, h⟩
    exact absurd hb h
  · rw [named_of_body? hb, Shape.names, List.mem_singleton]
    refine ⟨?_, And.left⟩
    rintro rfl
    exact ⟨rfl, hb⟩

theorem Project.mem_names_body {p : Project} {q q' : QualifiedName} {body : Shape}
    (h : p.body? q = some body) : q' ∈ body.names ↔ p.Leads q q' ∧ p.body? q' ≠ none := by
  obtain ⟨d, hd, rfl⟩ := Option.map_eq_some_iff.mp h
  have hd := Option.join_eq_some_iff.mp hd
  rw [d.names_body, List.mem_flatMap]
  constructor
  · rintro ⟨q'', hq, hn⟩
    obtain ⟨rfl, hb⟩ := mem_names_named.mp hn
    exact ⟨⟨d, hd, hq⟩, hb⟩
  · rintro ⟨⟨d', hd', hq⟩, hb⟩
    cases hd.symm.trans hd'
    exact ⟨q', hq, mem_names_named.mpr ⟨rfl, hb⟩⟩

namespace Tables.Knows

variable {p : Project} {excused : Set QualifiedName} {known : List QualifiedName} {t : Tables}

theorem find?_of_met {q : QualifiedName} (hm : t.Met p [] q) (h : p.body? q ≠ none) :
    ∃ body, t.definitions.find? q = some body := by
  rcases hm with hi | hb | hu
  · cases hi
  · exact hb
  · exact absurd (Project.body?_of_undeclared hu) h

theorem find?_of_mem_names {q q' : QualifiedName} {body : Shape}
    (h : Knows p excused [] known t) (hb : t.definitions.find? q = some body)
    (hq : q' ∈ body.names) : (∃ body', t.definitions.find? q' = some body') ∨ q' ∈ excused := by
  obtain ⟨hl, hn⟩ := (Project.mem_names_body (h.faithful.definitions _ _ hb)).mp hq
  exact (h.closed q _ q' hb hl).imp_left (find?_of_met · hn)

theorem find?_of_named {names : List QualifiedName} {q : QualifiedName}
    (h : Knows p excused [] known t) (hn : names ⊆ known)
    (hq : q ∈ names.flatMap fun q' ↦ (p.named q').names) :
    ∃ body, t.definitions.find? q = some body := by
  obtain ⟨q', hq', hn'⟩ := List.mem_flatMap.mp hq
  obtain ⟨rfl, hb⟩ := Project.mem_names_named.mp hn'
  exact find?_of_met (h.met q (hn hq')) hb

theorem definedIn {type : GoType} {package : String} (h : Knows p excused [] known t)
    (hn : type.names package ⊆ known) : (type.shape p.named package).DefinedIn t.definitions :=
  fun _ hq ↦ h.find?_of_named hn (type.names_shape package ▸ hq)

theorem definedIn_record {fields : List Field} {package : String} (h : Knows p excused [] known t)
    (hn : Field.names fields package ⊆ known) :
    (Shape.record (Field.shapes p.named fields package)).DefinedIn t.definitions :=
  fun _ hq ↦ h.find?_of_named hn (Field.names_shapes fields package ▸ hq)

end Tables.Knows

end GoOpenApi
