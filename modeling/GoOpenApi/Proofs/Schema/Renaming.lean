import GoOpenApi.Proofs.Schema.Walk

/-!
Schemas with other texts in place of their references. With the owners of the components in them,
schemas of two registries can be compared.
-/

namespace GoOpenApi

theorem Dict.map_insert {α β : Type} (f : α → β) (key : String) (v : α) (d : Dict α) :
    (Dict.insert key v d).map (fun e ↦ (e.1, f e.2)) =
      Dict.insert key (f v) (d.map fun e ↦ (e.1, f e.2)) := by
  induction d with
  | nil => rfl
  | cons e d ih =>
    simp only [Dict.insert, List.map_cons]
    split
    · rfl
    · split
      · rfl
      · rw [List.map_cons, ih]

namespace Schema

mutual

/-- The schema with every reference in it changed. -/
def mapReferences (f : String → String) : Schema → Schema
  | ⟨type, format, description, properties, required, items, additional, reference, oneOf⟩ =>
    ⟨type, format, description,
      match properties with
        | some ps => some (mapProperties f ps)
        | none => none,
      required,
      match items with
        | some s => some (s.mapReferences f)
        | none => none,
      match additional with
        | some s => some (s.mapReferences f)
        | none => none,
      reference.map f,
      match oneOf with
        | some ss => some (mapAll f ss)
        | none => none⟩

def mapProperties (f : String → String) : List (String × Schema) → List (String × Schema)
  | [] => []
  | (key, s) :: rest => (key, s.mapReferences f) :: mapProperties f rest

def mapAll (f : String → String) : List Schema → List Schema
  | [] => []
  | s :: rest => s.mapReferences f :: mapAll f rest

end

variable (f : String → String) (s : Schema)

theorem mapProperties_eq (ps : List (String × Schema)) :
    mapProperties f ps = ps.map fun e ↦ (e.1, e.2.mapReferences f) := by
  induction ps with
  | nil => rfl
  | cons e ps ih => rw [mapProperties, ih, List.map_cons]

@[simp] theorem mapReferences_referenceTo (id : String) :
    (referenceTo id).mapReferences f = { reference := some (f (componentsPath ++ id)) } := rfl

@[simp] theorem mapReferences_object : object.mapReferences f = object := rfl

@[simp] theorem mapReferences_ofPrimitive (p : Primitive) :
    (ofPrimitive p).mapReferences f = ofPrimitive p := by cases p <;> rfl

@[simp] theorem mapReferences_array :
    (array s).mapReferences f = array (s.mapReferences f) := rfl

@[simp] theorem mapReferences_map : (map s).mapReferences f = map (s.mapReferences f) := rfl

end Schema

namespace Collected

variable (f : String → String)

def mapReferences (c : Collected) : Collected :=
  { c with properties := Schema.mapProperties f c.properties }

theorem mapReferences_add (c : Collected) (name : String) (isRequired : Bool) (s : Schema) :
    (c.add name isRequired s).mapReferences f =
      (c.mapReferences f).add name isRequired (s.mapReferences f) := by
  simp only [mapReferences, add, Schema.mapProperties_eq, Dict.map_insert (Schema.mapReferences f)]

theorem mapReferences_ofSchemas (supply : Supply) (ss : List Schema) :
    (ofSchemas supply ss).mapReferences f =
      ofSchemas supply (ss.map (Schema.mapReferences f)) := by
  have h : ((supply.fields.zip ss).foldl addField {}).mapReferences f =
      (supply.fields.zip (ss.map (Schema.mapReferences f))).foldl addField {} := by
    rw [List.zip_map_right, List.foldl_map]
    exact (List.foldl_hom (mapReferences f) fun c e ↦
      (mapReferences_add f c e.1.1 e.1.2.isRequired e.2).symm).symm
  exact congrArg (fun c : Collected ↦ { c with embedded := supply.embedded }) h

theorem mapReferences_toSchema (c : Collected) :
    c.toSchema.mapReferences f = (c.mapReferences f).toSchema := by
  obtain ⟨properties, required, embedded⟩ := c
  cases properties <;> rfl

end Collected

namespace Registry

variable (r : Registry) (label : QualifiedName → String)

/-- A reference with a text for the owner of the component in place of its id. -/
def ownerReference (text : String) : String :=
  match (Text.dropStart? Schema.componentsPath text).bind r.ownerOf? with
  | some q => Schema.componentsPath ++ label q
  | none => text

end Registry

/-- The schema with every component id replaced by a text for the type that owns it. -/
def Schema.byOwner (r : Registry) (label : QualifiedName → String) (s : Schema) : Schema :=
  s.mapReferences (r.ownerReference label)

theorem Schema.byOwner_referenceTo {r : Registry} {q : QualifiedName} {id : String}
    (h : r.ownerOf? id = some q) (label : QualifiedName → String) :
    (referenceTo id).byOwner r label = .referenceTo (label q) := by
  have ho : r.ownerReference label (componentsPath ++ id) = componentsPath ++ label q := by
    simp [Registry.ownerReference, Text.dropStart?, Text.dropHead, h]
  rw [byOwner, mapReferences_referenceTo, ho]
  rfl

end GoOpenApi
