import GoOpenApi.Proofs.Go.Signature
import GoOpenApi.Proofs.Schema.Building

/-!
Components made of arguments or results. A container has a property for each field that appears
in JSON, and keeps them until a container of the same name is made.
-/

namespace GoOpenApi

/-- The names under which fields appear in JSON. -/
def Field.jsonNames (fields : List Field) : List String := fields.filterMap Field.jsonName

namespace Supply

variable {fields : List ShapeField} {c : Supply} {key : String}

theorem mem_keys_add {f : ShapeField} :
    key ∈ (c.add f).keys ↔ key ∈ c.keys ∨ f.ownKey? = some key := by
  unfold add
  cases f.ownKey? with
  | none => simp
  | some k =>
    simp only [Option.some.injEq]
    split
    · rename_i hk
      exact ⟨.inl, fun h ↦ h.elim id (· ▸ hk)⟩
    · simp [keys, eq_comm]

theorem mem_keys_direct :
    key ∈ (direct fields c).keys ↔ key ∈ c.keys ∨ key ∈ fields.filterMap ShapeField.ownKey? := by
  induction fields generalizing c with
  | nil => simp [direct]
  | cons f fields ih =>
    have h : direct (f :: fields) c = direct fields (c.add f) := rfl
    rw [h, ih, mem_keys_add, List.mem_filterMap, List.mem_filterMap, List.exists_mem_cons_iff,
      or_assoc]

end Supply

/-- The schema is an object with these properties and no other content. -/
structure Schema.HasNames (s : Schema) (names : List String) : Prop where
  keys (key : String) : key ∈ Dict.keys (s.properties.getD []) ↔ key ∈ names
  isEmptyObject : s.isEmptyObject ↔ names = []

variable {definitions : Table QualifiedName Shape}

theorem suppliedFields_of_own {fields : List ShapeField} (h : ∀ f ∈ fields, f.flatten = false) :
    suppliedFields definitions fields = Supply.direct fields {} := by
  have hp : fields.filterMap ShapeField.promoted? = [] := by
    refine List.filterMap_eq_nil_iff.mpr fun f hf ↦ ?_
    simp [ShapeField.promoted?, h f hf]
  rw [suppliedFields, Supply.collect, hp, Supply.promote_nil]

theorem Collected.isEmptyObject_toSchema (c : Collected) :
    c.toSchema.isEmptyObject ↔ c.properties = [] := by
  cases hp : c.properties <;> simp [toSchema, Schema.isEmptyObject, hp]

theorem Schema.HasNames.congr {s : Schema} {names names' : List String} (h : s.HasNames names)
    (hn : ∀ key, key ∈ names ↔ key ∈ names') : s.HasNames names' where
  keys key := (h.keys key).trans (hn key)
  isEmptyObject := by
    rw [h.isEmptyObject, List.eq_nil_iff_forall_not_mem, List.eq_nil_iff_forall_not_mem]
    exact forall_congr' fun key ↦ not_congr (hn key)

/-- A record has the properties that are supplied. -/
theorem Walk.hasKeys {fields : List ShapeField} {r r' : Registry} {s : Schema}
    (h : Walk definitions (.record fields) r s r') :
    s.HasNames (suppliedFields definitions fields).keys := by
  cases h with
  | record hw =>
    rename_i ss
    have hl : ss.length = (suppliedFields definitions fields).fields.length := by
      simpa [Supply.types] using hw.length_eq
    have hk := Collected.mem_keys_ofSchemas hl
    refine ⟨fun key ↦ by rw [Collected.properties_toSchema, hk], ?_⟩
    rw [Collected.isEmptyObject_toSchema, ← List.map_eq_nil_iff (f := Prod.fst),
      List.eq_nil_iff_forall_not_mem, List.eq_nil_iff_forall_not_mem]
    exact forall_congr' fun key ↦ not_congr (hk key)

/-- A record without embedded fields has the properties of its own fields. -/
theorem Walk.hasNames {fields : List ShapeField} {r r' : Registry} {s : Schema}
    (h : Walk definitions (.record fields) r s r') (hf : ∀ f ∈ fields, f.flatten = false) :
    s.HasNames (fields.filterMap ShapeField.jsonName) := by
  have ho : fields.filterMap ShapeField.ownKey? = fields.filterMap ShapeField.jsonName := by
    refine List.filterMap_congr fun f hm ↦ ?_
    simp [ShapeField.ownKey?, hf f hm]
  refine h.hasKeys.congr fun key ↦ ?_
  rw [suppliedFields_of_own hf, Supply.mem_keys_direct, ho]
  simp [Supply.keys]

namespace Tables

variable {named : QualifiedName → Action Tables Shape}

theorem fieldsOf_names (fields : List Field) {package : String} {t t' : Tables}
    {shapes : List ShapeField} (h : fieldsOf named fields package t = (.ok shapes, t')) :
    shapes.map (fun f ↦ (f.jsonName, f.flatten)) =
      fields.map fun f ↦ (f.jsonName, f.isFlattened) := by
  induction fields generalizing t shapes with
  | nil =>
    cases h
    rfl
  | cons f fields ih =>
    obtain ⟨name, type, tags, embedded⟩ := f
    obtain ⟨shape, t₁, -, h⟩ := Action.bind_ok h
    obtain ⟨rest, t₂, hr, h⟩ := Action.bind_ok h
    cases h
    rw [List.map_cons, List.map_cons, ih hr]

theorem resolveFields_own {p : Project} {fields : List Field} {package : String} {t t' : Tables}
    {shapes : List ShapeField} (hf : Go.AllOwn fields)
    (h : resolveFields p fields package t = (.ok shapes, t')) :
    (∀ f ∈ shapes, f.flatten = false) ∧
      shapes.filterMap ShapeField.jsonName = Field.jsonNames fields := by
  have hn := fieldsOf_names fields h
  constructor
  · intro f hm
    have hm : (f.jsonName, f.flatten) ∈ fields.map fun f ↦ (f.jsonName, f.isFlattened) :=
      hn ▸ List.mem_map_of_mem hm
    obtain ⟨own, ho, he⟩ := List.mem_map.mp hm
    rw [← (Prod.mk.inj he).2, Field.isFlattened, hf own ho, Bool.false_and]
  · have hj := congrArg (List.filterMap Prod.fst) hn
    rwa [List.filterMap_map, List.filterMap_map] at hj

end Tables

namespace Registry

/-- A type has its id, and the component there has these properties. -/
def Stores (r : Registry) (q : QualifiedName) (names : List String) (id : String) : Prop :=
  r.idOf? q = some id ∧ ∃ s, Dict.find? id r.schemas = some s ∧ s.HasNames names

variable {r r' : Registry} {q : QualifiedName} {names : List String} {id : String}

theorem Stores.grows {changed : Set QualifiedName} (h : r.Stores q names id)
    (hr : r.Grows changed r') (hq : q ∉ changed) : r'.Stores q names id := by
  obtain ⟨hid, s, hs, hn⟩ := h
  exact ⟨hr.ids hid, s, by rw [hr.kept hq hid, hs], hn⟩

theorem componentId?_referenceTo (id : String) :
    (Schema.referenceTo id).componentId? = some id := by
  simp [Schema.referenceTo, Schema.componentId?, Text.dropStart?, Text.dropHead]

theorem Stores.component? (h : r.Stores q names id) :
    ∃ s, r.component? (.referenceTo id) = some s ∧ s.HasNames names := by
  obtain ⟨-, s, hs, hn⟩ := h
  exact ⟨s, by rw [Registry.component?, componentId?_referenceTo, Option.bind_some, hs], hn⟩

theorem Stores.refersToEmpty (h : r.Stores q names id) :
    r.refersToEmpty (.referenceTo id) ↔ names = [] := by
  obtain ⟨s, hs, hn⟩ := h.component?
  simp [Registry.refersToEmpty, hs, hn.isEmptyObject]

end Registry

namespace Generator

/-- The key of a container among the types with components. -/
def containerKey (package name : String) : QualifiedName := ⟨package ++ containerMark, name⟩

variable {p : Project} {name package : String} {fields : List Field} {g g' : Generator}
  {s : Schema}

/-- A container is stored under its key with the properties of its fields, and nothing that was
stored under another key changes. -/
theorem container_ok (hf : Go.AllOwn fields) (hr : g.registry.Coherent)
    (h : container p name package fields g = (.ok s, g')) :
    g.registry.Grows {containerKey package name} g'.registry ∧
      ∃ id, g'.registry.Stores (containerKey package name) (Field.jsonNames fields) id ∧
        s = .referenceTo id := by
  rw [container_eq] at h
  split at h
  · rename_i shapes t ht
    obtain ⟨r, hb, rfl⟩ := build_ok h
    have hc := componentOf_ok hb
    obtain ⟨ho, hn⟩ := Tables.resolveFields_own hf ht
    refine ⟨hc.grows hr, _, ⟨hc.idOf? hr, ?_⟩, hc.reference⟩
    obtain ⟨body, r₁, hw, rfl⟩ := hc.stored
    refine ⟨body, ?_, hn ▸ hw.hasNames ho⟩
    exact (Dict.find?_insert ..).trans (if_pos rfl)
  · cases h

end Generator

end GoOpenApi
