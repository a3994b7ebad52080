import GoOpenApi.Proofs.Schema.Building
import Mathlib.Data.List.Forall2
import Mathlib.Data.List.Nodup

/-!
Names that an object requires. They are different properties of the object, and in the schema of
a record the field that supplies a property decides whether it is required.
-/

namespace GoOpenApi

namespace Schema

/-- A schema stands in another, at any depth. -/
inductive Occurs (u : Schema) : Schema → Prop where
  | here : Occurs u u
  | property {s v : Schema} {properties : List (String × Schema)} {key : String} :
    s.properties = some properties → (key, v) ∈ properties → Occurs u v → Occurs u s
  | items {s v : Schema} : s.items = some v → Occurs u v → Occurs u s
  | additional {s v : Schema} : s.additionalProperties = some v → Occurs u v → Occurs u s
  | choice {s v : Schema} {choices : List Schema} :
    s.oneOf = some choices → v ∈ choices → Occurs u v → Occurs u s

/-- If the schema requires names, there is at least one, and they are different properties. -/
def RequiresOwn (s : Schema) : Prop :=
  ∀ names, s.required = some names →
    names ≠ [] ∧ names.Nodup ∧ ∀ name ∈ names, name ∈ Dict.keys (s.properties.getD [])

def AllRequireOwn (s : Schema) : Prop := ∀ u, Occurs u s → u.RequiresOwn

variable {s : Schema}

theorem RequiresOwn.of_none (h : s.required = none) : s.RequiresOwn := by simp [RequiresOwn, h]

theorem allRequireOwn_iff : s.AllRequireOwn ↔ s.RequiresOwn ∧
    (∀ properties, s.properties = some properties → ∀ e ∈ properties, e.2.AllRequireOwn) ∧
    (∀ u, s.items = some u → u.AllRequireOwn) ∧
    (∀ u, s.additionalProperties = some u → u.AllRequireOwn) ∧
    (∀ choices, s.oneOf = some choices → ∀ u ∈ choices, u.AllRequireOwn) := by
  constructor
  · intro h
    exact ⟨h s .here, fun ps hp e he u hu ↦ h u (.property hp he hu),
      fun v hv u hu ↦ h u (.items hv hu), fun v hv u hu ↦ h u (.additional hv hu),
      fun vs hvs v hv u hu ↦ h u (.choice hvs hv hu)⟩
  · rintro ⟨hs, hp, hi, ha, ho⟩ u hu
    cases hu with
    | here => exact hs
    | property hps he hu => exact hp _ hps _ he u hu
    | items hv hu => exact hi _ hv u hu
    | additional hv hu => exact ha _ hv u hu
    | choice hvs hv hu => exact ho _ hvs _ hv u hu

theorem allRequireOwn_leaf (type format description : Option String) :
    AllRequireOwn { type := type, format := format, description := description } := by
  rw [allRequireOwn_iff]
  simp [RequiresOwn]

theorem allRequireOwn_referenceTo (id : String) : (referenceTo id).AllRequireOwn := by
  rw [allRequireOwn_iff]
  simp [RequiresOwn, referenceTo]

theorem allRequireOwn_ofPrimitive (p : Primitive) : (ofPrimitive p).AllRequireOwn := by
  cases p <;> exact allRequireOwn_leaf _ _ _

theorem AllRequireOwn.array (h : s.AllRequireOwn) : (array s).AllRequireOwn := by
  rw [allRequireOwn_iff]
  simp [RequiresOwn, Schema.array, h]

theorem AllRequireOwn.map (h : s.AllRequireOwn) : (map s).AllRequireOwn := by
  rw [allRequireOwn_iff]
  simp [RequiresOwn, Schema.map, h]

/-- An object has the property with this schema, and requires it unless its field may be left out
or is a pointer. -/
structure Supplied (s : Schema) (e : String × ShapeField) (u : Schema) : Prop where
  property : Dict.find? e.1 (s.properties.getD []) = some u
  required_iff : e.1 ∈ s.required.getD [] ↔
    e.2.omitsEmpty = false ∧ e.2.type.isPointer = false

end Schema

theorem ShapeField.isRequired_iff {f : ShapeField} {key : String} (h : f.ownKey? = some key) :
    f.isRequired ↔ f.omitsEmpty = false ∧ f.type.isPointer = false := by
  have hj : f.jsonName = some key := by
    unfold ownKey? at h
    split at h
    · cases h
    · exact h
  simp [isRequired, hj]

namespace Supply

/-- The properties are different, and each is that of its field. -/
structure Apart (c : Supply) : Prop where
  nodup : c.keys.Nodup
  own : ∀ e ∈ c.fields, e.2.ownKey? = some e.1

variable {c : Supply}

theorem Apart.add (h : c.Apart) (f : ShapeField) : (c.add f).Apart := by
  unfold Supply.add
  split
  · rename_i key hf
    split
    · exact h
    · rename_i hk
      refine ⟨?_, fun e he ↦ ?_⟩
      · have hn : (c.keys ++ [key]).Nodup :=
          h.nodup.append (List.nodup_singleton key) (by simpa using hk)
        simpa [keys] using hn
      · rcases List.mem_append.mp he with he | he
        · exact h.own e he
        · rw [List.mem_singleton.mp he]
          exact hf
  · exact h

theorem Apart.direct (h : c.Apart) (fields : List ShapeField) : (direct fields c).Apart := by
  induction fields generalizing c with
  | nil => exact h
  | cons f fields ih => exact ih (h.add f)

theorem Apart.promote (h : c.Apart) (definitions : Table QualifiedName Shape)
    (qs : List QualifiedName) : (promote definitions qs c).Apart := by
  have hq {c : Supply} (h : c.Apart) (q : QualifiedName) :
      Apart { c with embedded := q :: c.embedded } := ⟨h.nodup, h.own⟩
  fun_induction Supply.promote definitions qs c with
  | case1 c => exact h
  | case2 c q qs _ ih => exact ih h
  | case3 c q qs _ fields _ ih => exact ih ((hq h q).direct fields)
  | case4 c q qs _ _ ih => exact ih (hq h q)

end Supply

theorem apart_suppliedFields (definitions : Table QualifiedName Shape)
    (fields : List ShapeField) : (suppliedFields definitions fields).Apart := by
  have h : Supply.Apart {} := ⟨List.nodup_nil, by simp⟩
  exact (h.direct fields).promote definitions _

namespace Collected

variable {supply : Supply} {ss : List Schema}

theorem required_foldl (es : List ((String × ShapeField) × Schema)) (c : Collected) :
    (es.foldl addField c).required =
      c.required ++ (es.filter (·.1.2.isRequired)).map (·.1.1) := by
  induction es generalizing c with
  | nil => simp
  | cons e es ih =>
    rw [List.foldl_cons, ih, addField, add, List.filter_cons]
    split <;> simp

theorem required_ofSchemas (h : ss.length = supply.fields.length) :
    (ofSchemas supply ss).required =
      (supply.fields.filter (·.2.isRequired)).map (·.1) := by
  -- each field has its schema, so nothing is lost when they are paired
  have hf : (supply.fields.zip ss).map Prod.fst = supply.fields :=
    List.map_fst_zip (Nat.le_of_eq h.symm)
  rw [ofSchemas, required_foldl, List.nil_append]
  conv_rhs => rw [← hf]
  rw [List.filter_map, List.map_map]
  rfl

theorem find?_foldl (es : List ((String × ShapeField) × Schema)) {c : Collected} {key : String}
    (h : key ∉ es.map (·.1.1)) :
    Dict.find? key (es.foldl addField c).properties = Dict.find? key c.properties := by
  induction es generalizing c with
  | nil => rfl
  | cons e es ih =>
    obtain ⟨hk, h⟩ := not_or.mp (List.mem_cons.not.mp h)
    rw [List.foldl_cons, ih h, addField, add, Dict.find?_insert, if_neg hk]

theorem find?_foldl_of_mem {es : List ((String × ShapeField) × Schema)} {c : Collected}
    {e : (String × ShapeField) × Schema} (h : (es.map (·.1.1)).Nodup) (he : e ∈ es) :
    Dict.find? e.1.1 (es.foldl addField c).properties = some e.2 := by
  induction es generalizing c with
  | nil => cases he
  | cons first es ih =>
    obtain ⟨hn, h⟩ := List.nodup_cons.mp h
    -- no later field of the same name replaces the first
    rcases List.mem_cons.mp he with rfl | he
    · rw [List.foldl_cons, find?_foldl es hn, addField, add, Dict.find?_insert, if_pos rfl]
    · exact ih h he

theorem supplied_ofSchemas (hs : supply.Apart) (h : ss.length = supply.fields.length) :
    List.Forall₂ (ofSchemas supply ss).toSchema.Supplied supply.fields ss := by
  refine List.forall₂_iff_zip.mpr ⟨h.symm, fun {e u} he ↦ ⟨?_, ?_⟩⟩
  · have hk : ((supply.fields.zip ss).map (·.1.1)).Nodup := by
      have hf : (supply.fields.zip ss).map Prod.fst = supply.fields :=
        List.map_fst_zip (Nat.le_of_eq h.symm)
      have hn := hs.nodup
      rw [Supply.keys, ← hf, List.map_map] at hn
      exact hn
    rw [properties_toSchema]
    exact find?_foldl_of_mem hk he
  · have hm : e ∈ supply.fields := (List.of_mem_zip he).1
    rw [required_toSchema, required_ofSchemas h, ← ShapeField.isRequired_iff (hs.own e hm)]
    constructor
    · intro hk
      obtain ⟨e', he', hk⟩ := List.mem_map.mp hk
      obtain ⟨hm', hr⟩ := List.mem_filter.mp he'
      -- the names are apart, so a required field with this one is the field itself
      obtain rfl : e' = e := List.inj_on_of_nodup_map hs.nodup hm' hm hk
      exact hr
    · intro hr
      exact List.mem_map.mpr ⟨e, List.mem_filter.mpr ⟨hm, hr⟩, rfl⟩

theorem requiresOwn_ofSchemas (hs : supply.Apart) (h : ss.length = supply.fields.length) :
    (ofSchemas supply ss).toSchema.RequiresOwn := by
  intro names hn
  have hne : names ≠ [] := by
    rintro rfl
    simp only [toSchema] at hn
    split at hn
    · cases hn
    · rename_i hr
      exact hr (by rw [Option.some.inj hn]; rfl)
  have hr : names = (supply.fields.filter (·.2.isRequired)).map (·.1) := by
    rw [← required_ofSchemas h, ← required_toSchema, hn]
    rfl
  have hsub : names.Sublist supply.keys := by
    rw [hr]
    exact List.filter_sublist.map _
  refine ⟨hne, hs.nodup.sublist hsub, fun name hm ↦ ?_⟩
  rw [properties_toSchema, mem_keys_ofSchemas h]
  exact hsub.subset hm

theorem allRequireOwn_ofSchemas (hs : supply.Apart) (h : ss.length = supply.fields.length)
    (hss : ∀ s ∈ ss, s.AllRequireOwn) : (ofSchemas supply ss).toSchema.AllRequireOwn := by
  rw [Schema.allRequireOwn_iff]
  refine ⟨requiresOwn_ofSchemas hs h, fun ps hp e he ↦ ?_, by simp [toSchema],
    by simp [toSchema], by simp [toSchema]⟩
  have hps : ps = (ofSchemas supply ss).properties := by
    rw [← properties_toSchema, hp]
    rfl
  exact hss _ (mem_ofSchemas (hps ▸ he))

end Collected

def Registry.AllRequireOwn (r : Registry) : Prop := ∀ e ∈ r.schemas, e.2.AllRequireOwn

section

variable {definitions : Table QualifiedName Shape}

theorem Walks.length_fields {supply : Supply} {r r' : Registry} {ss : List Schema}
    (h : Walks definitions supply.types r ss r') : ss.length = supply.fields.length := by
  simpa [Supply.types] using h.length_eq

theorem Registry.AllRequireOwn.setSchema {r : Registry} {s : Schema} (h : r.AllRequireOwn)
    (hs : s.AllRequireOwn) (id : String) : (r.setSchema id s).AllRequireOwn := by
  intro e he
  rcases Dict.mem_insert he with rfl | he
  · exact hs
  · exact h e he

theorem Registry.AllRequireOwn.register {r : Registry} (h : r.AllRequireOwn) (q : QualifiedName) :
    (r.register q).2.2.AllRequireOwn := by
  intro e he
  rw [schemas_register] at he
  exact h e he

mutual

theorem Walk.allRequireOwn {shape : Shape} {r r' : Registry} {s : Schema}
    (h : Walk definitions shape r s r') (hr : r.AllRequireOwn) :
    s.AllRequireOwn ∧ r'.AllRequireOwn := by
  match h with
  | .primitive p _ | .scalar (p := p) _ _ => exact ⟨Schema.allRequireOwn_ofPrimitive p, hr⟩
  | .unresolved _ _ | .interface _ _ | .undefined _ _ | .namedInterface _ _ =>
    exact ⟨Schema.allRequireOwn_leaf _ _ _, hr⟩
  | .alias h | .pointer h => exact h.allRequireOwn hr
  | .array h => exact (h.allRequireOwn hr).imp_left .array
  | .map h => exact (h.allRequireOwn hr).imp_left .map
  | .record h =>
    have hw := h.allRequireOwn hr
    exact hw.imp_left (Collected.allRequireOwn_ofSchemas (apart_suppliedFields _ _) h.length_fields)
  | .known _ => exact ⟨Schema.allRequireOwn_referenceTo _, hr⟩
  | .component (q := q) _ _ _ h =>
    have hw := h.allRequireOwn (hr.register q)
    exact ⟨Schema.allRequireOwn_referenceTo _, hw.2.setSchema hw.1 _⟩

theorem Walks.allRequireOwn {shapes : List Shape} {r r' : Registry} {ss : List Schema}
    (h : Walks definitions shapes r ss r') (hr : r.AllRequireOwn) :
    (∀ s ∈ ss, s.AllRequireOwn) ∧ r'.AllRequireOwn := by
  match h with
  | .nil _ => exact ⟨fun _ hs ↦ absurd hs List.not_mem_nil, hr⟩
  | .cons h hs =>
    have hw := h.allRequireOwn hr
    have hws := hs.allRequireOwn hw.2
    exact ⟨List.forall_mem_cons.mpr ⟨hw.1, hws.1⟩, hws.2⟩

end

theorem Generator.Contains.allRequireOwn {q : QualifiedName} {fields : List ShapeField}
    {r r' : Registry} {s : Schema} (h : Contains definitions q fields r s r')
    (hr : r.AllRequireOwn) : s.AllRequireOwn ∧ r'.AllRequireOwn := by
  obtain ⟨rfl, body, r₁, hw, rfl⟩ := h
  have hw := hw.allRequireOwn (hr.register q)
  exact ⟨Schema.allRequireOwn_referenceTo _, hw.2.setSchema hw.1 _⟩

/-- A record is walked through the fields that supply its properties. Its schema has these
properties and no others, each with the schema of its field. -/
theorem Walk.supplied {fields : List ShapeField} {r r' : Registry} {s : Schema}
    (h : Walk definitions (.record fields) r s r') :
    ∃ ss, Walks definitions (suppliedFields definitions fields).types r ss r' ∧
      List.Forall₂ s.Supplied (suppliedFields definitions fields).fields ss ∧
      ∀ key, key ∈ Dict.keys (s.properties.getD []) ↔
        key ∈ (suppliedFields definitions fields).keys := by
  cases h with
  | record hw =>
    have hl := hw.length_fields
    refine ⟨_, hw, Collected.supplied_ofSchemas (apart_suppliedFields _ _) hl, fun key ↦ ?_⟩
    rw [Collected.properties_toSchema, Collected.mem_keys_ofSchemas hl]

theorem Entrance.recordSchema_supplied {n : Nat} {fields : List ShapeField} {r r' : Registry}
    {s : Schema} (h : (entrance definitions.find? n).recordSchema fields r = some (s, r')) :
    ∃ ss, Walks definitions (suppliedFields definitions fields).types r ss r' ∧
      List.Forall₂ s.Supplied (suppliedFields definitions fields).fields ss ∧
      ∀ key, key ∈ Dict.keys (s.properties.getD []) ↔
        key ∈ (suppliedFields definitions fields).keys := by
  rw [recordSchema_eq] at h
  exact ((sound_entrance definitions n).schemaOf _ h).supplied

end

end GoOpenApi
