import GoOpenApi.Proofs.Document.Schemas

/-!
Required names in documents. Wherever a schema stands, the names that it requires are properties
of its own, and the fields of a record decide which of its properties are required.
-/

namespace GoOpenApi

/-- Schemas require only properties of their own, at any depth. -/
def Rule.requiresOwn : Rule where
  state := Registry.AllRequireOwn
  schema _ s := s.AllRequireOwn
  walk h hr := by
    have hw := h.allRequireOwn hr
    exact ⟨hw.2, hw.1, fun _ hu ↦ hu⟩
  container h hr := by
    have hc := h.allRequireOwn hr
    exact ⟨hc.2, hc.1, fun _ hu ↦ hu⟩
  leaf _ := Schema.allRequireOwn_leaf
  object h hp := Schema.allRequireOwn_iff.mpr ⟨h, by simpa using hp, by simp, by simp, by simp⟩
  choice h :=
    Schema.allRequireOwn_iff.mpr ⟨.of_none rfl, by simp, by simp, by simp, by simpa using h⟩

/-- In a document, the names that a schema requires, at any depth, are different properties of
that schema, and there is at least one. A record has the properties that its fields supply, each
with the schema of its field, and requires those whose field is neither left out when empty nor a
pointer. -/
theorem required_names_are_properties :
    (∀ files env o g, Generation.generate files env o = .ok g →
      ∀ s ∈ g.document.schemas, ∀ u, Schema.Occurs u s → u.RequiresOwn) ∧
    ∀ (definitions : Table QualifiedName Shape) n fields r s r',
      (entrance definitions.find? n).recordSchema fields r = some (s, r') →
      let supply := suppliedFields definitions fields
      supply.Apart ∧
        (∀ key, key ∈ Dict.keys (s.properties.getD []) ↔ key ∈ supply.keys) ∧
        ∃ ss, Walks definitions supply.types r ss r' ∧
          List.Forall₂ s.Supplied supply.fields ss := by
  constructor
  · intro files env o g h s hs
    obtain ⟨r, hr, hc, hp⟩ := Generation.obeys_generate .requiresOwn h
      (fun _ he ↦ absurd he List.not_mem_nil)
    rcases List.mem_append.mp hs with hs | hs
    · rw [hc] at hs
      obtain ⟨e, he, rfl⟩ := List.mem_map.mp hs
      exact hr e he
    · exact hp s hs
  · intro definitions n fields r s r' h
    obtain ⟨ss, hw, hf, hk⟩ := Entrance.recordSchema_supplied h
    exact ⟨apart_suppliedFields definitions fields, hk, ss, hw, hf⟩

/-- A result whose fields are a text and a pointer. -/
def userSource : String :=
  "package s\n\ntype User struct \x7b\n\tName string\n\tNote *string\n\x7d\n\n" ++
  "// @tg server-jsonrpc\ntype Users interface \x7b\n\tMe() (user User)\n\x7d\n"

def userFiles : FileTree :=
  .ofNodes ["w"]
    [(⟨"go.mod"⟩, .file (.text "module m\n")), (⟨"s/user.go"⟩, .file (.text userSource))]

/-- A type whose members are promoted. -/
def userDefinitions : Table QualifiedName Shape :=
  [(⟨"m/s", "Base"⟩, .record
    [⟨"ID", some "ID", false, false, .primitive .string⟩,
      ⟨"Note", some "Note", false, false, .pointer (.primitive .string)⟩])]

def userFields : List ShapeField :=
  [⟨"Base", none, true, false, .named ⟨"m/s", "Base"⟩⟩,
    ⟨"Name", some "name", false, false, .primitive .string⟩,
    ⟨"Nick", some "name", false, false, .primitive .string⟩,
    ⟨"Age", some "age", false, true, .primitive .int⟩]

theorem user_requires_name :
    (∃ g, Generation.generate userFiles {} { services := ⟨"/w/s"⟩ } = .ok g ∧
      (Dict.find? "User" g.document.components?).bind (·.required) = some ["Name"] ∧
      ∀ s ∈ g.document.schemas, ∀ u, Schema.Occurs u s → u.RequiresOwn) ∧
    ∃ s r', (entrance userDefinitions.find? 1).recordSchema userFields .empty = some (s, r') ∧
      s.required = some ["name", "ID"] ∧
      ∃ ss, List.Forall₂ s.Supplied (suppliedFields userDefinitions userFields).fields ss := by
  constructor
  · have h : (Generation.generate userFiles {} { services := ⟨"/w/s"⟩ }).toOption.map
        (fun g ↦ (Dict.find? "User" g.document.components?).bind (·.required)) =
          some (some ["Name"]) := by
      decide +kernel
    cases hg : Generation.generate userFiles {} { services := ⟨"/w/s"⟩ } with
    | error fault =>
      rw [hg] at h
      cases h
    | ok g =>
      rw [hg] at h
      have hr := Option.some.inj h
      exact ⟨g, rfl, hr, required_names_are_properties.1 _ _ _ g hg⟩
  · have h : ((entrance userDefinitions.find? 1).recordSchema userFields .empty).map
        (·.1.required) = some (some ["name", "ID"]) := by
      decide +kernel
    obtain ⟨⟨s, r'⟩, hs, hr⟩ := Option.map_eq_some_iff.mp h
    obtain ⟨-, -, ss, -, hf⟩ := required_names_are_properties.2 _ _ _ _ _ _ hs
    exact ⟨s, r', hs, hr, ss, hf⟩

end GoOpenApi
