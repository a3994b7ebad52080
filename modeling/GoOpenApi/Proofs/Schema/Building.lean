import GoOpenApi.Proofs.Schema.References

/-!
What the calls of a generator do to its registry.
-/

namespace GoOpenApi.Generator

variable {α : Type} {g g' : Generator}

theorem onTables_ok {α : Type} {a : Action Tables α} {x : α} (h : onTables a g = (.ok x, g')) :
    ∃ t, a g.tables = (.ok x, t) ∧ g' = { g with tables := t } := by
  rw [onTables, Action.run_focus] at h
  obtain ⟨hx, rfl⟩ := Prod.mk.inj h
  exact ⟨(a g.tables).2, Prod.ext hx rfl, rfl⟩

theorem build_eq (records : Nat) (a : Entrance → Build α) (g : Generator) :
    build records a g =
      match a (entrance g.tables.definitions.find? (depth g.tables.definitions records))
        g.registry with
      | some (x, r) => (.ok x, { g with registry := r })
      | none => (.error .endless, g) := by
  rw [build, Action.run_bind]
  change (match a (entrance g.tables.definitions.find? (depth g.tables.definitions records))
    g.registry with | some (x, r) => _ | none => _ : Action Generator α) g = _
  cases a (entrance g.tables.definitions.find? (depth g.tables.definitions records))
    g.registry <;> rfl

theorem build_ok {records : Nat} {a : Entrance → Build α} {x : α}
    (h : build records a g = (.ok x, g')) :
    ∃ r, a (entrance g.tables.definitions.find? (depth g.tables.definitions records)) g.registry =
      some (x, r) ∧ g' = { g with registry := r } := by
  rw [build_eq] at h
  split at h
  · rename_i y r hr
    obtain ⟨hx, rfl⟩ := Prod.mk.inj h
    obtain rfl : y = x := by simpa using hx
    exact ⟨r, hr, rfl⟩
  · cases h

theorem build_error {records : Nat} {a : Entrance → Build α} {fault : Fault}
    (h : build records a g = (.error fault, g')) : g' = g := by
  rw [build_eq] at h
  split at h
  · cases h
  · exact (Prod.mk.inj h).2.symm

theorem materialize_ok {shape : Shape} {s : Schema} (h : materialize shape g = (.ok s, g')) :
    ∃ r, Walk g.tables.definitions shape g.registry s r ∧ g' = { g with registry := r } := by
  obtain ⟨r, hr, rfl⟩ := build_ok h
  exact ⟨r, (sound_entrance _ _).schemaOf shape hr, rfl⟩

/-- What the making of a container did to the registry. -/
structure Contains (definitions : Table QualifiedName Shape) (q : QualifiedName)
    (fields : List ShapeField) (r : Registry) (s : Schema) (r' : Registry) : Prop where
  reference : s = .referenceTo (r.register q).1
  stored : ∃ body r₁, Walk definitions (.record fields) (r.register q).2.2 body r₁ ∧
    r' = r₁.setSchema (r.register q).1 body

theorem componentOf_ok {definitions : Table QualifiedName Shape} {q : QualifiedName}
    {fields : List ShapeField} {n : Nat} {r r' : Registry} {s : Schema}
    (h : componentOf q ((entrance definitions.find? n).recordSchema fields) r = some (s, r')) :
    Contains definitions q fields r s r' := by
  obtain ⟨body, r₁, hb, rfl, rfl⟩ := componentOf_eq_some h
  rw [Entrance.recordSchema_eq] at hb
  exact ⟨rfl, body, r₁, (sound_entrance _ _).schemaOf _ hb, rfl⟩

namespace Contains

variable {definitions : Table QualifiedName Shape} {q : QualifiedName}
  {fields : List ShapeField} {r r' : Registry} {s : Schema}

theorem grows (h : Contains definitions q fields r s r') (hr : r.Coherent) :
    r.Grows {q} r' := by
  obtain ⟨-, body, r₁, hw, rfl⟩ := h
  have hg := (hw.grows (hr.register q)).mono (Set.empty_subset {q})
  exact hg.component (.inl rfl) body

theorem idOf? (h : Contains definitions q fields r s r') (hr : r.Coherent) :
    r'.idOf? q = some (r.register q).1 := by
  obtain ⟨-, body, r₁, hw, rfl⟩ := h
  exact (hw.grows (hr.register q)).ids (Registry.idOf?_register_self r q)

theorem linked (h : Contains definitions q fields r s r') (hr : r.Coherent) (hl : r.Linked) :
    s.Within r'.idSet ∧ r'.Linked := by
  have hid := h.idOf? hr
  obtain ⟨rfl, body, r₁, hw, rfl⟩ := h
  have hw := hw.linked (hr.register q) (hl.register q)
  exact ⟨Schema.within_referenceTo ⟨q, hid⟩, hw.2.setSchema hw.1⟩

end Contains

variable (p : Project)

theorem schema_eq (type : GoType) (package : String) (g : Generator) :
    schema p type package g =
      match Tables.resolve p type package g.tables with
      | (.ok shape, t) => materialize shape { g with tables := t }
      | (.error fault, t) => (.error fault, { g with tables := t }) := by
  rw [schema, onTables, Action.run_focus_bind]
  cases Tables.resolve p type package g.tables with
  | mk result t => cases result <;> rfl

theorem container_eq (name package : String) (fields : List Field) (g : Generator) :
    container p name package fields g =
      match Tables.resolveFields p fields package g.tables with
      | (.ok shapes, t) =>
        build (ShapeField.recordsIn shapes + 1)
          (fun e ↦ componentOf ⟨package ++ containerMark, name⟩ (e.recordSchema shapes))
          { g with tables := t }
      | (.error fault, t) => (.error fault, { g with tables := t }) := by
  rw [container, onTables, Action.run_focus_bind]
  cases Tables.resolveFields p fields package g.tables with
  | mk result t => cases result <;> rfl

theorem registry_of_schema_error {type : GoType} {package : String} {fault : Fault}
    (h : schema p type package g = (.error fault, g')) : g'.registry = g.registry := by
  rw [schema_eq] at h
  split at h
  · rw [build_error h]
  · exact (Prod.mk.inj h).2 ▸ rfl

theorem registry_of_container_error {name package : String} {fields : List Field} {fault : Fault}
    (h : container p name package fields g = (.error fault, g')) : g'.registry = g.registry := by
  rw [container_eq] at h
  split at h
  · rw [build_error h]
  · exact (Prod.mk.inj h).2 ▸ rfl

end GoOpenApi.Generator
