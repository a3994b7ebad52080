import GoOpenApi.Proofs.Resolve.Names
import GoOpenApi.Proofs.Schema.Walk

/-!
Walks over larger tables. A table in which all names are defined that can be met on a walk may be
joined with others of the same project without changing the walk.
-/

namespace GoOpenApi

theorem ShapeField.mem_names_of_promoted? {f : ShapeField} {q : QualifiedName}
    (h : f.promoted? = some q) : q ∈ f.type.names := by
  unfold promoted? Shape.embeddedName? at h
  split at h
  · split at h <;> simp_all [Shape.names]
  · cases h

/-- A table with bodies of a project, and with the bodies of all names in them. -/
structure Project.Defines (p : Project) (definitions : Table QualifiedName Shape) : Prop where
  bodies {q : QualifiedName} {body : Shape} :
    definitions.find? q = some body → p.body? q = some body
  closed {q : QualifiedName} {body : Shape} :
    definitions.find? q = some body → body.DefinedIn definitions

namespace Table

variable {κ α : Type} [BEq κ] {d d' : Table κ α}

/-- What the first table defines is the same in the second. -/
def Within (d d' : Table κ α) : Prop := ∀ key v, d.find? key = some v → d'.find? key = some v

theorem find?_append (key : κ) (d d' : Table κ α) :
    find? key (d ++ d') = (d.find? key).or (d'.find? key) := List.lookup_append

theorem within_append_left (d d' : Table κ α) : d.Within (d ++ d') :=
  fun key v h ↦ by rw [find?_append, h, Option.some_or]

end Table

theorem Shape.DefinedIn.mono {d d' : Table QualifiedName Shape} {shape : Shape}
    (h : shape.DefinedIn d) (hs : d.Within d') : shape.DefinedIn d' :=
  fun q hq ↦ (h q hq).imp fun body hb ↦ hs q body hb

namespace Project.Defines

variable {p : Project} {d d' : Table QualifiedName Shape}

theorem nil (p : Project) : p.Defines [] := ⟨nofun, nofun⟩

theorem within_append_right (h : p.Defines d) (h' : p.Defines d') :
    d'.Within (d ++ d') := by
  intro q body hb
  rw [Table.find?_append]
  cases hd : d.find? q with
  | none => exact hb
  | some body' =>
    have hbody := h.bodies hd
    rw [h'.bodies hb] at hbody
    exact hbody.symm

theorem append (h : p.Defines d) (h' : p.Defines d') : p.Defines (d ++ d') := by
  have hor {q : QualifiedName} {body : Shape} (hb : Table.find? q (d ++ d') = some body) :
      d.find? q = some body ∨ d'.find? q = some body := by
    rw [Table.find?_append, Option.or_eq_some_iff] at hb
    exact hb.imp_right And.right
  refine ⟨fun hb ↦ (hor hb).elim h.bodies h'.bodies, fun hb ↦ ?_⟩
  rcases hor hb with hb | hb
  · exact (h.closed hb).mono (Table.within_append_left d d')
  · exact (h'.closed hb).mono (h.within_append_right h')

end Project.Defines

/-- Between calls that are answered the names in the bodies of the table have bodies there too. -/
theorem Tables.Knows.defines {p : Project} {known : List QualifiedName} {t : Tables}
    (h : Knows p ∅ [] known t) : p.Defines t.definitions where
  bodies := h.faithful.definitions _ _
  closed hb _ hq := (h.find?_of_mem_names hb hq).resolve_right (Set.notMem_empty _)

section

variable {p : Project} {d d' : Table QualifiedName Shape}

/-- What is promoted depends on the bodies of the promoted types alone. -/
theorem Supply.promote_congr (hs : d.Within d') (hd : p.Defines d) {qs : List QualifiedName}
    (hq : ∀ q ∈ qs, ∃ body, d.find? q = some body) (c : Supply) :
    promote d' qs c = promote d qs c := by
  fun_induction promote d qs c with
  | case1 c => exact promote_nil d' c
  | case2 c q qs hm ih =>
    rw [promote_cons_of_mem hm]
    exact ih (List.forall_mem_cons.mp hq).2
  | case3 c q qs hm fields hb ih =>
    rw [promote_cons_record hm (hs _ _ hb)]
    refine ih fun q' hq' ↦ ?_
    rcases List.mem_append.mp hq' with hq' | hq'
    · obtain ⟨f, hf, hp⟩ := List.mem_filterMap.mp hq'
      exact hd.closed hb q' (ShapeField.names_subset hf (ShapeField.mem_names_of_promoted? hp))
    · exact hq q' (List.mem_cons_of_mem _ hq')
  | case4 c q qs hm hb ih =>
    obtain ⟨⟨body, hbody⟩, hq⟩ := List.forall_mem_cons.mp hq
    have hb' : ∀ fields, d'.find? q ≠ some (.record fields) := by
      intro fields h
      rw [hs _ _ hbody] at h
      exact hb fields (hbody.trans h)
    rw [promote_cons_other hm hb', ih hq]

theorem suppliedFields_congr (hs : d.Within d') (hd : p.Defines d) {fields : List ShapeField}
    (h : Shape.DefinedIn d (.record fields)) :
    suppliedFields d' fields = suppliedFields d fields := by
  refine Supply.promote_congr hs hd (fun q hq ↦ ?_) _
  obtain ⟨f, hf, hp⟩ := List.mem_filterMap.mp hq
  exact h q (ShapeField.names_subset hf (ShapeField.mem_names_of_promoted? hp))

/-- What the types of a record name is named in its own fields or in those of a body. -/
theorem mem_names_suppliedFields {fields : List ShapeField} {t : Shape} {q : QualifiedName}
    (ht : t ∈ (suppliedFields d fields).types) (hq : q ∈ t.names) :
    q ∈ ShapeField.names fields ∨
      ∃ q' inner, d.find? q' = some (.record inner) ∧ q ∈ ShapeField.names inner := by
  obtain ⟨e, he, rfl⟩ := List.mem_map.mp ht
  rcases mem_suppliedFields he with hf | ⟨q', inner, hb, hf⟩
  · exact .inl (ShapeField.names_subset hf hq)
  · exact .inr ⟨q', inner, hb, ShapeField.names_subset hf hq⟩

theorem definedIn_suppliedFields (hd : p.Defines d) {fields : List ShapeField}
    (h : Shape.DefinedIn d (.record fields)) :
    ∀ t ∈ (suppliedFields d fields).types, t.DefinedIn d := by
  intro t ht q hq
  rcases mem_names_suppliedFields ht hq with hf | ⟨q', inner, hb, hf⟩
  · exact h q hf
  · exact hd.closed hb q hf

mutual

theorem Walk.over {shape : Shape} {r r' : Registry} {s : Schema} (h : Walk d shape r s r')
    (hs : d.Within d') (hd : p.Defines d) (hn : shape.DefinedIn d) : Walk d' shape r s r' := by
  match h with
  | .primitive p r => exact .primitive p r
  | .unresolved q r => exact .unresolved q r
  | .interface methods r => exact .interface methods r
  | .alias h => exact .alias (h.over hs hd hn)
  | .pointer h => exact .pointer (h.over hs hd hn)
  | .array h => exact .array (h.over hs hd hn)
  | .map h => exact .map (h.over hs hd fun q hq ↦ hn q (List.mem_append_right _ hq))
  | .record h =>
    have hw := h.over hs hd (definedIn_suppliedFields hd hn)
    rw [← suppliedFields_congr hs hd hn] at hw ⊢
    exact .record hw
  | .known hq => exact .known hq
  | .undefined (q := q) _ hb =>
    obtain ⟨body, hbody⟩ := hn q (List.mem_singleton_self q)
    rw [hb] at hbody
    cases hbody
  | .scalar hq hb => exact .scalar hq (hs _ _ hb)
  | .namedInterface hq hb => exact .namedInterface hq (hs _ _ hb)
  | .component hq hb hc h => exact .component hq (hs _ _ hb) hc (h.over hs hd (hd.closed hb))

theorem Walks.over {shapes : List Shape} {r r' : Registry} {ss : List Schema}
    (h : Walks d shapes r ss r') (hs : d.Within d') (hd : p.Defines d)
    (hn : ∀ t ∈ shapes, t.DefinedIn d) : Walks d' shapes r ss r' := by
  match h with
  | .nil r => exact .nil r
  | .cons h hw =>
    rw [List.forall_mem_cons] at hn
    exact .cons (h.over hs hd hn.1) (hw.over hs hd hn.2)

end

end

end GoOpenApi
