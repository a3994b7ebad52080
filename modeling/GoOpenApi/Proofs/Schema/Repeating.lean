import GoOpenApi.Proofs.Resolve.Repeating
import GoOpenApi.Proofs.Schema.Depth

/-!
Making a schema again. The second walk meets the types that the first registered, and what the
first made in place is made in place again, so the schema is the same and nothing is added.
-/

namespace GoOpenApi

variable {d : Table QualifiedName Shape} {r r' r'' k k' : Registry}

/-- All types that are given ids between two registries are defined and have components. -/
structure Registry.Enters (d : Table QualifiedName Shape) (r r' : Registry) : Prop where
  keeps : r.KeepsIds r'
  entered {q : QualifiedName} : r.idOf? q = none → r'.idOf? q ≠ none →
    ∃ body, d.find? q = some body ∧ body.isComponent

namespace Registry.Enters

theorem refl (r : Registry) : Enters d r r := ⟨fun _ _ ↦ id, fun hn hs ↦ absurd hn hs⟩

theorem trans (h : Enters d r r') (h' : Enters d r' r'') : Enters d r r'' where
  keeps := h.keeps.trans h'.keeps
  entered {q} hn hs := by
    by_cases hq : r'.idOf? q = none
    · exact h'.entered hq hs
    · exact h.entered hn hq

theorem none {q : QualifiedName} (h : Enters d r r') (hn : r.idOf? q = none)
    (hd : ∀ body, d.find? q = some body → ¬body.isComponent) : r'.idOf? q = none := by
  by_contra hs
  obtain ⟨body, hb, hc⟩ := h.entered hn hs
  exact hd body hb hc

end Registry.Enters

mutual

theorem Walk.enters {shape : Shape} {r r' : Registry} {s : Schema} (h : Walk d shape r s r') :
    r.Enters d r' := by
  match h with
  | .primitive _ _ | .unresolved _ _ | .interface _ _ | .known _ | .undefined _ _ | .scalar _ _
  | .namedInterface _ _ => exact .refl _
  | .alias h | .pointer h | .array h | .map h => exact h.enters
  | .record h => exact h.enters
  | .component (q := q) (r := r) hq hd hb h =>
    refine ⟨fun k id hk ↦ h.ids (Registry.idOf?_register_of_some hk), fun {k} hn hs ↦ ?_⟩
    by_cases hk : k = q
    · exact hk ▸ ⟨_, hd, hb⟩
    · exact h.enters.entered (by rwa [Registry.idOf?_register_of_ne hk]) hs

theorem Walks.enters {shapes : List Shape} {r r' : Registry} {ss : List Schema}
    (h : Walks d shapes r ss r') : r.Enters d r' := by
  match h with
  | .nil _ => exact .refl _
  | .cons h hs => exact h.enters.trans hs.enters

end

mutual

/-- A walk after another of the same shape makes the same schema and registers nothing. -/
theorem Walk.again {shape : Shape} {r r' k k' : Registry} {s s' : Schema}
    (h : Walk d shape r s r') (hk : r'.Enters d k) (h' : Walk d shape k s' k') :
    s' = s ∧ k' = k := by
  match h with
  | .primitive _ _ | .unresolved _ _ | .interface _ _ =>
    cases h'
    exact ⟨rfl, rfl⟩
  | .alias h | .pointer h =>
    cases h' with
    | _ h' => exact h.again hk h'
  | .array h =>
    cases h' with
    | array h' => exact (h.again hk h').imp_left (congrArg _)
  | .map h =>
    cases h' with
    | map h' => exact (h.again hk h').imp_left (congrArg _)
  | .record h =>
    cases h' with
    | record h' => exact (h.again hk h').imp_left fun hs ↦ by rw [hs]
  | .known hq =>
    have hq := hk.keeps _ _ hq
    cases h' <;> simp_all
  | .undefined hq hd =>
    have hq := hk.none hq (by simp [hd])
    cases h' <;> simp_all
  | .scalar hq hd | .namedInterface hq hd =>
    have hq := hk.none hq (by simp [hd, Shape.isComponent])
    cases h' <;> simp_all [Shape.isComponent]
  | .component (q := q) (r := r) hq hd hb h =>
    have hq : k.idOf? q = some (r.freeId q.name) := by
      refine hk.keeps _ _ (h.ids ?_)
      rw [Registry.idOf?_register_self, Registry.register_of_none hq]
    cases h' <;> simp_all

theorem Walks.again {shapes : List Shape} {r r' k k' : Registry} {ss ss' : List Schema}
    (h : Walks d shapes r ss r') (hk : r'.Enters d k) (h' : Walks d shapes k ss' k') :
    ss' = ss ∧ k' = k := by
  match h with
  | .nil _ =>
    cases h'
    exact ⟨rfl, rfl⟩
  | .cons h hs =>
    cases h' with
    | cons h' hs' =>
      obtain ⟨rfl, rfl⟩ := h.again (hs.enters.trans hk) h'
      exact (hs.again hk hs').imp_left (congrArg _)

end

namespace Generator

variable {p : Project} {g g' : Generator} {s : Schema}

theorem materialize_again {shape : Shape} (h : materialize shape g = (.ok s, g')) :
    materialize shape g' = (.ok s, g') := by
  obtain ⟨r, hw, rfl⟩ := materialize_ok h
  -- no shape to which the second walk comes is one to which the first did not
  have he : Ends g.tables.definitions r shape := fun t ht ↦ hw.ends t (ht.mono hw.keepsIds)
  obtain ⟨s', g', h'⟩ := materialize_of_ends (g := { g with registry := r }) he
  obtain ⟨r', hw', rfl⟩ := materialize_ok h'
  obtain ⟨rfl, rfl⟩ := hw.again (.refl r) hw'
  exact h'

/-- A schema that was made is made again with the same result, and nothing changes: neither the
components with their ids and schemas nor what is known about declared types. -/
theorem schema_again {type : GoType} {package : String}
    (h : schema p type package g = (.ok s, g')) : schema p type package g' = (.ok s, g') := by
  rw [schema_eq] at h
  split at h
  · rename_i shape t hr
    obtain ⟨r, -, rfl⟩ := materialize_ok h
    rw [schema_eq, Tables.resolve_again hr]
    exact materialize_again h
  · cases h

/-- A module with a struct that embeds another, has a list of itself, and has a struct in place, a
type for a text and a name without a declaration among its fields. -/
def nodes : Project :=
  let source := "package models\n\ntype Key string\n\ntype Base struct \x7b\n\tKey Key\n\x7d\n\n" ++
    "type Node struct \x7b\n\tBase\n\tChildren []*Node\n" ++
    "\tPlace struct \x7b\n\t\tAbove *Node\n\t\x7d\n\tOther Missing\n\x7d\n"
  let files :=
    [(⟨"go.mod"⟩, .file (.text "module m\n")), (⟨"models/models.go"⟩, .file (.text source))]
  .of (.ofNodes ["tmp", "w"] files) (.ofGoMod {} ⟨"/tmp/w"⟩ (.parse "module m\n"))

theorem nodes_schema_again :
    ∃ s g, schema nodes (.qualified "m/models" "Node") "m" .empty = (.ok s, g) ∧
      schema nodes (.qualified "m/models" "Node") "m" g = (.ok s, g) := by
  have h : (schema nodes (.qualified "m/models" "Node") "m" .empty).1.isOk := by decide +kernel
  rcases hs : schema nodes (.qualified "m/models" "Node") "m" .empty with ⟨_ | s, g⟩
  · rw [hs] at h
    cases h
  · exact ⟨s, g, rfl, schema_again hs⟩

end Generator

end GoOpenApi
