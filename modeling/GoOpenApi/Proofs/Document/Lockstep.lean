import GoOpenApi.Generation
import GoOpenApi.Proofs.Document.Related
import GoOpenApi.Proofs.Schema.Building
import GoOpenApi.Proofs.Service.Related

/-!
A second run in a project that agrees about all names that the first asks for makes the same
document.
-/

namespace GoOpenApi

open GoOpenApi.Action (Relation)

variable {p p' : Project} {α : Type}

namespace Generator

/-- Nothing that shows in schemas tells the states apart. -/
structure Alike (p' : Project) (g g' : Generator) : Prop where
  found : g'.tables.Found p'
  definitions : g'.tables.definitions = g.tables.definitions
  registry : g'.registry = g.registry

/-- The second run, in another project, answers as the first does where the projects say the same
about the names that the first asks for. -/
def lockstep (p p' : Project) : Relation Generator Generator where
  Holds P a a' := ∀ g x u, g.tables.Found p → a g = (.ok x, u) →
    (P x ∧ u.tables.Found p ∧ ∀ q, g.tables.Asked q → u.tables.Asked q) ∧
      ∀ g', Alike p' g g' → (∀ q, u.tables.Asked q → p'.declared? q = p.declared? q) →
        ∃ u', a' g' = (.ok x, u') ∧ Alike p' u u'
  pure hx g _ u hg h := by
    cases h
    exact ⟨⟨hx, hg, fun _ h ↦ h⟩, fun g' hg' _ ↦ ⟨g', rfl, hg'⟩⟩
  bind ha hf := by
    intro g y v hg h
    obtain ⟨x, u, hx, h⟩ := Action.bind_ok h
    obtain ⟨⟨hp, hu, hasked⟩, hright⟩ := ha g x u hg hx
    obtain ⟨⟨hq, hv, hasked'⟩, hright'⟩ := hf x hp u y v hu h
    refine ⟨⟨hq, hv, fun q hm ↦ hasked' q (hasked q hm)⟩, fun g' hg' hsame ↦ ?_⟩
    obtain ⟨u', hx', hu'⟩ := hright g' hg' fun q hm ↦ hsame q (hasked' q hm)
    rw [Action.run_bind, hx']
    exact hright' u' hu' hsame

theorem onTables_lockstep {P : α → Prop} {a a' : Action Tables α}
    (h : (Tables.lockstep p p' True False).Holds P a a') :
    (lockstep p p').Holds P (onTables a) (onTables a') := by
  intro g x u hg hr
  rw [onTables, Action.run_focus] at hr
  rcases hr' : a g.tables with ⟨fault | y, t⟩ <;> rw [hr'] at hr
  · cases hr
  · cases hr
    obtain ⟨hleft, hright⟩ := h g.tables x t hg hr'
    refine ⟨hleft, fun g' hg' hsame ↦ ?_⟩
    rcases hright g'.tables hg'.found (fun _ ↦ hg'.definitions) hsame with
      ⟨t', ht', hfound, hd⟩ | ⟨h, -⟩
    · refine ⟨{ g' with tables := t' }, ?_, hfound, hd trivial, hg'.registry⟩
      rw [onTables, Action.run_focus, ht']
    · exact h.elim

theorem build_lockstep (records : Nat) (a : Entrance → Build α) :
    (lockstep p p').Relates (build records a) (build records a) := by
  intro g x u hg hr
  obtain ⟨r, hb, rfl⟩ := build_ok hr
  refine ⟨⟨trivial, hg, fun _ h ↦ h⟩, fun g' hg' _ ↦
    ⟨{ g' with registry := r }, ?_, hg'.found, hg'.definitions, rfl⟩⟩
  rw [build_eq, hg'.definitions, hg'.registry, hb]

theorem get_lockstep (f : Registry → α) :
    (lockstep p p').Relates (do return f (← get).registry) (do return f (← get).registry) := by
  intro g x u hg hr
  cases hr
  refine ⟨⟨trivial, hg, fun _ h ↦ h⟩, fun g' hg' _ ↦ ⟨g', ?_, hg'⟩⟩
  rw [← hg'.registry]
  rfl

theorem resolve_lockstep (type : GoType) (package : String) :
    (lockstep p p').Relates (onTables (Tables.resolve p type package))
      (onTables (Tables.resolve p' type package)) :=
  onTables_lockstep (Tables.resolve_lockstep trivial type package)

theorem resolveFields_lockstep (fields : List Field) (package : String) :
    (lockstep p p').Relates (onTables (Tables.resolveFields p fields package))
      (onTables (Tables.resolveFields p' fields package)) :=
  onTables_lockstep (Tables.resolveFields_lockstep trivial fields package)

theorem schemas_lockstep (p p' : Project) : RelatesContainers (lockstep p p') p p' where
  schema type package := (resolve_lockstep type package).bind fun shape ↦ build_lockstep _ _
  container name package fields :=
    (resolveFields_lockstep fields package).bind fun shapes ↦ build_lockstep _ _
  payload q := by
    refine (resolve_lockstep _ _).bind fun shape ↦ ?_
    split
    · exact .pure _
    · exact (build_lockstep _ _).map _
  cleared content := get_lockstep fun r ↦ r.clear content
  unlessEmpty s := get_lockstep fun r ↦ if r.refersToEmpty s then none else some s

end Generator

namespace Builder

theorem addMethods_lockstep (p' : Project) (s : Service) {ms : List Endpoint} {b b₁ : Builder}
    {g u : Generator} (hg : g.tables.Found p)
    (h : addMethods p s ms (b, g) = (.ok (), (b₁, u))) :
    (u.tables.Found p ∧ ∀ q, g.tables.Asked q → u.tables.Asked q) ∧
      ∀ g', g.Alike p' g' → (∀ q, u.tables.Asked q → p'.declared? q = p.declared? q) →
        ∃ u', addMethods p' s ms (b, g') = (.ok (), (b₁, u')) ∧ u.Alike p' u' := by
  induction ms generalizing b g with
  | nil =>
    cases h
    exact ⟨⟨hg, fun _ h ↦ h⟩, fun g' hg' _ ↦ ⟨g', rfl, hg'⟩⟩
  | cons m ms ih =>
    rw [addMethods_cons] at h
    rcases hm : addMethod p s m b g with ⟨fault | b', v⟩ <;> rw [hm] at h
    · cases h
    · obtain ⟨⟨-, hv, hasked⟩, hright⟩ :=
        Generator.addMethod_relates (Generator.schemas_lockstep p p') s m b g b' v hg hm
      obtain ⟨⟨hu, hasked'⟩, hrest⟩ := ih hv h
      refine ⟨⟨hu, fun q hq ↦ hasked' q (hasked q hq)⟩, fun g' hg' hsame ↦ ?_⟩
      obtain ⟨v', hm', hv'⟩ := hright g' hg' fun q hq ↦ hsame q (hasked' q hq)
      rw [addMethods_cons, hm']
      exact hrest v' hv' hsame

end Builder

namespace Generation

theorem addServices_lockstep (p' : Project) {services : List Service} {b b₁ : Builder}
    {g u : Generator} (hg : g.tables.Found p) (h : addServices p services (b, g) = .ok (b₁, u)) :
    (u.tables.Found p ∧ ∀ q, g.tables.Asked q → u.tables.Asked q) ∧
      ∀ g', g.Alike p' g' → (∀ q, u.tables.Asked q → p'.declared? q = p.declared? q) →
        ∃ u', addServices p' services (b, g') = .ok (b₁, u') ∧ u.Alike p' u' := by
  induction services generalizing b g with
  | nil =>
    cases h
    exact ⟨⟨hg, fun _ h ↦ h⟩, fun g' hg' _ ↦ ⟨g', rfl, hg'⟩⟩
  | cons s services ih =>
    rw [addServices] at h
    rcases hs : Builder.addService p s (b, g) with ⟨fault | _, ⟨b', v⟩⟩ <;> rw [hs] at h
    · cases h
    · obtain ⟨⟨hv, hasked⟩, hright⟩ := Builder.addMethods_lockstep p' s hg hs
      obtain ⟨⟨hu, hasked'⟩, hrest⟩ := ih hv h
      refine ⟨⟨hu, fun q hq ↦ hasked' q (hasked q hq)⟩, fun g' hg' hsame ↦ ?_⟩
      obtain ⟨v', hs', hv'⟩ := hright g' hg' fun q hq ↦ hsame q (hasked' q hq)
      rw [addServices, Builder.addService, hs']
      exact hrest v' hv' hsame

end Generation

end GoOpenApi
