import GoOpenApi.Proofs.Document.Schemas

/-!
References in documents. Whatever calls were made on a builder and a generator, failed ones
included, all references in the document lead to components of the document.
-/

namespace GoOpenApi

namespace Schema

variable {ids : Set String}

theorem within_properties {ps : List (String × Schema)} (h : ∀ e ∈ ps, e.2.Within ids)
    (type : Option String) (required : Option (List String)) :
    Within ids { type := type, properties := some ps, required := required } := by
  rw [within_iff]
  simpa using h

theorem within_choice {choices : List Schema} (h : ∀ u ∈ choices, u.Within ids) :
    Within ids { oneOf := some choices } := by
  rw [within_iff]
  simpa using h

end Schema

theorem Registry.Settled.extend {changed : Set QualifiedName} {r r' : Registry} {s : Schema}
    (hr : r.Settled) (hg : r.Grows changed r') (hl : s.Within r'.idSet ∧ r'.Linked) :
    r'.Settled ∧ s.Within r'.idSet ∧ ∀ u : Schema, u.Within r.idSet → u.Within r'.idSet :=
  ⟨hr.grows hg hl.2, hl.1, fun _ hu ↦ hu.mono hg.idSet_subset⟩

/-- References lead to components. -/
def Rule.references : Rule where
  state := Registry.Settled
  schema r s := s.Within r.idSet
  walk h hr := hr.extend (h.grows hr.coherent) (h.linked hr.coherent hr.linked)
  container h hr := hr.extend (h.grows hr.coherent) (h.linked hr.coherent hr.linked)
  leaf _ := Schema.within_leaf
  object _ h := Schema.within_properties h _ _
  choice := Schema.within_choice

/-- A call on a document under construction and the generator of its schemas. -/
inductive Call where
  | addService (s : Service)
  | schema (type : GoType) (package : String)
  | container (name package : String) (fields : List Field)

/-- All references of a document under construction, and those of given schemas, have
components. -/
def Builder.Refers (given : List Schema) (state : Builder × Generator) : Prop :=
  Obeys .references given state

namespace Call

variable (p : Project)

def onGenerator (a : Action Generator α) : Action (Builder × Generator) α :=
  Action.focus Prod.snd (fun g state ↦ (state.1, g)) a

/-- A call, with the schema that it returns. -/
def run : Call → Action (Builder × Generator) (Option Schema)
  | addService s => do
    Builder.addService p s
    return none
  | schema type package => do return some (← onGenerator (Generator.schema p type package))
  | container name package fields => do
    return some (← onGenerator (Generator.container p name package fields))

/-- Calls one after the other. One that fails does not stop the next. -/
def runAll : List Call → Builder × Generator →
    List (Except Fault (Option Schema)) × Builder × Generator
  | [], state => ([], state)
  | c :: cs, state =>
    let (answer, state) := c.run p state
    let (answers, state) := runAll cs state
    (answer :: answers, state)

variable {α : Type} {given : List Schema}

theorem refers_onGenerator {a : Action Generator α} {out : α → List Schema}
    (h : ∀ given, Generator.Makes .references given out a) :
    Action.Triple (Builder.Refers given) (onGenerator a) (fun x ↦ Builder.Refers (given ++ out x))
      fun _ ↦ Builder.Refers given := by
  refine .focus fun (b, g) hg ↦ Action.Triple.mono (h (given ++ pathSchemas b.paths))
    (fun _ hs ↦ hs ▸ hg) (fun x g' hg' ↦ hg'.subset fun u hu ↦ ?_) fun _ _ h ↦ h
  simp only [List.mem_append] at hu ⊢
  tauto

theorem refers_run (c : Call) :
    Action.Triple (Builder.Refers given) (c.run p)
      (fun answer ↦ Builder.Refers (given ++ answer.toList)) fun _ ↦ Builder.Refers given := by
  cases c with
  | addService s =>
    exact (Builder.obeys_addMethods p .references s _ given).bind fun _ ↦ .pure fun _ h ↦ by
      rw [Option.toList_none, List.append_nil]
      exact h
  | schema type package =>
    exact (refers_onGenerator fun _ ↦ .schema p type package).bind fun _ ↦ .pure fun _ h ↦ h
  | container name package fields =>
    exact (refers_onGenerator fun _ ↦ .container p name package fields).bind
      fun _ ↦ .pure fun _ h ↦ h

/-- The schemas that calls returned. -/
def returned (answers : List (Except Fault (Option Schema))) : List Schema :=
  answers.flatMap fun
    | .ok answer => answer.toList
    | .error _ => []

theorem refers_runAll (cs : List Call) {state : Builder × Generator}
    (h : Builder.Refers given state) :
    Builder.Refers (given ++ returned (runAll p cs state).1) (runAll p cs state).2 := by
  induction cs generalizing given state with
  | nil => simpa [runAll, returned] using h
  | cons c cs ih =>
    have hc := refers_run p c state h
    rw [runAll]
    split at hc
    · rename_i answer state' hr
      rw [hr]
      simpa [returned] using ih hc
    · rename_i fault state' hr
      rw [hr]
      simpa [returned] using ih hc

theorem registry_of_error {c : Call} {state state' : Builder × Generator} {fault : Fault}
    (hc : ∀ s, c ≠ addService s) (h : c.run p state = (.error fault, state')) :
    state'.2.registry = state.2.registry := by
  cases c with
  | addService s => exact absurd rfl (hc s)
  | schema type package =>
    rw [run, onGenerator, Action.run_focus_bind] at h
    split at h
    · cases (Prod.mk.inj h).1
    · rename_i he
      exact (Prod.mk.inj h).2 ▸ Generator.registry_of_schema_error p he
  | container name package fields =>
    rw [run, onGenerator, Action.run_focus_bind] at h
    split at h
    · cases (Prod.mk.inj h).1
    · rename_i he
      exact (Prod.mk.inj h).2 ▸ Generator.registry_of_container_error p he

end Call

theorem Builder.refers_initial (d : Directives) (tables : Tables) :
    Builder.Refers [] (Builder.initial.withDirectives d, ⟨tables, .empty⟩) :=
  obeys_initial .references d tables .empty

/-- After any calls, failed ones included: the ids given out are those of the stored schemas, a
call for a schema or a container that fails changes no component, and every reference in a stored
or returned schema or in the document leads to a component of the document. -/
theorem references_lead_to_components (p : Project) (tables : Tables) (d : Directives)
    (cs : List Call) :
    let (answers, b, g) := Call.runAll p cs (Builder.initial.withDirectives d, ⟨tables, .empty⟩)
    let document := b.document g.registry
    (∀ id, id ∈ Dict.keys g.registry.schemas ↔ ∃ q, g.registry.idOf? q = some id) ∧
    (∀ c fault, (∀ s, c ≠ .addService s) → (Call.run p c (b, g)).1 = .error fault →
      (Call.run p c (b, g)).2.2.registry = g.registry) ∧
    ∀ s, s ∈ g.registry.schemas.map (·.2) ∨ s ∈ Call.returned answers ∨ s ∈ document.schemas →
      ∀ text, s.Mentions text →
        ∃ id ∈ Dict.keys document.components?, text = Schema.componentsPath ++ id := by
  have h := Call.refers_runAll p cs (Builder.refers_initial d tables)
  generalize Call.runAll p cs (Builder.initial.withDirectives d, ⟨tables, .empty⟩) = out at h
  obtain ⟨answers, b, g⟩ := out
  obtain ⟨hr, hs⟩ := h
  have hids : g.registry.idSet ⊆ {id | id ∈ Dict.keys g.registry.schemas} :=
    fun id hid ↦ (hr.keys_iff id).mpr hid
  refine ⟨hr.keys_iff, fun c fault hc he ↦ ?_, fun s hm ↦ ?_⟩
  · exact Call.registry_of_error p hc (Prod.ext he rfl)
  · rw [Builder.components?_document]
    have hstored : s ∈ g.registry.schemas.map (·.2) → s.Within g.registry.idSet := by
      intro hm
      obtain ⟨e, he, rfl⟩ := List.mem_map.mp hm
      exact hr.linked e he
    refine Schema.Within.mono ?_ hids
    rcases hm with hm | hm | hm
    · exact hstored hm
    · exact hs s (by simp [hm])
    · rw [Document.schemas, Builder.components?_document] at hm
      rcases List.mem_append.mp hm with hm | hm
      · exact hstored hm
      · exact hs s (List.mem_append_right _ hm)

end GoOpenApi
