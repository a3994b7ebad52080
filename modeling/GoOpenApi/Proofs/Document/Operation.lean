import GoOpenApi.Proofs.Document.Containers

/-!
The operations of methods of loaded services, made at any point of a builder's history.
-/

namespace GoOpenApi

/-- A service of a directory, loaded with nothing known before. -/
def Service.IsLoaded (p : Project) (s : Service) : Prop :=
  ∃ dir filter services t, Service.load p dir filter .empty = (.ok services, t) ∧ s ∈ services

/-- A generator after any calls on a new builder, failed ones included. -/
def Generator.IsReachable (p : Project) (g : Generator) : Prop :=
  ∃ tables d calls,
    (Call.runAll p calls (Builder.initial.withDirectives d, ⟨tables, .empty⟩)).2.2 = g

/-- The operation that a builder makes of a method. -/
def Generator.operationOf (p : Project) (s : Service) (m : Endpoint) :
    Action Generator Operation :=
  if m.isHttp then httpOperation p s m else rpcOperation p s m

/-- The operation of a method in its place. -/
def Builder.withMethod (m : Endpoint) (o : Operation) (b : Builder) : Builder :=
  if m.isHttp then b.insert (Route.documented m.httpPath) m.httpMethod o
  else b.insert m.rpcPath "POST" o

theorem Field.mem_jsonNames {fields : List Field} (h : ∀ f ∈ fields, f.KeepsName)
    {name : String} : name ∈ jsonNames fields ↔ ∃ f ∈ fields, f.name = name := by
  rw [jsonNames, List.mem_filterMap]
  constructor
  · rintro ⟨f, hf, hn⟩
    exact ⟨f, hf, Option.some.inj ((h f hf).jsonName.symm.trans hn)⟩
  · rintro ⟨f, hf, rfl⟩
    exact ⟨f, hf, (h f hf).jsonName⟩

theorem Endpoint.carries_iff {bs : List Binding} {f : Field} :
    carries bs f ↔ ∃ b ∈ bs, b.arg = f.name ∧ b.path = [] := by
  simp [carries]

section

variable {p : Project} {s : Service} {m : Endpoint} {g : Generator}

theorem Builder.addMethod_eq (b : Builder) : addMethod p s m b = (do
    return b.withMethod m (← Generator.operationOf p s m)) := by
  unfold addMethod Generator.operationOf withMethod
  split <;> rfl

theorem Builder.operationAt_withMethod (b : Builder) (o : Operation) (path : String) (v : Verb) :
    operationAt (b.withMethod m o).paths path v =
      if m.route = (path, some v) then some o else operationAt b.paths path v := by
  have hp : Verb.ofName? "POST" = some .post := by decide
  unfold withMethod Endpoint.route
  split <;> rw [operationAt_insert] <;> simp [hp]

theorem Service.IsLoaded.isOf (hs : s.IsLoaded p) (hm : m ∈ s.methods) : m.IsOf s.name := by
  obtain ⟨dir, filter, services, t, hl, hs⟩ := hs
  exact (((Service.load_gives dir filter).ok (.empty p) hl).2 s hs).methods m hm

theorem Generator.IsReachable.coherent (h : g.IsReachable p) : g.registry.Coherent := by
  obtain ⟨tables, d, calls, rfl⟩ := h
  exact (Call.refers_runAll p calls (Builder.refers_initial d tables)).1.coherent

theorem Generator.operationOf_carries {o : Operation} {g' : Generator} (hm : m.IsOf s.name)
    (hr : g.registry.Coherent) (h : operationOf p s m g = (.ok o, g')) :
    Carries g'.registry.idOf? g'.registry.schemas s m o := by
  unfold operationOf at h
  unfold Carries
  split at h
  · rename_i hh
    rw [if_pos hh]
    exact (httpOperation_ok hm hr h).2.1
  · rename_i hh
    rw [if_neg hh]
    exact (rpcOperation_ok hm hr h).2.1

/-- The operation of a method is what all operations have with a body and responses of its own. -/
theorem Generator.operationOf_base {o : Operation} {g' : Generator}
    (h : operationOf p s m g = (.ok o, g')) :
    ∃ base g₁, operation p s m g₁ = (.ok base, g') ∧
      o = { base with requestBody := o.requestBody, responses := o.responses } := by
  unfold operationOf at h
  split at h
  · rw [httpOperation_eq] at h
    obtain ⟨request, g₁, -, h⟩ := Action.bind_ok h
    obtain ⟨success, g₂, -, h⟩ := Action.bind_ok h
    obtain ⟨responses, g₃, -, h⟩ := Action.bind_ok h
    obtain ⟨base, g₄, ho, h⟩ := Action.bind_ok h
    cases h
    exact ⟨base, g₃, ho, rfl⟩
  · obtain ⟨params, g₁, -, h⟩ := Action.bind_ok h
    obtain ⟨result, g₂, -, h⟩ := Action.bind_ok h
    obtain ⟨params?, g₃, -, h⟩ := Action.bind_ok h
    obtain ⟨result?, g₄, -, h⟩ := Action.bind_ok h
    obtain ⟨headers, g₅, -, h⟩ := Action.bind_ok h
    obtain ⟨base, g₆, ho, h⟩ := Action.bind_ok h
    cases h
    exact ⟨base, g₅, ho, rfl⟩

/-- The first method of the first service in a directory, with its operation in a new document. -/
def Generator.firstOperation? (p : Project) (dir : Path) :
    Option (Service × Endpoint × Generator × Operation × Generator) := do
  let (.ok services, t) := Service.load p dir [] .empty | none
  let s ← services.head?
  let m ← s.methods.head?
  let (.ok o, g) := operationOf p s m ⟨t, .empty⟩ | none
  return (s, m, ⟨t, .empty⟩, o, g)

theorem Generator.firstOperation?_eq_some {dir : Path} {o : Operation} {g' : Generator}
    (h : firstOperation? p dir = some (s, m, g, o, g')) :
    s.IsLoaded p ∧ m ∈ s.methods ∧ g.IsReachable p ∧ operationOf p s m g = (.ok o, g') := by
  unfold firstOperation? at h
  split at h
  · rename_i services t hl
    obtain ⟨s', hs, h⟩ := Option.bind_eq_some_iff.mp h
    obtain ⟨m', hm, h⟩ := Option.bind_eq_some_iff.mp h
    split at h
    · rename_i o' g'' ho
      cases h
      exact ⟨⟨dir, [], services, t, hl, List.mem_of_head? hs⟩, List.mem_of_head? hm,
        ⟨t, [], [], rfl⟩, ho⟩
    · cases h
  · cases h

end

end GoOpenApi
