import GoOpenApi.Generation
import GoOpenApi.Proofs.Document.References
import GoOpenApi.Proofs.Document.Related
import GoOpenApi.Proofs.Schema.Containers
import GoOpenApi.Proofs.Service.Loading

/-!
Whose properties the containers of operations have. The key of a container is made of the names of
the service and the method without anything between them, so that two methods can have one.
-/

namespace GoOpenApi

open GoOpenApi.Generator (containerKey)

/-- In the place of a container stands a reference to a component with exactly the properties
`names`, or nothing if there are none. -/
def Shows (ids : QualifiedName → Option String) (components : Dict Schema) (q : QualifiedName)
    (names : List String) (s? : Option Schema) : Prop :=
  ∃ id s, ids q = some id ∧ Dict.find? id components = some s ∧
    (∀ key, key ∈ Dict.keys (s.properties.getD []) ↔ key ∈ names) ∧
    s? = if names = [] then none else some (.referenceTo id)

def operationAt (paths : Dict PathItem) (path : String) (v : Verb) : Option Operation :=
  (Dict.find? path paths).bind (·.at? v)

namespace Endpoint

/-- Where the operation of a method stands; a document has no place for unknown verbs. -/
def route (m : Endpoint) : String × Option Verb :=
  if m.isHttp then (Route.documented m.httpPath, Verb.ofName? m.httpMethod)
  else (m.rpcPath, some .post)

/-- The containers of a method. One with uploads has a form for its request. -/
def containers (package : String) (m : Endpoint) : List QualifiedName :=
  (if m.isHttp && !m.uploads.isEmpty then [] else [containerKey package m.requestName]) ++
    [containerKey package m.responseName]

/-- A directive gives another response for the code of the success. -/
def ReplacesSuccess (m : Endpoint) : Prop :=
  ∃ code o, (code, o) ∈ m.responseOverrides ∧ toString code = toString m.successCode ∧
    (statusText? code).isSome ∧ o ≠ .skip

end Endpoint

section

variable (ids : QualifiedName → Option String) (components : Dict Schema) (s : Service)
  (m : Endpoint) (o : Operation)

structure CarriesHttp : Prop where
  request : m.uploads.isEmpty → ∃ s?,
    Shows ids components (containerKey s.package m.requestName) (Field.jsonNames m.bodyFields) s? ∧
      o.requestBody = s?.map fun u ↦ ⟨none, true, jsonContent u⟩
  response : ¬m.ReplacesSuccess → ∃ s? text headers,
    Shows ids components (containerKey s.package m.responseName)
      (Field.jsonNames m.responseBodyFields) s? ∧
      Dict.find? (toString m.successCode) o.responses = some ⟨text, headers, s?.map jsonContent⟩

structure CarriesRpc : Prop where
  request : ∃ s?,
    Shows ids components (containerKey s.package m.requestName) (Field.jsonNames m.bodyFields) s? ∧
      o.requestBody = some ⟨none, true, jsonContent (envelope "params" s?)⟩
  response : ∃ s? text headers,
    Shows ids components (containerKey s.package m.responseName)
      (Field.jsonNames m.responseBodyFields) s? ∧
      o.responses = [("200", ⟨text, headers,
        some (jsonContent { oneOf := some [envelope "result" s?, errorEnvelope] })⟩)]

/-- The body and the answer of an operation show the containers of a method, with exactly the
properties of its fields. -/
def Carries : Prop :=
  if m.isHttp then CarriesHttp ids components s m o else CarriesRpc ids components s m o

end

/-- The methods of services, in the order in which they are added. -/
def allMethods (services : List Service) : List (Service × Endpoint) :=
  services.flatMap fun s ↦ s.methods.map (s, ·)

/-- The method that was added last at a path and verb. -/
def lastAt (methods : List (Service × Endpoint)) (path : String) (v : Verb) :
    Option (Service × Endpoint) :=
  methods.reverse.find? fun e ↦ e.2.route = (path, some v)

/-- Every operation of the document shows the containers of its own method, and no container
belongs to two methods. -/
structure ContainersOwn (services : List Service) (d : Document)
    (ids : QualifiedName → Option String) : Prop where
  carried (path : String) (v : Verb) :
    Option.Rel (fun e o ↦ Carries ids d.components? e.1 e.2 o)
      (lastAt (allMethods services) path v) (operationAt d.paths path v)
  apart : (allMethods services).Pairwise fun e e' ↦
    ((e.2.containers e.1.package).filterMap ids).Disjoint
      ((e'.2.containers e'.1.package).filterMap ids)

namespace Generator

variable {α β : Type} {p : Project}

/-- An action makes only components of declared types that had none. -/
def Calm (a : Action Generator α) : Prop :=
  ∀ g x g', a g = (.ok x, g') → g.registry.Coherent → g.registry.Grows ∅ g'.registry

/-- Calm actions as a relation in which the second action does not matter. -/
def calming : Action.Relation Generator Generator where
  Holds P a _ := ∀ g x g', a g = (.ok x, g') →
    P x ∧ (g.registry.Coherent → g.registry.Grows ∅ g'.registry)
  pure hx := by
    rintro g _ _ ⟨⟩
    exact ⟨hx, .refl⟩
  bind ha hf := by
    intro g y g' h
    obtain ⟨x, g₁, h₁, h⟩ := Action.bind_ok h
    obtain ⟨hx, hg⟩ := ha g x g₁ h₁
    obtain ⟨hy, hg'⟩ := hf x hx g₁ y g' h
    exact ⟨hy, fun hr ↦ (hg hr).trans (hg' (hg hr).coherent)⟩

theorem calm_iff {a : Action Generator α} : Calm a ↔ calming.Relates a a :=
  ⟨fun h g x g' hr ↦ ⟨trivial, h g x g' hr⟩, fun h g x g' hr ↦ (h g x g' hr).2⟩

theorem calm_get {f : Generator → Action Generator α} (h : ∀ g, Calm (f g)) :
    Calm (MonadState.get >>= f) :=
  fun g x g' hr ↦ h g g x g' hr

theorem calm_onTables (a : Action Tables α) : Calm (onTables a) := by
  intro g x g' h hr
  rw [onTables, Action.run_focus] at h
  obtain ⟨-, rfl⟩ := Prod.mk.inj h
  exact .refl hr

theorem calm_materialize (shape : Shape) : Calm (materialize shape) := by
  intro g s g' h hr
  obtain ⟨r, hw, rfl⟩ := materialize_ok h
  exact hw.grows hr

theorem calm_cleared (content : Dict MediaType) : Calm (cleared content) :=
  calm_get fun _ ↦ calm_iff.mpr (.pure _)

theorem calm_unlessEmpty (s : Schema) : Calm (unlessEmpty s) :=
  calm_get fun _ ↦ calm_iff.mpr (.pure _)

theorem calm_schemas : RelatesSchemas calming p p where
  schema type package := (calm_iff.mp (calm_onTables _)).bind fun shape ↦
    calm_iff.mp (calm_materialize shape)
  payload q := by
    refine (calm_iff.mp (calm_onTables _)).bind fun shape ↦ ?_
    split
    · exact .pure _
    · exact (calm_iff.mp (calm_materialize _)).map _
  cleared content := calm_iff.mp (calm_cleared content)
  unlessEmpty s := calm_iff.mp (calm_unlessEmpty s)

theorem calm_headers (package : String) (bs : List Binding) : Calm (headers p package bs) :=
  calm_iff.mpr (headers_relates calm_schemas package bs)

theorem calm_form (package : String) (m : Endpoint) : Calm (form p package m) :=
  calm_iff.mpr (form_relates calm_schemas package m)

theorem calm_withErrors (m : Endpoint) (d : Dict Response) : Calm (withErrors p m d) :=
  calm_iff.mpr (withErrors_relates calm_schemas m d)

theorem calm_operation (s : Service) (m : Endpoint) : Calm (operation p s m) :=
  calm_iff.mpr (operation_relates calm_schemas s m)

theorem overridesOnto_find? {key : String} {d d' : Dict Response}
    {os : List (Nat × ResponseOverride)} {g g' : Generator}
    (h : overridesOnto p d os g = (.ok d', g'))
    (hk : ∀ e ∈ os, (statusText? e.1).isSome → e.2 ≠ .skip → toString e.1 ≠ key) :
    Dict.find? key d' = Dict.find? key d := by
  induction os generalizing d g with
  | nil =>
    cases h
    rfl
  | cons e os ih =>
    obtain ⟨code, o⟩ := e
    obtain ⟨hc, hos⟩ := List.forall_mem_cons.mp hk
    have hi (text : String) (ht : statusText? code = some text) (ho : o ≠ .skip) (r : Response) :
        Dict.find? key (Dict.insert (toString code) r d) = Dict.find? key d := by
      rw [Dict.find?_insert, if_neg (hc (by simp [ht]) ho).symm]
    unfold overridesOnto at h
    cases ht : statusText? code with
    | none =>
      simp only [ht] at h
      exact ih h hos
    | some text =>
      simp only [ht] at h
      cases o with
      | skip => exact ih h hos
      | text description => rw [ih h hos, hi text ht (by simp)]
      | payload q =>
        obtain ⟨content, g₁, -, h⟩ := Action.bind_ok h
        rw [ih h hos, hi text ht (by simp)]

theorem toString_ne_default (i : Int) : toString i ≠ "default" := by
  intro h
  rw [Int.toString_eq_repr, Int.repr_eq_if] at h
  split at h
  · have hd : Nat.toDigits 10 i.toNat = "default".toList := by
      simpa using congrArg String.toList h
    have hf : 'f' ∈ Nat.toDigits 10 i.toNat := hd ▸ by decide
    exact absurd (Nat.isDigit_of_mem_toDigits (by decide) (by decide) hf) (by decide)
  · have hd : '-' ∈ "default".toList := by simp [← h]
    exact absurd hd (by decide)

/-- The response for errors without a code of their own stands in the way of no other. -/
theorem withErrors_overrides {m : Endpoint} {d d' : Dict Response} {g g' : Generator}
    (h : withErrors p m d g = (.ok d', g')) :
    ∃ d₁ g₁, overridesOnto p d m.responseOverrides g = (.ok d₁, g₁) ∧
      ∀ code : Int, Dict.find? (toString code) d' = Dict.find? (toString code) d₁ := by
  obtain ⟨d₁, g₁, ho, h⟩ := Action.bind_ok h
  refine ⟨d₁, g₁, ho, fun code ↦ ?_⟩
  have hi (r : Response) : Dict.find? (toString code) (Dict.insert "default" r d₁) =
      Dict.find? (toString code) d₁ := by
    rw [Dict.find?_insert, if_neg (toString_ne_default code)]
  cases he : m.defaultError with
  | none =>
    simp only [he] at h
    cases h
    rfl
  | some o =>
    simp only [he] at h
    cases o with
    | skip | text description =>
      cases h
      exact hi _
    | payload q =>
      obtain ⟨content, g₂, -, h⟩ := Action.bind_ok h
      cases h
      exact hi _

theorem withErrors_find? {m : Endpoint} {r : Response} {d' : Dict Response} {g g' : Generator}
    (h : withErrors p m [(toString m.successCode, r)] g = (.ok d', g'))
    (hm : ¬m.ReplacesSuccess) : Dict.find? (toString m.successCode) d' = some r := by
  obtain ⟨d, g₁, ho, hd⟩ := withErrors_overrides h
  rw [hd, overridesOnto_find? ho fun e he ht hs hk ↦ hm ⟨e.1, e.2, he, hk, ht, hs⟩,
    Dict.find?_cons, if_pos rfl]

end Generator

section

variable {r r' : Registry} {q : QualifiedName} {names : List String} {id : String}
  {s? : Option Schema}

theorem Registry.Stores.isVoid (h : r.Stores q names id) :
    r.isVoid (.referenceTo id) ↔ names = [] := by
  obtain ⟨s, hs, -⟩ := h.component?
  have ho : (Schema.referenceTo id).isEmptyObject = false := rfl
  have hr : (Schema.referenceTo id).reference.isSome = true := rfl
  simp [Registry.isVoid, ho, hr, hs, h.refersToEmpty]

theorem Registry.Stores.shows (h : r.Stores q names id) :
    Shows r.idOf? r.schemas q names (if names = [] then none else some (.referenceTo id)) := by
  obtain ⟨hid, s, hs, hn⟩ := h
  exact ⟨id, s, hid, hs, hn.keys, rfl⟩

theorem Shows.grows {changed : Set QualifiedName} (h : Shows r.idOf? r.schemas q names s?)
    (hr : r.Grows changed r') (hq : q ∉ changed) : Shows r'.idOf? r'.schemas q names s? := by
  obtain ⟨id, s, hid, hs, hk, he⟩ := h
  exact ⟨id, s, hr.ids hid, by rw [hr.kept hq hid, hs], hk, he⟩

end

namespace Generator

variable {p : Project} {g g' : Generator} {q : QualifiedName} {names : List String} {id : String}

theorem cleared_ok {content : Option (Dict MediaType)} (hs : g.registry.Stores q names id)
    (h : cleared (jsonContent (.referenceTo id)) g = (.ok content, g')) :
    content = (if names = [] then none else some (.referenceTo id)).map jsonContent := by
  cases h
  by_cases hn : names = []
  · simp [Registry.clear, jsonContent, hn, hs.isVoid.mpr hn]
  · have hv : g.registry.isVoid (.referenceTo id) = false :=
      Bool.eq_false_iff.mpr (mt hs.isVoid.mp hn)
    simp [Registry.clear, jsonContent, hn, hv]

theorem unlessEmpty_ok {s? : Option Schema} (hs : g.registry.Stores q names id)
    (h : unlessEmpty (.referenceTo id) g = (.ok s?, g')) :
    s? = if names = [] then none else some (.referenceTo id) := by
  cases h
  simp [hs.refersToEmpty]

end Generator

section

variable {a b : String} {package : String}

theorem request_ne_response (a b : String) : a ++ "Request" ≠ b ++ "Response" := by
  intro h
  have hl := congrArg (fun s : String ↦ s.toList.getLast?) h
  simp at hl

namespace Endpoint

/-- The keys under which a method may store containers. -/
def keys (package : String) (m : Endpoint) : Set QualifiedName :=
  {containerKey package m.requestName, containerKey package m.responseName}

variable {m m' : Endpoint} {service service' : String} {q : QualifiedName}

theorem mem_keys_of_mem_containers (h : q ∈ m.containers package) : q ∈ m.keys package := by
  unfold containers at h
  split at h
  · exact .inr (List.mem_singleton.mp h)
  · rcases List.mem_cons.mp h with h | h
    · exact .inl h
    · exact .inr (List.mem_singleton.mp h)

theorem IsOf.request_not_mem (hm : m.IsOf service) :
    containerKey package m.requestName ∉
      ({containerKey package m.responseName} : Set QualifiedName) := by
  intro h
  have hn := congrArg QualifiedName.name h
  rw [containerKey, containerKey, hm.requestName, hm.responseName] at hn
  exact request_ne_response _ _ hn

/-- Methods of one package share a key only if the names together are the same. -/
theorem IsOf.disjoint_keys (hm : m.IsOf service) (hm' : m'.IsOf service')
    (hn : service ++ m.name ≠ service' ++ m'.name) :
    ∀ q ∈ m.keys package, q ∉ m'.keys package := by
  have key (a b : String) : containerKey package a = containerKey package b → a = b :=
    fun h ↦ congrArg QualifiedName.name h
  rintro q (rfl | rfl) (h | h)
  · have h := key _ _ h
    rw [hm.requestName, hm'.requestName, String.append_left_inj] at h
    exact hn h
  · have h := key _ _ h
    rw [hm.requestName, hm'.responseName] at h
    exact request_ne_response _ _ h
  · have h := key _ _ h
    rw [hm.responseName, hm'.requestName] at h
    exact request_ne_response _ _ h.symm
  · have h := key _ _ h
    rw [hm.responseName, hm'.responseName, String.append_left_inj] at h
    exact hn h

end Endpoint

end

namespace Generator

variable {p : Project} {g g' : Generator} {s : Service} {m : Endpoint} {o : Operation}

theorem requestContent_ok {request : Option (Dict MediaType)} (hm : m.IsOf s.name)
    (hr : g.registry.Coherent) (h : requestContent p s m g = (.ok request, g')) :
    g.registry.Grows (m.keys s.package) g'.registry ∧ (m.uploads.isEmpty → ∃ s?,
      Shows g'.registry.idOf? g'.registry.schemas (containerKey s.package m.requestName)
        (Field.jsonNames m.bodyFields) s? ∧ request = s?.map jsonContent) := by
  unfold requestContent at h
  split at h
  · obtain ⟨u, g₁, hc, h⟩ := Action.bind_ok h
    obtain ⟨hg, id, hs, rfl⟩ := container_ok hm.bodyFields hr hc
    have hk := calm_cleared _ _ _ _ h hg.coherent
    refine ⟨(hg.mono ?_).trans (hk.mono (Set.empty_subset _)), fun _ ↦ ⟨_, ?_, cleared_ok hs h⟩⟩
    · exact Set.singleton_subset_iff.mpr (.inl rfl)
    · exact hs.shows.grows hk (Set.notMem_empty _)
  · rename_i hu
    obtain ⟨content, g₁, hf, h⟩ := Action.bind_ok h
    cases h
    exact ⟨(calm_form _ _ _ _ _ hf hr).mono (Set.empty_subset _), fun hu' ↦ absurd hu' hu⟩

/-- The response for the success of a method over HTTP, before directives may replace it. -/
def httpSuccess (p : Project) (s : Service) (m : Endpoint) : Action Generator Response := do
  let response ← container p m.responseName s.package m.responseBodyFields
  let headers ← headers p s.package m.resultBindings
  let content ← cleared (jsonContent response)
  return ⟨successText m.successCode, headers, content⟩

theorem httpOperation_eq : httpOperation p s m = (do
    let request ← requestContent p s m
    let success ← httpSuccess p s m
    let responses ← withErrors p m [(toString m.successCode, success)]
    return { ← operation p s m with
      requestBody := request.map fun content ↦ ⟨none, true, content⟩
      responses }) := by
  simp only [httpOperation, httpSuccess, bind_assoc, pure_bind]

theorem httpSuccess_ok {r : Response} (hm : m.IsOf s.name) (hr : g.registry.Coherent)
    (h : httpSuccess p s m g = (.ok r, g')) :
    g.registry.Grows {containerKey s.package m.responseName} g'.registry ∧ ∃ s?,
      Shows g'.registry.idOf? g'.registry.schemas (containerKey s.package m.responseName)
        (Field.jsonNames m.responseBodyFields) s? ∧ r.content = s?.map jsonContent := by
  obtain ⟨response, g₁, hc, h⟩ := Action.bind_ok h
  obtain ⟨headers, g₂, hh, h⟩ := Action.bind_ok h
  obtain ⟨content, g₃, hv, h⟩ := Action.bind_ok h
  cases h
  obtain ⟨hg₁, id, hs, rfl⟩ := container_ok hm.responseBodyFields hr hc
  have hg₂ := calm_headers _ _ _ _ _ hh hg₁.coherent
  have hg₃ := calm_cleared _ _ _ _ hv hg₂.coherent
  refine ⟨hg₁.trans ((hg₂.trans hg₃).mono (Set.empty_subset _)), _, ?_,
    cleared_ok (hs.grows hg₂ (Set.notMem_empty _)) hv⟩
  exact hs.shows.grows (hg₂.trans hg₃) (Set.notMem_empty _)

theorem httpOperation_ok (hm : m.IsOf s.name) (hr : g.registry.Coherent)
    (h : httpOperation p s m g = (.ok o, g')) :
    g.registry.Grows (m.keys s.package) g'.registry ∧
      CarriesHttp g'.registry.idOf? g'.registry.schemas s m o ∧
      ∃ id, g'.registry.idOf? (containerKey s.package m.responseName) = some id := by
  rw [httpOperation_eq] at h
  obtain ⟨request, g₁, hq, h⟩ := Action.bind_ok h
  obtain ⟨success, g₂, hsuccess, h⟩ := Action.bind_ok h
  obtain ⟨responses, g₃, he, h⟩ := Action.bind_ok h
  obtain ⟨base, g₄, ho, h⟩ := Action.bind_ok h
  cases h
  obtain ⟨hg₁, hs₁⟩ := requestContent_ok hm hr hq
  obtain ⟨hg₂, s?, hs₂, hcontent⟩ := httpSuccess_ok hm hg₁.coherent hsuccess
  have hg₃ := calm_withErrors _ _ _ _ _ he hg₂.coherent
  have hg₄ := calm_operation _ _ _ _ _ ho hg₃.coherent
  have hlater := hg₃.trans hg₄
  have hfrom := hg₂.trans (hlater.mono (Set.empty_subset _))
  refine ⟨hg₁.trans (hfrom.mono ?_), ⟨fun hu ↦ ?_, fun hn ↦ ?_⟩, ?_⟩
  · exact Set.singleton_subset_iff.mpr (.inr rfl)
  · obtain ⟨s?, hs, rfl⟩ := hs₁ hu
    exact ⟨s?, hs.grows hfrom hm.request_not_mem, by rw [Option.map_map]; rfl⟩
  · refine ⟨s?, success.description, success.headers,
      hs₂.grows hlater (Set.notMem_empty _), ?_⟩
    rw [← hcontent]
    exact withErrors_find? he hn
  · obtain ⟨id, schema, hid, -⟩ := hs₂
    exact ⟨id, hlater.ids hid⟩

theorem rpcOperation_ok (hm : m.IsOf s.name) (hr : g.registry.Coherent)
    (h : rpcOperation p s m g = (.ok o, g')) :
    g.registry.Grows (m.keys s.package) g'.registry ∧
      CarriesRpc g'.registry.idOf? g'.registry.schemas s m o ∧
      ∃ id, g'.registry.idOf? (containerKey s.package m.responseName) = some id := by
  obtain ⟨params, g₁, hq, h⟩ := Action.bind_ok h
  obtain ⟨result, g₂, hc, h⟩ := Action.bind_ok h
  obtain ⟨params?, g₃, hp, h⟩ := Action.bind_ok h
  obtain ⟨result?, g₄, hv, h⟩ := Action.bind_ok h
  obtain ⟨headers, g₅, hh, h⟩ := Action.bind_ok h
  obtain ⟨base, g₆, ho, h⟩ := Action.bind_ok h
  cases h
  obtain ⟨hg₁, id₁, hs₁, rfl⟩ := container_ok hm.bodyFields hr hq
  obtain ⟨hg₂, id₂, hs₂, rfl⟩ := container_ok hm.responseBodyFields hg₁.coherent hc
  have hg₃ := calm_unlessEmpty _ _ _ _ hp hg₂.coherent
  have hg₄ := calm_unlessEmpty _ _ _ _ hv hg₃.coherent
  have hg₅ := calm_headers _ _ _ _ _ hh hg₄.coherent
  have hg₆ := calm_operation _ _ _ _ _ ho hg₅.coherent
  have hs₁' := hs₁.grows hg₂ hm.request_not_mem
  have hs₂' := hs₂.grows hg₃ (Set.notMem_empty _)
  have hlater := hg₃.trans (hg₄.trans (hg₅.trans hg₆))
  have hfrom := hg₂.trans (hlater.mono (Set.empty_subset _))
  refine ⟨(hg₁.mono ?_).trans (hfrom.mono ?_), ⟨⟨params?, ?_, rfl⟩, ⟨result?, _, headers, ?_, rfl⟩⟩,
    id₂, hlater.ids hs₂.1⟩
  · exact Set.singleton_subset_iff.mpr (.inl rfl)
  · exact Set.singleton_subset_iff.mpr (.inr rfl)
  · rw [unlessEmpty_ok hs₁' hp]
    exact hs₁.shows.grows hfrom hm.request_not_mem
  · rw [unlessEmpty_ok hs₂' hv]
    exact hs₂.shows.grows hlater (Set.notMem_empty _)

end Generator

section

variable {r r' : Registry} {s : Service} {m : Endpoint} {o : Operation}

/-- An operation shows its containers until those of another method with a common key are made. -/
theorem Carries.grows {changed : Set QualifiedName} (h : Carries r.idOf? r.schemas s m o)
    (hr : r.Grows changed r') (hd : ∀ q ∈ m.keys s.package, q ∉ changed) :
    Carries r'.idOf? r'.schemas s m o := by
  have hq : containerKey s.package m.requestName ∉ changed := hd _ (.inl rfl)
  have hs : containerKey s.package m.responseName ∉ changed := hd _ (.inr rfl)
  unfold Carries at h ⊢
  split at h
  · rename_i hm
    rw [if_pos hm]
    refine ⟨fun hu ↦ ?_, fun hn ↦ ?_⟩
    · obtain ⟨s?, hsh, ho⟩ := h.request hu
      exact ⟨s?, hsh.grows hr hq, ho⟩
    · obtain ⟨s?, text, headers, hsh, ho⟩ := h.response hn
      exact ⟨s?, text, headers, hsh.grows hr hs, ho⟩
  · rename_i hm
    rw [if_neg hm]
    obtain ⟨s?, hsh, ho⟩ := h.request
    obtain ⟨s?', text, headers, hsh', ho'⟩ := h.response
    exact ⟨⟨s?, hsh.grows hr hq, ho⟩, s?', text, headers, hsh'.grows hr hs, ho'⟩

end

namespace Builder

variable {p : Project} {b b' : Builder} {g g' : Generator} {s : Service} {m : Endpoint}

theorem operationAt_insert (path verb : String) (o : Operation) (path' : String) (v : Verb) :
    operationAt (b.insert path verb o).paths path' v =
      if path = path' ∧ Verb.ofName? verb = some v then some o
      else operationAt b.paths path' v := by
  unfold operationAt Builder.insert
  by_cases hp : path = path'
  · subst hp
    have hn : (({} : PathItem).at? v) = none := by cases v <;> rfl
    have hi : ((Dict.find? path b.paths).getD {}).at? v =
        (Dict.find? path b.paths).bind (·.at? v) := by
      cases Dict.find? path b.paths <;> simp [hn]
    rw [Dict.find?_insert, if_pos rfl, Option.bind_some]
    cases hv : Verb.ofName? verb with
    | none => simp [hi]
    | some w => simp [PathItem.at?_set, hi, eq_comm]
  · rw [Dict.find?_insert, if_neg (Ne.symm hp), if_neg fun h ↦ hp h.1]

theorem addMethod_ok (hm : m.IsOf s.name) (hr : g.registry.Coherent)
    (h : addMethod p s m b g = (.ok b', g')) :
    g.registry.Grows (m.keys s.package) g'.registry ∧
      (∃ id, g'.registry.idOf? (containerKey s.package m.responseName) = some id) ∧
      ∃ o, Carries g'.registry.idOf? g'.registry.schemas s m o ∧ ∀ path v,
        operationAt b'.paths path v =
          if m.route = (path, some v) then some o else operationAt b.paths path v := by
  unfold addMethod at h
  unfold Carries Endpoint.route
  split at h
  · rename_i hh
    obtain ⟨o, g₁, ho, h⟩ := Action.bind_ok h
    cases h
    obtain ⟨hg, hc, hid⟩ := Generator.httpOperation_ok hm hr ho
    simp only [hh, if_true, Prod.mk.injEq]
    exact ⟨hg, hid, o, hc, operationAt_insert _ _ _⟩
  · rename_i hh
    obtain ⟨o, g₁, ho, h⟩ := Action.bind_ok h
    cases h
    obtain ⟨hg, hc, hid⟩ := Generator.rpcOperation_ok hm hr ho
    have hv : Verb.ofName? "POST" = some .post := by decide
    simp only [hh, Bool.false_eq_true, if_false, Prod.mk.injEq, ← hv]
    exact ⟨hg, hid, o, hc, operationAt_insert _ _ _⟩

end Builder

/-- Methods were added one after the other. -/
inductive Adds (p : Project) :
    List (Service × Endpoint) → Builder × Generator → Builder × Generator → Prop where
  | nil (state : Builder × Generator) : Adds p [] state state
  | cons {s : Service} {m : Endpoint} {ms : List (Service × Endpoint)} {b b' : Builder}
    {g g' : Generator} {state : Builder × Generator} :
    Builder.addMethod p s m b g = (.ok b', g') → Adds p ms (b', g') state →
    Adds p ((s, m) :: ms) (b, g) state

namespace Adds

variable {p : Project} {s : Service} {state state' state'' : Builder × Generator}

theorem append {ms ms' : List (Service × Endpoint)} (h : Adds p ms state state')
    (h' : Adds p ms' state' state'') : Adds p (ms ++ ms') state state'' := by
  induction h with
  | nil => exact h'
  | cons hm _ ih => exact .cons hm (ih h')

theorem of_addMethods {ms : List Endpoint} {x : Unit}
    (h : Builder.addMethods p s ms state = (.ok x, state')) :
    Adds p (ms.map (s, ·)) state state' := by
  induction ms generalizing state with
  | nil =>
    cases h
    exact .nil _
  | cons m ms ih =>
    obtain ⟨b, g⟩ := state
    rw [Builder.addMethods_cons] at h
    rcases hm : Builder.addMethod p s m b g with ⟨fault | b', g'⟩ <;> rw [hm] at h
    · cases h
    · exact .cons hm (ih h)

theorem of_addServices {services : List Service}
    (h : Generation.addServices p services state = .ok state') :
    Adds p (allMethods services) state state' := by
  induction services generalizing state with
  | nil =>
    cases h
    exact .nil _
  | cons s services ih =>
    rw [Generation.addServices] at h
    split at h
    · rename_i x state₁ hs
      exact (of_addMethods hs).append (ih h)
    · cases h

end Adds

/-- The names of the service and the method together. -/
def fullName (e : Service × Endpoint) : String := e.1.name ++ e.2.name

/-- What holds after methods of one package have been added. -/
structure Added (done : List (Service × Endpoint)) (state : Builder × Generator) : Prop where
  coherent : state.2.registry.Coherent
  registered : ∀ e ∈ done,
    ∃ id, state.2.registry.idOf? (containerKey e.1.package e.2.responseName) = some id
  carried : (done.map fullName).Nodup → ∀ path v,
    Option.Rel
      (fun e o ↦ Carries state.2.registry.idOf? state.2.registry.schemas e.1 e.2 o)
      (lastAt done path v) (operationAt state.1.paths path v)

namespace Added

variable {p : Project} {package : String} {done ms : List (Service × Endpoint)}

/-- A method of the package. -/
def Fits (package : String) (e : Service × Endpoint) : Prop :=
  e.1.package = package ∧ e.2.IsOf e.1.name

theorem initial (d : Directives) (tables : Tables) :
    Added [] (Builder.initial.withDirectives d, ⟨tables, .empty⟩) where
  coherent := Registry.coherent_empty
  registered := nofun
  carried _ _ _ := .none

theorem rel_mono {α β : Type} {R R' : α → β → Prop} {a? : Option α} {b? : Option β}
    (h : Option.Rel R a? b?) (hi : ∀ a, a? = some a → ∀ b, R a b → R' a b) :
    Option.Rel R' a? b? := by
  cases h with
  | none => exact .none
  | some h => exact .some (hi _ rfl _ h)

theorem lastAt_snoc (done : List (Service × Endpoint)) (e : Service × Endpoint) (path : String)
    (v : Verb) :
    lastAt (done ++ [e]) path v =
      if e.2.route = (path, some v) then some e else lastAt done path v := by
  rw [lastAt, List.reverse_append, List.reverse_singleton, List.singleton_append,
    List.find?_cons]
  by_cases hr : e.2.route = (path, some v) <;> simp [hr, lastAt]

theorem step {s : Service} {m : Endpoint} {b b' : Builder} {g g' : Generator}
    (h : Added done (b, g)) (hd : ∀ e ∈ done, Fits package e) (he : Fits package (s, m))
    (ha : Builder.addMethod p s m b g = (.ok b', g')) : Added (done ++ [(s, m)]) (b', g') := by
  obtain ⟨hg, hid, o, hc, hp⟩ := Builder.addMethod_ok he.2 h.coherent ha
  refine ⟨hg.coherent, fun e hm ↦ ?_, fun hn path v ↦ ?_⟩
  · rcases List.mem_append.mp hm with hm | hm
    · obtain ⟨id, hid⟩ := h.registered e hm
      exact ⟨id, hg.ids hid⟩
    · cases List.mem_singleton.mp hm
      exact hid
  · rw [List.map_append, List.nodup_append] at hn
    obtain ⟨hn, -, hne⟩ := hn
    simp only at hp ⊢
    rw [lastAt_snoc, hp]
    split
    · exact .some hc
    -- full names tell keys apart, so the new method replaces no container of an earlier one
    · refine rel_mono (h.carried hn path v) fun e hl o' hold ↦ ?_
      have hm : e ∈ done := List.mem_reverse.mp (List.mem_of_find?_eq_some hl)
      obtain ⟨hpackage, hof⟩ := hd e hm
      refine hold.grows hg ?_
      rw [hpackage, he.1]
      exact hof.disjoint_keys he.2 (hne _ (List.mem_map_of_mem hm) _ List.mem_cons_self)

theorem run {state state' : Builder × Generator} (ha : Adds p ms state state')
    (h : Added done state) (hd : ∀ e ∈ done ++ ms, Fits package e) :
    Added (done ++ ms) state' := by
  induction ha generalizing done with
  | nil => rwa [List.append_nil]
  | cons hm ha ih =>
    rw [List.append_cons] at hd ⊢
    have hd' := fun e he ↦ hd e (List.mem_append_left _ he)
    exact ih (h.step (fun e he ↦ hd' e (List.mem_append_left _ he))
      (hd' _ (List.mem_append_right _ List.mem_cons_self)) hm) hd

/-- The containers of methods are apart exactly when no two methods have one name together with
that of their service. -/
theorem apart_iff {state : Builder × Generator} (h : Added done state)
    (hd : ∀ e ∈ done, Fits package e) :
    (done.Pairwise fun e e' ↦
      ((e.2.containers e.1.package).filterMap state.2.registry.idOf?).Disjoint
        ((e'.2.containers e'.1.package).filterMap state.2.registry.idOf?)) ↔
      (done.map fullName).Nodup := by
  rw [List.Nodup, List.pairwise_map]
  constructor
  -- methods with one full name share the container of their results, which every method has
  · refine fun ha ↦ ha.imp_of_mem fun {e e'} hm hm' hdis hn ↦ ?_
    obtain ⟨id, hid⟩ := h.registered e hm
    have hr : e.2.responseName = e'.2.responseName := by
      rw [(hd e hm).2.responseName, (hd e' hm').2.responseName]
      exact congrArg (· ++ "Response") hn
    have hmem {e : Service × Endpoint} {id : String}
        (hid : state.2.registry.idOf? (containerKey e.1.package e.2.responseName) = some id) :
        id ∈ (e.2.containers e.1.package).filterMap state.2.registry.idOf? :=
      List.mem_filterMap.mpr ⟨_, List.mem_append_right _ List.mem_cons_self, hid⟩
    refine hdis (hmem hid) (hmem ?_)
    rw [(hd e' hm').1, ← hr, ← (hd e hm).1, hid]
  · refine fun ha ↦ ha.imp_of_mem fun {e e'} hm hm' hn id hid hid' ↦ ?_
    obtain ⟨q, hq, hid⟩ := List.mem_filterMap.mp hid
    obtain ⟨q', hq', hid'⟩ := List.mem_filterMap.mp hid'
    obtain rfl := h.coherent.inj hid hid'
    have hdis : ∀ q ∈ e.2.keys package, q ∉ e'.2.keys package :=
      (hd e hm).2.disjoint_keys (hd e' hm').2 hn
    have hk := Endpoint.mem_keys_of_mem_containers hq
    have hk' := Endpoint.mem_keys_of_mem_containers hq'
    rw [(hd e hm).1] at hk
    rw [(hd e' hm').1] at hk'
    exact hdis q hk hk'

end Added

/-- The operations of services that were loaded from a directory show their own containers, and
no two methods share one, exactly when the name of the service followed by that of the method is
different for each. -/
theorem containers_own_iff {p : Project} {dir : Path} {filter : List String}
    {services loaded : List Service} {t tables : Tables} {d : Directives} {b : Builder}
    {g : Generator} (hl : Service.load p dir filter .empty = (.ok loaded, t))
    (hs : services ⊆ loaded)
    (ha : Generation.addServices p services (Builder.initial.withDirectives d, ⟨tables, .empty⟩) =
      .ok (b, g)) :
    ContainersOwn services (b.document g.registry) g.registry.idOf? ↔
      ((allMethods services).map fullName).Nodup := by
  have hg := (Service.load_gives dir filter).ok (.empty p) hl
  have hd : ∀ e ∈ allMethods services,
      Added.Fits (p.layout.importPathOf p.files dir) e := by
    intro e he
    obtain ⟨s, hm, he⟩ := List.mem_flatMap.mp he
    obtain ⟨m, hm', rfl⟩ := List.mem_map.mp he
    have hof := hg.2 s (hs hm)
    exact ⟨hof.package, hof.methods m hm'⟩
  have h := Added.run (Adds.of_addServices ha) (Added.initial d tables) (by simpa using hd)
  rw [List.nil_append] at h
  have hapart := h.apart_iff hd
  refine ⟨fun hc ↦ hapart.mp hc.apart, fun hn ↦ ⟨fun path v ↦ ?_, hapart.mpr hn⟩⟩
  rw [Builder.components?_document]
  exact h.carried hn path v

/-- The services of a directory, and what adding them all has made. -/
def Generation.added? (p : Project) (dir : Path) (filter : List String) :
    Option (List Service × Tables × Builder × Generator) :=
  match Service.load p dir filter .empty with
  | (.ok services, t) =>
    let builder := Builder.initial.withDirectives (Service.allDirectives services)
    match Generation.addServices p services (builder, ⟨t, .empty⟩) with
    | .ok (b, g) => some (services, t, b, g)
    | .error _ => none
  | (.error _, _) => none

theorem Generation.added?_eq_some {p : Project} {dir : Path} {filter : List String}
    {services : List Service} {t : Tables} {b : Builder} {g : Generator}
    (h : added? p dir filter = some (services, t, b, g)) :
    Service.load p dir filter .empty = (.ok services, t) ∧
      addServices p services
        (Builder.initial.withDirectives (Service.allDirectives services), ⟨t, .empty⟩) =
          .ok (b, g) := by
  unfold added? at h
  rcases hl : Service.load p dir filter .empty with ⟨fault | services', t'⟩
  · rw [hl] at h
    cases h
  · rw [hl] at h
    dsimp only at h
    split at h
    · rename_i b' g' ha
      cases h
      exact ⟨rfl, ha⟩
    · cases h

/-- Two services whose names run together with those of their methods in the same way. -/
def runTogether : Project :=
  let source := "package service\n\n" ++
    "// @tg server-jsonrpc\ntype A interface \x7b\n\tBC(x int) (u int)\n\x7d\n\n" ++
    "// @tg server-jsonrpc\ntype AB interface \x7b\n\tC(y string) (v string)\n\x7d\n"
  let files :=
    [(⟨"go.mod"⟩, .file (.text "module m\n")), (⟨"service/service.go"⟩, .file (.text source))]
  .of (.ofNodes ["tmp", "w"] files) (.ofGoMod {} ⟨"/tmp/w"⟩ (.parse "module m\n"))

/-- One of the services alone has its own containers. -/
theorem runTogether_own_of_one :
    ∃ services t b g,
      Service.load runTogether ⟨"/tmp/w/service"⟩ ["A"] .empty = (.ok services, t) ∧
      services ⊆ services ∧
      Generation.addServices runTogether services
        (Builder.initial.withDirectives (Service.allDirectives services), ⟨t, .empty⟩) =
          .ok (b, g) ∧
      allMethods services ≠ [] ∧
      ContainersOwn services (b.document g.registry) g.registry.idOf? := by
  have h : (Generation.added? runTogether ⟨"/tmp/w/service"⟩ ["A"]).map
      (fun x ↦ (allMethods x.1).map fullName) = some ["ABC"] := by
    decide +kernel
  obtain ⟨⟨services, t, b, g⟩, ha, hn⟩ := Option.map_eq_some_iff.mp h
  obtain ⟨hl, ha⟩ := Generation.added?_eq_some ha
  have hn : (allMethods services).map fullName = ["ABC"] := hn
  refine ⟨services, t, b, g, hl, List.Subset.refl _, ha, ?_, ?_⟩
  · rintro he
    rw [he] at hn
    cases hn
  · refine (containers_own_iff hl (List.Subset.refl _) ha).mpr ?_
    rw [hn]
    exact List.nodup_singleton _

/-- The operation of a call in an envelope refers to a component with the properties of its own
method. -/
theorem ContainersOwn.request_keys {services : List Service} {d : Document}
    {ids : QualifiedName → Option String} (h : ContainersOwn services d ids) {path : String}
    {s : Service} {m : Endpoint} (hm : lastAt (allMethods services) path .post = some (s, m))
    (hr : m.isHttp = false) :
    ∃ id schema, ids (containerKey s.package m.requestName) = some id ∧
      Dict.find? id d.components? = some schema ∧
      ∀ key, key ∈ Dict.keys (schema.properties.getD []) ↔ key ∈ Field.jsonNames m.bodyFields := by
  have hc := h.carried path .post
  rw [hm] at hc
  cases ho : operationAt d.paths path .post with
  | none =>
    rw [ho] at hc
    cases hc
  | some o =>
    rw [ho] at hc
    cases hc with
    | some hc =>
      unfold Carries at hc
      rw [if_neg (by simp [hr])] at hc
      obtain ⟨s?, ⟨id, schema, hid, hs, hk, -⟩, -⟩ := hc.request
      exact ⟨id, schema, hid, hs, hk⟩

/-- With both services, the operation of the first one refers to a component that has the
properties of the second one. -/
theorem runTogether_not_own :
    ∃ services t b g,
      Service.load runTogether ⟨"/tmp/w/service"⟩ [] .empty = (.ok services, t) ∧
      Generation.addServices runTogether services
        (Builder.initial.withDirectives (Service.allDirectives services), ⟨t, .empty⟩) =
          .ok (b, g) ∧
      (services.map (·.name)).Nodup ∧ (∀ s ∈ services, (s.methods.map (·.name)).Nodup) ∧
      (∃ s m id schema, lastAt (allMethods services) "/a/bc" .post = some (s, m) ∧
        Field.jsonNames m.bodyFields = ["x"] ∧
        g.registry.idOf? (containerKey s.package m.requestName) = some id ∧
        Dict.find? id g.registry.schemas = some schema ∧
        Dict.keys (schema.properties.getD []) = ["y"]) ∧
      ¬ContainersOwn services (b.document g.registry) g.registry.idOf? := by
  have h : ((Generation.added? runTogether ⟨"/tmp/w/service"⟩ []).bind fun x ↦
      (lastAt (allMethods x.1) "/a/bc" .post).bind fun e ↦
      (x.2.2.2.registry.idOf? (containerKey e.1.package e.2.requestName)).bind fun id ↦
      (Dict.find? id x.2.2.2.registry.schemas).map fun schema ↦
        (x.1.map fun s ↦ (s.name, s.methods.map (·.name)), e.2.isHttp,
          Field.jsonNames e.2.bodyFields, Dict.keys (schema.properties.getD []))) =
      some ([("A", ["BC"]), ("AB", ["C"])], false, ["x"], ["y"]) := by
    decide +kernel
  obtain ⟨⟨services, t, b, g⟩, ha, h⟩ := Option.bind_eq_some_iff.mp h
  obtain ⟨⟨s, m⟩, hm, h⟩ := Option.bind_eq_some_iff.mp h
  obtain ⟨id, hid, h⟩ := Option.bind_eq_some_iff.mp h
  obtain ⟨schema, hs, h⟩ := Option.map_eq_some_iff.mp h
  obtain ⟨hl, ha⟩ := Generation.added?_eq_some ha
  obtain ⟨hnames, h⟩ := Prod.mk.inj h
  obtain ⟨hr, h⟩ := Prod.mk.inj h
  obtain ⟨hf, hk⟩ := Prod.mk.inj h
  have hservices : services.map (·.name) = ["A", "AB"] := by
    simpa [Function.comp_def] using congrArg (List.map Prod.fst) hnames
  have hmethods : services.map (fun s ↦ s.methods.map (·.name)) = [["BC"], ["C"]] := by
    simpa [Function.comp_def] using congrArg (List.map Prod.snd) hnames
  refine ⟨services, t, b, g, hl, ha, ?_, fun s' hs' ↦ ?_, ⟨s, m, id, schema, hm, hf, hid, hs, hk⟩,
    fun hown ↦ ?_⟩
  · rw [hservices]
    decide
  · have hmem := List.mem_map_of_mem (f := fun s ↦ s.methods.map (·.name)) hs'
    rw [hmethods] at hmem
    have hall : ∀ l ∈ [["BC"], ["C"]], l.Nodup := by decide
    exact hall _ hmem
  · obtain ⟨id', schema', hid', hs', hkeys⟩ := hown.request_keys hm hr
    cases hid.symm.trans hid'
    rw [Builder.components?_document] at hs'
    cases hs.symm.trans hs'
    have hx := (hkeys "x").mpr (by rw [hf]; exact List.mem_cons_self)
    rw [hk] at hx
    exact absurd hx (by decide)

end GoOpenApi
