import GoOpenApi.Generation
import GoOpenApi.Proofs.Schema.Required

/-!
Schemas in documents. What holds of the schemas that walks make, and of objects and choices when
it holds of their parts, holds of every schema in a document.
-/

namespace GoOpenApi

def contentSchemas (content : Dict MediaType) : List Schema := content.map (·.2.schema)

def headerSchemas (headers : Dict Header) : List Schema := headers.map (·.2.schema)

def Response.schemas (r : Response) : List Schema :=
  headerSchemas (r.headers.getD []) ++ contentSchemas (r.content.getD [])

def responseSchemas (responses : Dict Response) : List Schema := responses.flatMap (·.2.schemas)

def Operation.schemas (o : Operation) : List Schema :=
  (o.parameters.getD []).map (·.schema) ++
    contentSchemas ((o.requestBody.map (·.content)).getD []) ++ responseSchemas o.responses

def PathItem.schemas (item : PathItem) : List Schema :=
  Verb.all.flatMap fun v ↦ (item.at? v).toList.flatMap Operation.schemas

def pathSchemas (paths : Dict PathItem) : List Schema := paths.flatMap (·.2.schemas)

namespace Document

def components? (d : Document) : Dict Schema := (d.components.bind (·.schemas)).getD []

/-- The schemas of all components, parameters, headers, request bodies and responses. -/
def schemas (d : Document) : List Schema := d.components?.map (·.2) ++ pathSchemas d.paths

end Document

/-- What is said of a registry between calls and of schemas beside it. Everything that makes
schemas keeps it. -/
structure Rule where
  state : Registry → Prop
  schema : Registry → Schema → Prop
  walk {definitions : Table QualifiedName Shape} {shape : Shape} {r r' : Registry} {s : Schema} :
    Walk definitions shape r s r' → state r →
      state r' ∧ schema r' s ∧ ∀ u, schema r u → schema r' u
  container {definitions : Table QualifiedName Shape} {q : QualifiedName}
    {fields : List ShapeField} {r r' : Registry} {s : Schema} :
    Generator.Contains definitions q fields r s r' → state r →
      state r' ∧ schema r' s ∧ ∀ u, schema r u → schema r' u
  leaf (r : Registry) (type format description : Option String) :
    schema r { type := type, format := format, description := description }
  object {r : Registry} {type : Option String} {properties : List (String × Schema)}
    {required : Option (List String)} :
    Schema.RequiresOwn { type := type, properties := some properties, required := required } →
    (∀ e ∈ properties, schema r e.2) →
    schema r { type := type, properties := some properties, required := required }
  choice {r : Registry} {choices : List Schema} :
    (∀ u ∈ choices, schema r u) → schema r { oneOf := some choices }

namespace Rule

variable (rule : Rule) {r : Registry}

theorem record {ps : List (String × Schema)} (hne : ps ≠ []) (hn : (ps.map (·.1)).Nodup)
    (h : ∀ e ∈ ps, rule.schema r e.2) : rule.schema r (.record ps) := by
  refine rule.object (fun names hr ↦ ?_) fun e he ↦ h e (Dict.mem_ofList he)
  obtain rfl := Option.some.inj hr
  exact ⟨by simpa using hne, hn, fun name hm ↦ Dict.mem_keys_ofList.mpr hm⟩

theorem envelopeProperties : ∀ e ∈ envelopeProperties, rule.schema r e.2 := by
  simp only [GoOpenApi.envelopeProperties, List.forall_mem_cons]
  exact ⟨rule.leaf r (some "string") none (some "2.0"), rule.leaf r none none none, by simp⟩

theorem envelope {key : String} {payload? : Option Schema} (hk : key ∉ ["jsonrpc", "id"])
    (h : ∀ s ∈ payload?, rule.schema r s) : rule.schema r (envelope key payload?) := by
  refine rule.record (by simp [GoOpenApi.envelopeProperties]) ?_ fun e he ↦ ?_
  · cases payload? with
    | none => simp [GoOpenApi.envelopeProperties]
    | some s => simpa [GoOpenApi.envelopeProperties, eq_comm] using hk
  · rcases List.mem_append.mp he with he | he
    · exact rule.envelopeProperties e he
    · obtain ⟨s, hs, rfl⟩ := Option.map_eq_some_iff.mp (Option.mem_toList.mp he)
      exact h s hs

theorem envelopeError : rule.schema r envelopeError := by
  refine rule.object ?_ fun e he ↦ ?_
  · intro names hr
    obtain rfl := Option.some.inj hr
    decide
  · rcases Dict.mem_insert he with rfl | he
    · exact rule.leaf r none none none
    · have he := Dict.mem_ofList he
      simp only [List.mem_cons, List.not_mem_nil, or_false] at he
      rcases he with rfl | rfl
      · exact rule.leaf r (some "integer") (some "int32") none
      · exact rule.leaf r (some "string") none none

theorem errorEnvelope : rule.schema r errorEnvelope := by
  have h : rule.schema r (GoOpenApi.envelope "error" (some GoOpenApi.envelopeError)) :=
    rule.envelope (by decide) fun s hs ↦ Option.some.inj hs ▸ rule.envelopeError
  exact h

end Rule

namespace Generator

/-- A state between calls, with schemas of which the rule holds. -/
def Holds (rule : Rule) (given : List Schema) (g : Generator) : Prop :=
  rule.state g.registry ∧ ∀ s ∈ given, rule.schema g.registry s

/-- Beside the given schemas, an action makes others, in `out`, and the rule holds of all. -/
def Makes (rule : Rule) (given : List Schema) (out : α → List Schema) (a : Action Generator α) :
    Prop :=
  Action.Triple (Holds rule given) a (fun x ↦ Holds rule (given ++ out x)) fun _ ↦
    Holds rule given

def Among (rule : Rule) (given : List Schema) (s : Schema) : Prop :=
  ∀ r, (∀ u ∈ given, rule.schema r u) → rule.schema r s

variable {α β : Type} {rule : Rule} {given given' : List Schema} {out : α → List Schema}
  {g : Generator}

theorem among_of_mem {s : Schema} (h : s ∈ given) : Among rule given s := fun _ hg ↦ hg s h

theorem Among.mono {s : Schema} (h : Among rule given s) (hs : given ⊆ given') :
    Among rule given' s :=
  fun ids hg ↦ h ids fun u hu ↦ hg u (hs hu)

theorem Among.append {s : Schema} (h : Among rule given s) (more : List Schema) :
    Among rule (given ++ more) s :=
  h.mono (List.subset_append_left _ _)

theorem Holds.subset (h : g.Holds rule given) (hs : given' ⊆ given) : g.Holds rule given' :=
  ⟨h.1, fun s hm ↦ h.2 s (hs hm)⟩

theorem Holds.append (h : g.Holds rule given) (hs : ∀ s ∈ given', Among rule given s) :
    g.Holds rule (given ++ given') := by
  refine ⟨h.1, fun s hm ↦ ?_⟩
  rcases List.mem_append.mp hm with hm | hm
  · exact h.2 s hm
  · exact hs s hm _ h.2

theorem Holds.made {r : Registry} {s : Schema} (h : g.Holds rule given)
    (hm : rule.state r ∧ rule.schema r s ∧
      ∀ u, rule.schema g.registry u → rule.schema r u) :
    Holds rule (given ++ [s]) { g with registry := r } := by
  obtain ⟨hr, hs, hu⟩ := hm
  exact ⟨hr, List.forall_mem_append.mpr ⟨fun u hg ↦ hu u (h.2 u hg), by simpa using hs⟩⟩

namespace Makes

theorem pure {x : α} (h : ∀ s ∈ out x, Among rule given s) : Makes rule given out (pure x) :=
  Action.Triple.pure fun _ hg ↦ hg.append h

theorem bind {a : Action Generator α} {f : α → Action Generator β} {out' : β → List Schema}
    (ha : Makes rule given out a) (hf : ∀ x, Makes rule (given ++ out x) out' (f x)) :
    Makes rule given out' (a >>= f) := by
  refine Action.Triple.bind ha fun x ↦ (hf x).mono (fun _ hg ↦ hg) (fun y g hg ↦ ?_)
    fun _ g hg ↦ hg.subset (List.subset_append_left _ _)
  refine hg.subset (List.append_subset.mpr ⟨?_, List.subset_append_right _ _⟩)
  exact List.Subset.trans (List.subset_append_left _ _) (List.subset_append_left _ _)

theorem get {f : Generator → Action Generator α} (h : ∀ g, Makes rule given out (f g)) :
    Makes rule given out (MonadState.get >>= f) :=
  Action.Triple.get fun g hg ↦
    Action.Triple.mono (h g) (fun _ hs ↦ hs ▸ hg) (fun _ _ hx ↦ hx) fun _ _ hx ↦ hx

theorem onTables (a : Action Tables α) : Makes rule given (fun _ ↦ []) (onTables a) :=
  Action.Triple.focus fun g hg t ht ↦ by
    split
    · exact hg.subset (by simp)
    · exact hg

theorem materialize (shape : Shape) : Makes rule given ([·]) (materialize shape) := by
  intro g hg
  split
  · rename_i s g' h
    obtain ⟨r, hw, rfl⟩ := materialize_ok h
    exact hg.made (rule.walk hw hg.1)
  · rename_i h
    exact build_error h ▸ hg

variable (p : Project)

theorem schema (type : GoType) (package : String) :
    Makes rule given ([·]) (schema p type package) :=
  (onTables _).bind fun shape ↦ by simpa using materialize shape

theorem container (name package : String) (fields : List Field) :
    Makes rule given ([·]) (container p name package fields) := by
  refine (onTables _).bind fun shapes g hg ↦ ?_
  split
  · rename_i s g' h
    obtain ⟨r, hc, rfl⟩ := build_ok h
    have hm := hg.made (rule.container (componentOf_ok hc) hg.1)
    simpa using hm
  · rename_i h
    exact build_error h ▸ hg

end Makes

section

variable (p : Project)

theorem makes_parameter (b : Binding) : Makes rule given (fun x ↦ [x.schema]) (parameter p b) :=
  (Makes.schema p _ _).bind fun s ↦ .pure (by simpa using among_of_mem (by simp))

theorem makes_parameters (bs : List Binding) :
    Makes rule given (fun ps ↦ ps.map (·.schema)) (parameters p bs) := by
  induction bs generalizing given with
  | nil => exact .pure (by simp)
  | cons b bs ih =>
    refine (makes_parameter p b).bind fun first ↦ ih.bind fun ps ↦ .pure ?_
    exact fun s hs ↦ among_of_mem (by simpa using .inr (by simpa using hs))

theorem makes_headersOnto (package : String) (d : Dict Header) (bs : List Binding)
    (h : ∀ s ∈ headerSchemas d, Among rule given s) :
    Makes rule given headerSchemas (headersOnto p package d bs) := by
  induction bs generalizing given d with
  | nil => exact .pure h
  | cons b bs ih =>
    refine (Makes.schema p _ _).bind fun s ↦ ih _ fun u hu ↦ ?_
    obtain ⟨e, he, rfl⟩ := List.mem_map.mp hu
    rcases Dict.mem_insert he with rfl | he
    · refine among_of_mem ?_
      split <;> simp
    · exact (h _ (List.mem_map_of_mem he)).append _

theorem makes_headers (package : String) (bs : List Binding) :
    Makes rule given (fun x ↦ headerSchemas (x.getD [])) (headers p package bs) := by
  refine (makes_headersOnto p package [] bs (by simp [headerSchemas])).bind fun d ↦ ?_
  split
  · exact .pure (by simp [headerSchemas])
  · exact .pure fun s hs ↦ among_of_mem (List.mem_append_right _ hs)

theorem makes_payload (q : QualifiedName) :
    Makes rule given (fun x ↦ contentSchemas (x.getD [])) (payload p q) := by
  refine (Makes.onTables _).bind fun shape ↦ ?_
  split
  · exact .pure (by simp [contentSchemas])
  · refine (Makes.materialize _).bind fun s ↦ .pure fun u hu ↦ among_of_mem ?_
    have hu : u = s := by simpa [contentSchemas, jsonContent] using hu
    simp [hu]

theorem makes_propertiesOnto (package : String) (d : Dict Schema) (fs : List Field)
    (h : ∀ e ∈ d, Among rule given e.2) :
    Makes rule given (fun d ↦ d.map (·.2)) (propertiesOnto p package d fs) := by
  induction fs generalizing given d with
  | nil => exact .pure (by simpa using fun s key he ↦ h (key, s) he)
  | cons f fs ih =>
    rw [propertiesOnto]
    split
    · refine (Makes.schema p _ _).bind fun s ↦ ih _ fun e he ↦ ?_
      rcases Dict.mem_insert he with rfl | he
      · exact among_of_mem (by simp)
      · exact (h e he).append _
    · exact ih d h

theorem among_form {properties : Dict Schema} (h : ∀ s ∈ properties.map (·.2), s ∈ given) :
    Among rule given { type := some "object", properties := some properties } :=
  fun _ hg ↦ rule.object (.of_none rfl) fun _ he ↦ hg _ (h _ (List.mem_map_of_mem he))

theorem makes_form (package : String) (m : Endpoint) :
    Makes rule given contentSchemas (form p package m) := by
  refine (makes_propertiesOnto p package _ _ fun _ he _ _ ↦ ?_).bind fun properties ↦
    .pure fun s hs ↦ ?_
  · obtain ⟨u, -, rfl⟩ := List.mem_map.mp (Dict.mem_ofList he)
    exact rule.leaf _ _ _ _
  · rw [List.mem_singleton.mp hs]
    exact among_form fun s hs ↦ List.mem_append_right _ hs

theorem among_responses_insert {key : String} {r : Response} {d : Dict Response}
    (hr : ∀ s ∈ r.schemas, Among rule given s) (hd : ∀ s ∈ responseSchemas d, Among rule given s) :
    ∀ s ∈ responseSchemas (Dict.insert key r d), Among rule given s := by
  intro s hs
  obtain ⟨e, he, hs⟩ := List.mem_flatMap.mp hs
  rcases Dict.mem_insert he with rfl | he
  · exact hr s hs
  · exact hd s (List.mem_flatMap.mpr ⟨e, he, hs⟩)

theorem makes_overridesOnto (d : Dict Response) (os : List (Nat × ResponseOverride))
    (h : ∀ s ∈ responseSchemas d, Among rule given s) :
    Makes rule given responseSchemas (overridesOnto p d os) := by
  induction os generalizing given d with
  | nil => exact .pure h
  | cons o os ih =>
    obtain ⟨code, o⟩ := o
    unfold overridesOnto
    split
    · refine (makes_payload p _).bind fun content ↦ ih _ (among_responses_insert ?_ ?_)
      · exact fun s hs ↦ among_of_mem (List.mem_append_right _ (by simpa [Response.schemas,
          headerSchemas] using hs))
      · exact fun s hs ↦ (h s hs).append _
    · exact ih _ (among_responses_insert (by simp [Response.schemas, headerSchemas,
        contentSchemas]) h)
    · exact ih d h

theorem makes_withErrors (m : Endpoint) (d : Dict Response)
    (h : ∀ s ∈ responseSchemas d, Among rule given s) :
    Makes rule given responseSchemas (withErrors p m d) := by
  refine (makes_overridesOnto p d _ h).bind fun d ↦ ?_
  have hd : ∀ s ∈ responseSchemas d, Among rule (given ++ responseSchemas d) s :=
    fun s hs ↦ among_of_mem (List.mem_append_right _ hs)
  split
  · exact .pure hd
  · refine (makes_payload p _).bind fun content ↦ .pure (among_responses_insert ?_ ?_)
    · exact fun s hs ↦ among_of_mem (List.mem_append_right _ (by simpa [Response.schemas,
        headerSchemas] using hs))
    · exact fun s hs ↦ (hd s hs).append _
  · exact .pure (among_responses_insert (by simp [Response.schemas, headerSchemas,
      contentSchemas]) hd)

theorem makes_unlessEmpty (s : Schema) (h : s ∈ given) :
    Makes rule given Option.toList (unlessEmpty s) := by
  refine .get fun g ↦ .pure fun u hu ↦ ?_
  split at hu
  · cases hu
  · exact List.mem_singleton.mp hu ▸ among_of_mem h

theorem makes_cleared (content : Dict MediaType) (h : contentSchemas content ⊆ given) :
    Makes rule given (fun x ↦ contentSchemas (x.getD [])) (cleared content) := by
  refine .get fun g ↦ .pure fun s hs ↦ among_of_mem (h ?_)
  rw [Registry.clear] at hs
  split at hs
  · cases hs
  · obtain ⟨e, he, rfl⟩ := List.mem_map.mp hs
    exact List.mem_map_of_mem (List.mem_of_mem_filter he)

theorem makes_operation (s : Service) (m : Endpoint) :
    Makes rule given (fun o ↦ (o.parameters.getD []).map (·.schema)) (operation p s m) := by
  refine (makes_parameters p m.bindings).bind fun ps ↦ .pure fun u hu ↦ ?_
  simp only at hu
  split at hu
  · cases hu
  · exact among_of_mem (List.mem_append_right _ hu)

theorem among_envelope {payload? : Option Schema} {key : String} (hk : key ∉ ["jsonrpc", "id"])
    (h : ∀ s ∈ payload?, s ∈ given) : Among rule given (envelope key payload?) :=
  fun _ hg ↦ rule.envelope hk fun s hs ↦ hg s (h s hs)

theorem among_answer {result? : Option Schema} (h : ∀ s ∈ result?, s ∈ given) :
    Among rule given { oneOf := some [envelope "result" result?, errorEnvelope] } := by
  intro r hg
  have he : Among rule given (envelope "result" result?) := among_envelope (by decide) h
  exact rule.choice (by simpa using ⟨he r hg, rule.errorEnvelope⟩)

theorem makes_rpcOperation (s : Service) (m : Endpoint) :
    Makes rule given Operation.schemas (rpcOperation p s m) := by
  refine (Makes.container p _ _ _).bind fun params ↦ (Makes.container p _ _ _).bind fun result ↦
    (makes_unlessEmpty params (by simp)).bind fun params? ↦
    (makes_unlessEmpty result (by simp)).bind fun result? ↦
    (makes_headers p _ _).bind fun headers ↦ (makes_operation p s m).bind fun o ↦ .pure ?_
  intro u hu
  simp only [Operation.schemas, List.mem_append, responseSchemas, Response.schemas,
    Option.map_some, Option.getD_some, List.flatMap_cons, List.flatMap_nil, List.append_nil] at hu
  rcases hu with (hu | hu) | hu | hu
  · exact among_of_mem (List.mem_append_right _ hu)
  · rw [List.mem_singleton.mp hu]
    exact among_envelope (by decide) fun s hs ↦ by simp [Option.mem_def.mp hs]
  · exact among_of_mem (by simp [hu])
  · rw [List.mem_singleton.mp hu]
    exact among_answer fun s hs ↦ by simp [Option.mem_def.mp hs]

theorem makes_requestContent (s : Service) (m : Endpoint) :
    Makes rule given (fun x ↦ contentSchemas (x.getD [])) (requestContent p s m) := by
  unfold requestContent
  split
  · exact ((Makes.container p _ _ _).bind fun params ↦
      makes_cleared _ (by simp [contentSchemas, jsonContent]))
  · exact (makes_form p _ m).bind fun content ↦
      .pure fun u hu ↦ among_of_mem (List.mem_append_right _ hu)

theorem makes_httpOperation (s : Service) (m : Endpoint) :
    Makes rule given Operation.schemas (httpOperation p s m) := by
  refine (makes_requestContent p s m).bind fun request ↦
    (Makes.container p _ _ _).bind fun response ↦ (makes_headers p _ _).bind fun headers ↦
    (makes_cleared _ (by simp [contentSchemas, jsonContent])).bind fun content ↦
    (makes_withErrors p m _ ?_).bind fun responses ↦ (makes_operation p s m).bind fun o ↦ .pure ?_
  · intro u hu
    simp only [responseSchemas, Response.schemas, List.flatMap_cons, List.flatMap_nil,
      List.append_nil, List.mem_append] at hu
    exact among_of_mem (by rcases hu with hu | hu <;> simp [hu])
  · intro u hu
    simp only [Operation.schemas, Option.map_map, List.mem_append] at hu
    rcases hu with (hu | hu) | hu
    · exact among_of_mem (List.mem_append_right _ hu)
    · refine among_of_mem ?_
      have hu : u ∈ contentSchemas (request.getD []) := by cases request <;> exact hu
      simp [hu]
    · exact among_of_mem (by simp [hu])

end

end Generator

namespace PathItem

theorem mem_schemas {item : PathItem} {u : Schema} :
    u ∈ item.schemas ↔ ∃ v o, item.at? v = some o ∧ u ∈ o.schemas := by
  have hv (v : Verb) : v ∈ Verb.all := by cases v <;> decide
  simp only [schemas, List.mem_flatMap, Option.mem_toList]
  exact ⟨fun ⟨v, _, o, h⟩ ↦ ⟨v, o, h⟩, fun ⟨v, o, h⟩ ↦ ⟨v, hv v, o, h⟩⟩

theorem mem_schemas_set {item : PathItem} {o : Operation} {v : Verb} {u : Schema}
    (h : u ∈ (item.set o v).schemas) : u ∈ item.schemas ∨ u ∈ o.schemas := by
  obtain ⟨w, o', hw, hu⟩ := mem_schemas.mp h
  rw [at?_set] at hw
  split at hw
  · exact .inr (Option.some.inj hw ▸ hu)
  · exact .inl (mem_schemas.mpr ⟨w, o', hw, hu⟩)

end PathItem

namespace Builder

variable (p : Project) (rule : Rule)

theorem mem_schemas_insert {path verb : String} {o : Operation} {b : Builder} {u : Schema}
    (h : u ∈ pathSchemas (b.insert path verb o).paths) :
    u ∈ pathSchemas b.paths ∨ u ∈ o.schemas := by
  have hitem {v : Schema} (hv : v ∈ ((Dict.find? path b.paths).getD {}).schemas) :
      v ∈ pathSchemas b.paths := by
    cases hf : Dict.find? path b.paths with
    | none =>
      obtain ⟨w, o, ho, -⟩ := PathItem.mem_schemas.mp (hf ▸ hv)
      cases w <;> cases ho
    | some item =>
      rw [hf] at hv
      exact List.mem_flatMap.mpr ⟨(path, item), Dict.mem_of_find? hf, hv⟩
  obtain ⟨e, he, hu⟩ := List.mem_flatMap.mp h
  rcases Dict.mem_insert he with rfl | he
  · simp only at hu
    split at hu
    · exact (PathItem.mem_schemas_set hu).imp_left hitem
    · exact .inl (hitem hu)
  · exact .inl (List.mem_flatMap.mpr ⟨e, he, hu⟩)

theorem makes_addMethod (s : Service) (m : Endpoint) {b : Builder} {given : List Schema}
    (hb : pathSchemas b.paths ⊆ given) :
    Generator.Makes rule given (fun b ↦ pathSchemas b.paths) (addMethod p s m b) := by
  have hinsert (path verb : String) (o : Operation) :
      ∀ u ∈ pathSchemas (b.insert path verb o).paths, Generator.Among rule (given ++ o.schemas) u :=
    fun u hu ↦ Generator.among_of_mem <| List.mem_append.mpr <|
      (mem_schemas_insert hu).imp_left fun h ↦ hb h
  unfold addMethod
  split
  · exact (Generator.makes_httpOperation p s m).bind fun o ↦ .pure (hinsert _ _ o)
  · exact (Generator.makes_rpcOperation p s m).bind fun o ↦ .pure (hinsert _ _ o)

/-- The rule holds of the schemas in a document under construction, and of the given ones. -/
def Obeys (rule : Rule) (given : List Schema) (state : Builder × Generator) : Prop :=
  state.2.Holds rule (given ++ pathSchemas state.1.paths)

theorem obeys_initial (d : Directives) (tables : Tables) (h : rule.state .empty) :
    Obeys rule [] (Builder.initial.withDirectives d, ⟨tables, .empty⟩) :=
  ⟨h, by simp [pathSchemas, withDirectives, initial]⟩

theorem obeys_addMethods (s : Service) (ms : List Endpoint) (given : List Schema) :
    Action.Triple (Obeys rule given) (addMethods p s ms) (fun _ ↦ Obeys rule given)
      fun _ ↦ Obeys rule given := by
  induction ms with
  | nil => exact .pure fun _ h ↦ h
  | cons m ms ih =>
    refine .get fun (b, g) hg ↦ ?_
    -- after a fault the paths are as before, and nothing that was made is lost
    have hm := makes_addMethod p rule s m
      (List.subset_append_right given (pathSchemas b.paths))
    simp only
    split
    · rename_i b' g' h
      have hg' := (hm.ok hg h).subset (List.append_subset.mpr
        ⟨by simp, List.subset_append_right _ _⟩ : given ++ pathSchemas b'.paths ⊆ _)
      exact (Action.Triple.set fun _ _ ↦ hg').bind fun _ ↦ ih
    · rename_i fault g' h
      exact (Action.Triple.set fun _ _ ↦ hm.error hg h).bind fun _ ↦ .throw fun _ h ↦ h

end Builder

theorem Builder.components?_document (b : Builder) (r : Registry) :
    (b.document r).components? = r.schemas := by
  unfold Document.components? Builder.document
  cases h : r.schemas with
  | nil => simp
  | cons e es => simp

namespace Generation

variable (rule : Rule)

theorem obeys_addServices {p : Project} {services : List Service}
    {state state' : Builder × Generator} (h : addServices p services state = .ok state')
    (hs : Builder.Obeys rule [] state) : Builder.Obeys rule [] state' := by
  induction services generalizing state with
  | nil =>
    cases h
    exact hs
  | cons s services ih =>
    rw [addServices] at h
    split at h
    · rename_i state₁ ha
      exact ih h ((Builder.obeys_addMethods p rule s s.methods []).ok hs ha)
    · cases h

theorem generate_ok {files : FileTree} {env : Environment} {o : CommandLine.Options}
    {g : Generation} (h : generate files env o = .ok g) :
    ∃ l tables b generator, o.layout files env = .ok l ∧
      Service.load (.of files l) o.services o.interfaces .empty = (.ok g.services, tables) ∧
      addServices (.of files l) g.services
        (Builder.initial.withDirectives (Service.allDirectives g.services), ⟨tables, .empty⟩) =
          .ok (b, generator) ∧
      g.document = b.document generator.registry := by
  unfold generate at h
  cases hl : o.layout files env with
  | error fault =>
    rw [hl] at h
    cases h
  | ok l =>
    rw [hl] at h
    dsimp only [bind, Except.bind] at h
    split at h
    · cases h
    · cases h
    · rename_i services tables _ hs
      cases ha : addServices (.of files l) services
          (Builder.initial.withDirectives (Service.allDirectives services), ⟨tables, .empty⟩) with
      | error fault =>
        rw [ha] at h
        cases h
      | ok out =>
        rw [ha] at h
        cases h
        exact ⟨l, tables, out.1, out.2, rfl, hs, ha, rfl⟩

/-- The rule holds of the registry from which a document has its components, and of all schemas
in the document. -/
theorem obeys_generate {files : FileTree} {env : Environment} {o : CommandLine.Options}
    {g : Generation} (h : generate files env o = .ok g) (h₀ : rule.state .empty) :
    ∃ r, rule.state r ∧ g.document.components? = r.schemas ∧
      ∀ s ∈ pathSchemas g.document.paths, rule.schema r s := by
  obtain ⟨l, tables, b, generator, -, -, ha, hd⟩ := generate_ok h
  obtain ⟨hr, hs⟩ := obeys_addServices rule ha (Builder.obeys_initial rule _ tables h₀)
  exact ⟨generator.registry, hr, by rw [hd, Builder.components?_document], fun s hm ↦
    hs s (by simpa [hd, Builder.document] using hm)⟩

end Generation

end GoOpenApi
