import GoOpenApi.Proofs.Document.Arguments
import GoOpenApi.Proofs.Document.Results
import GoOpenApi.Proofs.Service.Binding
import GoOpenApi.Proofs.Service.Segments

/-!
The parameters of the paths of methods over HTTP. One that stands for an argument is a parameter of
the operation. One that stands for a result alone takes it out of the body, although there is no
place for it in the path of a response.
-/

namespace GoOpenApi

def Operation.pathParameters (o : Operation) : List Parameter :=
  (o.parameters.getD []).filter (·.location == "path")

theorem Location.label_eq_path_iff {l : Location} : l.label = "path" ↔ l = .path := by
  cases l <;> simp [label]

namespace Endpoint

variable {m : Endpoint} {f : Field}

/-- The parameters in the path that are read; a method in an envelope has none. -/
def pathNames (m : Endpoint) : List String := if m.isHttp then Route.params m.httpPath else []

def pathSpec (name : String) : BindingSpec := ⟨.path, name, name⟩

theorem bindingSpecs_eq (m : Endpoint) :
    m.bindingSpecs = m.pathNames.map pathSpec ++ m.wireSpecs := by
  rw [bindingSpecs, List.append_assoc, wireSpecs, pathNames]
  split <;> rfl

theorem filter_bindingSpecs (m : Endpoint) :
    m.bindingSpecs.filter (·.location == .path) = m.pathNames.map pathSpec := by
  have hw : m.wireSpecs.filter (·.location == .path) = [] := by
    apply List.filter_eq_nil_iff.mpr
    intro spec hs
    rcases location_of_wireSpecs hs with hl | hl <;> simp [hl]
  have hp : (m.pathNames.map pathSpec).filter (·.location == .path) = m.pathNames.map pathSpec := by
    apply List.filter_eq_self.mpr
    intro spec hs
    obtain ⟨name, -, rfl⟩ := List.mem_map.mp hs
    rfl
  rw [bindingSpecs_eq, List.filter_append, hp, hw, List.append_nil]

/-- The keys of the bindings in the path are the names in it that stand for arguments. -/
theorem BindsNames.map_key (h : m.BindsNames) :
    (m.bindings.filter (·.location == .path)).map (·.key) =
      m.pathNames.filter fun name ↦ Field.isNamed m.requestFields (rootName name) := by
  have hb : List.Forall₂ (m.Binds false)
      ((m.standing false m.bindingSpecs).filter (·.location == .path))
      (m.bindings.filter (·.location == .path)) :=
    List.rel_filter (fun _ _ hb ↦ by simp only [hb.location]) h.bindings
  -- both sides filter twice: by the location and by what stands for an argument
  have hs : (m.standing false m.bindingSpecs).filter (·.location == .path) =
      (m.pathNames.filter fun name ↦ Field.isNamed m.requestFields (rootName name)).map pathSpec := by
    rw [standing_false, List.filter_comm, filter_bindingSpecs, List.filter_map]
    rfl
  -- a name in the path is its own key
  rw [hs] at hb
  rw [← map_eq_map_of_forall₂ (f := fun spec ↦ spec.key) hb fun _ _ hb ↦ hb.key.symm, List.map_map]
  exact List.map_id _

/-- A target names the whole of a result, and no argument. -/
def Takes (m : Endpoint) (target : String) (f : Field) : Prop :=
  (∃ f', m.target? (rootName target) = some (f', true) ∧ f'.name = f.name) ∧
    (Text.split '.' target).drop 1 = []

theorem BindsNames.carries_iff (h : m.BindsNames) :
    carries m.resultBindings f ↔ ∃ spec ∈ m.bindingSpecs, m.Takes spec.target f := by
  rw [Endpoint.carries_iff]
  constructor
  · rintro ⟨b, hb, ha, hp⟩
    obtain ⟨spec, hs, hbinds⟩ := exists_of_mem_right h.resultBindings hb
    obtain ⟨f', hf, hn⟩ := hbinds.arg
    exact ⟨spec, (List.mem_filter.mp hs).1, ⟨f', hf, hn.symm.trans ha⟩, hbinds.path.symm.trans hp⟩
  · rintro ⟨spec, hs, ⟨f', hf, hn⟩, hp⟩
    have hs : spec ∈ m.standing true m.bindingSpecs := List.mem_filter.mpr ⟨hs, by simp [hf]⟩
    obtain ⟨b, hb, hbinds⟩ := exists_of_mem_left h.resultBindings hs
    obtain ⟨f'', hf', ha⟩ := hbinds.arg
    cases hf.symm.trans hf'
    exact ⟨b, hb, ha.trans hn, hbinds.path.trans hp⟩

theorem BindsNames.location_of_resultBindings (h : m.BindsNames) :
    (∀ b ∈ m.resultBindings, b.location = .header ∨ b.location = .cookie) ↔
      ∀ name ∈ m.pathNames, Field.isNamed m.responseFields (rootName name) →
        Field.isNamed m.requestFields (rootName name) := by
  constructor
  · intro hw name hn hr
    by_contra ha
    have hs : pathSpec name ∈ m.standing true m.bindingSpecs := by
      rw [mem_standing_true, bindingSpecs_eq]
      exact ⟨List.mem_append_left _ (List.mem_map_of_mem hn), Bool.eq_false_iff.mpr ha, hr⟩
    obtain ⟨b, hb, hbinds⟩ := exists_of_mem_left h.resultBindings hs
    have hl : b.location = .path := hbinds.location
    have hw := hw b hb
    simp [hl] at hw
  · intro hn b hb
    obtain ⟨spec, hs, hbinds⟩ := exists_of_mem_right h.resultBindings hb
    rw [mem_standing_true, bindingSpecs_eq] at hs
    obtain ⟨hs, ha, hr⟩ := hs
    rw [hbinds.location]
    rcases List.mem_append.mp hs with hs | hs
    · obtain ⟨name, hname, rfl⟩ := List.mem_map.mp hs
      exact absurd (hn name hname hr) (Bool.eq_false_iff.mp ha)
    · exact location_of_wireSpecs hs

theorem BindsNames.mem_responseBodyFields_iff (h : m.BindsNames) (hf : f ∈ m.responseFields) :
    f ∈ m.responseBodyFields ↔
      (∀ spec ∈ m.wireSpecs, ¬m.Takes spec.target f) ∧ ∀ name ∈ m.pathNames, ¬m.Takes name f := by
  have hb : f ∈ m.responseBodyFields ↔ ¬carries m.resultBindings f := by
    simp [responseBodyFields, hf]
  rw [hb, h.carries_iff, bindingSpecs_eq]
  constructor
  · intro hn
    refine ⟨fun spec hs ht ↦ hn ⟨spec, List.mem_append_right _ hs, ht⟩, fun name hm ht ↦ ?_⟩
    exact hn ⟨pathSpec name, List.mem_append_left _ (List.mem_map_of_mem hm), ht⟩
  · rintro ⟨hw, hp⟩ ⟨spec, hs, ht⟩
    rcases List.mem_append.mp hs with hs | hs
    · obtain ⟨name, hname, rfl⟩ := List.mem_map.mp hs
      exact hp name hname ht
    · exact hw spec hs ht

end Endpoint

namespace Generator

variable {p : Project} {s : Service} {m : Endpoint} {o : Operation} {g g' : Generator}

theorem pathParameters_names (h : operationOf p s m g = (.ok o, g')) :
    o.pathParameters.map (·.name) = (m.bindings.filter (·.location == .path)).map (·.key) := by
  have hf : List.Forall₂ Parameter.IsOf (m.bindings.filter (·.location == .path))
      o.pathParameters := by
    refine List.rel_filter (fun b q hq ↦ ?_) (operationOf_parameters h)
    simp only [beq_iff_eq, hq.2, Location.label_eq_path_iff]
  exact (map_eq_map_of_forall₂ hf fun _ _ hq ↦ hq.1.symm).symm

theorem pathParameters_required (h : operationOf p s m g = (.ok o, g')) :
    ∀ q ∈ o.pathParameters, q.required := by
  have hf : List.Forall₂ (fun _ q ↦ q.location = "path" → q.required) m.bindings
      (o.parameters.getD []) := by
    refine operationOf_forall (fun b schema hl ↦ ?_) h
    simp [Location.label_eq_path_iff.mp hl]
  intro q hq
  obtain ⟨hq, hl⟩ := List.mem_filter.mp hq
  obtain ⟨b, -, hr⟩ := exists_of_mem_right hf hq
  exact hr (beq_iff_eq.mp hl)

end Generator

section

variable {p : Project} {m : Endpoint} {service package : String} {d : Directives} {sig : Method}
  {t t' : Tables}

/-- A document writes the path of a method with the same parameters, in normal form and once for
all. Its operation has those of them in the path that stand for an argument, all required. -/
theorem pathParameters_of_route (h : Endpoint.build p service d package sig t = (.ok m, t'))
    (hm : m.isHttp) :
    Route.params (Route.documented m.httpPath) = Route.params m.httpPath ∧
    Route.documented (Route.documented m.httpPath) = Route.documented m.httpPath ∧
    Route.IsNormal (Route.documented m.httpPath).toList ∧
    (∀ segment ∈ Route.segments (Route.documented m.httpPath).toList, segment.head? ≠ some ':') ∧
    ∀ s b g b' g', Builder.addMethod p s m b g = (.ok b', g') →
      ∃ o, b' = b.insert (Route.documented m.httpPath) m.httpMethod o ∧
        o.pathParameters.map (·.name) = (Route.params (Route.documented m.httpPath)).filter
          (fun name ↦ Field.isNamed m.requestFields (Endpoint.rootName name)) ∧
        ∀ q ∈ o.pathParameters, q.required := by
  obtain ⟨⟨bindings, resultBindings, hmade⟩, hnames⟩ := Endpoint.build_ok h
  have hp : Route.params (Route.documented m.httpPath) = Route.params m.httpPath :=
    Route.params_documented _
  refine ⟨hp, Route.documented_documented _, ?_, ?_, ?_⟩
  · -- the path is joined, whatever the directives say
    have hj : Route.IsNormal m.httpPath.toList := by
      rw [hmade]
      exact Route.isNormal_join _
    rw [Route.toList_documented]
    exact hj.documentedList
  · rw [Route.toList_documented]
    exact fun _ ↦ Route.head?_of_documented
  · intro s b g b' g' ha
    rw [Builder.addMethod_eq] at ha
    obtain ⟨o, g₁, ho, ha⟩ := Action.bind_ok ha
    cases ha
    refine ⟨o, if_pos hm, ?_, Generator.pathParameters_required ho⟩
    rw [Generator.pathParameters_names ho, hnames.map_key, Endpoint.pathNames, if_pos hm, hp]

/-- One argument is named twice in the path, a field of the other once, and one name stands for
nothing. -/
def orderOf : Method where
  name := "OrderOf"
  docs := ["@tg http-method GET", "@tg http-path orders/:ID/{filter.Owner}//:missing/{id}"]
  args := [⟨"ctx", .qualified "context" "Context", [], false⟩, ⟨"id", .plain "string", [], false⟩,
    ⟨"filter", .struct [⟨"Owner", .plain "string", [], false⟩], [], false⟩]
  results := [⟨"err", .plain "error", [], false⟩]

theorem orderOf_pathParameters : ∃ m t s b g b' g' o,
    Endpoint.build noFiles "Orders" [] "m/service" orderOf .empty = (.ok m, t) ∧ m.isHttp ∧
      Builder.addMethod noFiles s m b g = (.ok b', g') ∧
      b' = b.insert "/orders/{ID}/{filter.Owner}/{missing}/{id}" "GET" o ∧
      o.pathParameters.map (·.name) = ["ID", "filter.Owner", "id"] ∧
      ∀ q ∈ o.pathParameters, q.required := by
  let s : Service := ⟨"Orders", "m/service", [], [], .ofDirectives [], []⟩
  obtain ⟨m, t, hr, hb⟩ := ok_of_map
    (a := Endpoint.build noFiles "Orders" [] "m/service" orderOf) (t := .empty)
    (f := fun m ↦ (m.isHttp, Route.documented m.httpPath, m.httpMethod,
      (Route.params (Route.documented m.httpPath)).filter
        (fun name ↦ Field.isNamed m.requestFields (Endpoint.rootName name)),
      (Builder.addMethod noFiles s m .initial .empty).1.isOk))
    (y := (true, "/orders/{ID}/{filter.Owner}/{missing}/{id}", "GET",
      ["ID", "filter.Owner", "id"], true)) (by decide +kernel)
  simp only [Prod.mk.injEq] at hb
  obtain ⟨hm, hpath, hmethod, hnames, hok⟩ := hb
  obtain ⟨b', g', ha⟩ := ok_of_isOk hok
  obtain ⟨-, -, -, -, hop⟩ := pathParameters_of_route hr hm
  obtain ⟨o, hb', ho, hreq⟩ := hop _ _ _ _ _ ha
  rw [hpath, hmethod] at hb'
  rw [hnames] at ho
  exact ⟨m, t, s, _, _, b', g', o, hr, hm, ha, hb', ho, hreq⟩

/-- All bindings of results are of headers and cookies exactly when no parameter of the path stands
for a result alone. A result is in the body unless the whole of it is named, by a header, a cookie
or the path. -/
theorem resultBindings_onWire_iff (h : Endpoint.build p service d package sig t = (.ok m, t')) :
    ((∀ b ∈ m.resultBindings, b.location = .header ∨ b.location = .cookie) ↔
      ∀ name ∈ m.pathNames, Field.isNamed m.responseFields (Endpoint.rootName name) →
        Field.isNamed m.requestFields (Endpoint.rootName name)) ∧
    ∀ f ∈ m.responseFields, f ∈ m.responseBodyFields ↔
      (∀ spec ∈ m.wireSpecs, ¬m.Takes spec.target f) ∧ ∀ name ∈ m.pathNames, ¬m.Takes name f := by
  have hnames := (Endpoint.build_ok h).2
  exact ⟨hnames.location_of_resultBindings, fun f hf ↦ hnames.mem_responseBodyFields_iff hf⟩

/-- The path names an argument, and a header a result. -/
def tokenOf : Method where
  name := "TokenOf"
  docs := ["@tg http-method GET", "@tg http-path users/:user/token",
    "@tg http-headers:token|X-Token"]
  args := [⟨"user", .plain "string", [], false⟩]
  results := [⟨"token", .plain "string", [], false⟩, ⟨"user", .plain "string", [], false⟩]

theorem tokenOf_bindings_onWire : ∃ m t,
    Endpoint.build noFiles "Users" [] "m/service" tokenOf .empty = (.ok m, t) ∧
      m.pathNames = ["user"] ∧ m.resultBindings.map (·.key) = ["X-Token"] ∧
      ∀ b ∈ m.resultBindings, b.location = .header ∨ b.location = .cookie := by
  obtain ⟨m, t, hr, hb⟩ := ok_of_map
    (a := Endpoint.build noFiles "Users" [] "m/service" tokenOf) (t := .empty)
    (f := fun m ↦ (m.pathNames, m.resultBindings.map (·.key),
      Field.isNamed m.requestFields "user"))
    (y := (["user"], ["X-Token"], true)) (by decide +kernel)
  simp only [Prod.mk.injEq] at hb
  obtain ⟨hpath, hkeys, hnamed⟩ := hb
  refine ⟨m, t, hr, hpath, hkeys, (resultBindings_onWire_iff hr).1.mpr fun name hn _ ↦ ?_⟩
  rw [hpath, List.mem_singleton] at hn
  rw [hn]
  exact hnamed

/-- The path names a result. -/
def findUser : Method where
  name := "Find"
  docs := ["@tg http-method GET", "@tg http-path /users/:user"]
  args := []
  results := [⟨"user", .plain "string", [], false⟩, ⟨"err", .plain "error", [], false⟩]

/-- Without a directive for headers or cookies a result is bound in the path and has left the
body. -/
theorem findUser_leaves_body : ∃ m t,
    Endpoint.build noFiles "Users" [] "m/service" findUser .empty = (.ok m, t) ∧
      m.requestFields = [] ∧ m.wireSpecs = [] ∧ (∃ b ∈ m.resultBindings, b.location = .path) ∧
      (∃ f ∈ m.responseFields, f.name = "user") ∧ m.responseBodyFields = [] := by
  obtain ⟨m, t, hr, hb⟩ := ok_of_map
    (a := Endpoint.build noFiles "Users" [] "m/service" findUser) (t := .empty)
    (f := fun m ↦ (m.requestFields.isEmpty, m.wireSpecs.isEmpty,
      m.resultBindings.any (·.location == .path), m.responseFields.any (·.name == "user"),
      m.responseBodyFields.isEmpty))
    (y := (true, true, true, true, true)) (by decide +kernel)
  simp only [Prod.mk.injEq, List.isEmpty_iff, List.any_eq_true, beq_iff_eq] at hb
  exact ⟨m, t, hr, hb⟩

end

end GoOpenApi
