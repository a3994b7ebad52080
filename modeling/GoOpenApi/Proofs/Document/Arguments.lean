import GoOpenApi.Proofs.Document.Operation

/-!
Where the arguments of a method are in its operation. They leave the body when they are bound as a
whole or uploaded, and come back as parameters or in a form; but only a method over HTTP has a form.
-/

namespace GoOpenApi

open GoOpenApi.Generator (containerKey)

/-- A parameter is that of a binding. -/
def Parameter.IsOf (b : Binding) (q : Parameter) : Prop :=
  q.name = b.key ∧ q.location = b.location.label

namespace Generator

variable {p : Project} {s : Service} {m : Endpoint} {o : Operation} {g g' : Generator}

/-- What is true of each binding and its parameter is true of them in their order. -/
theorem parameters_forall {R : Binding → Parameter → Prop} {bs : List Binding} {qs : List Parameter}
    (hr : ∀ b schema, R b ⟨b.key, b.location.label, b.location = .path || !b.type.isPointer, schema,
      none⟩) (h : parameters p bs g = (.ok qs, g')) : List.Forall₂ R bs qs := by
  induction bs generalizing g qs with
  | nil =>
    cases h
    exact .nil
  | cons b bs ih =>
    obtain ⟨q, g₁, hq, h⟩ := Action.bind_ok h
    obtain ⟨qs', g₂, hqs, h⟩ := Action.bind_ok h
    cases h
    obtain ⟨schema, g₃, -, hq⟩ := Action.bind_ok hq
    cases hq
    exact .cons (hr b schema) (ih hqs)

theorem operation_parameters (h : operation p s m g = (.ok o, g')) :
    parameters p m.bindings g = (.ok (o.parameters.getD []), g') := by
  obtain ⟨qs, g₁, hqs, h⟩ := Action.bind_ok h
  cases h
  rw [hqs]
  cases qs <;> rfl

theorem propertiesOnto_keys {package : String} {d d' : Dict Schema} {fields : List Field}
    (h : propertiesOnto p package d fields g = (.ok d', g')) (key : String) :
    key ∈ Dict.keys d' ↔ key ∈ Dict.keys d ∨ key ∈ Field.jsonNames fields := by
  induction fields generalizing d g with
  | nil =>
    cases h
    simp [Field.jsonNames]
  | cons f fields ih =>
    unfold propertiesOnto at h
    cases hn : f.jsonName with
    | none =>
      simp only [hn] at h
      rw [ih h]
      simp [Field.jsonNames, hn]
    | some name =>
      simp only [hn] at h
      obtain ⟨schema, g₁, -, h⟩ := Action.bind_ok h
      rw [ih h, Dict.mem_keys_insert]
      simp only [Field.jsonNames, List.filterMap_cons, hn, List.mem_cons]
      tauto

theorem form_ok {package : String} {content : Dict MediaType}
    (h : form p package m g = (.ok content, g')) :
    ∃ schema, content = [(formType, ⟨schema⟩)] ∧
      ∀ key, key ∈ Dict.keys (schema.properties.getD []) ↔
        key ∈ m.uploads.map (·.2) ∨ key ∈ Field.jsonNames m.bodyFields := by
  obtain ⟨properties, g₁, hp, h⟩ := Action.bind_ok h
  cases h
  refine ⟨_, rfl, fun key ↦ (propertiesOnto_keys hp key).trans ?_⟩
  rw [Dict.mem_keys_ofList, List.map_map]
  rfl

theorem operationOf_forall {R : Binding → Parameter → Prop}
    (hr : ∀ b schema, R b ⟨b.key, b.location.label, b.location = .path || !b.type.isPointer, schema,
      none⟩) (h : operationOf p s m g = (.ok o, g')) :
    List.Forall₂ R m.bindings (o.parameters.getD []) := by
  obtain ⟨base, g₁, hb, ho⟩ := operationOf_base h
  rw [ho]
  exact (parameters_forall hr (operation_parameters hb) :)

theorem operationOf_parameters (h : operationOf p s m g = (.ok o, g')) :
    List.Forall₂ Parameter.IsOf m.bindings (o.parameters.getD []) :=
  operationOf_forall (fun _ _ ↦ ⟨rfl, rfl⟩) h

theorem httpOperation_form (hu : ¬m.uploads.isEmpty)
    (h : httpOperation p s m g = (.ok o, g')) :
    ∃ schema, o.requestBody = some ⟨none, true, [(formType, ⟨schema⟩)]⟩ ∧
      ∀ key, key ∈ Dict.keys (schema.properties.getD []) ↔
        key ∈ m.uploads.map (·.2) ∨ key ∈ Field.jsonNames m.bodyFields := by
  rw [httpOperation_eq] at h
  obtain ⟨request, g₁, hq, h⟩ := Action.bind_ok h
  obtain ⟨success, g₂, -, h⟩ := Action.bind_ok h
  obtain ⟨responses, g₃, -, h⟩ := Action.bind_ok h
  obtain ⟨base, g₄, -, h⟩ := Action.bind_ok h
  cases h
  rw [requestContent, if_neg hu] at hq
  obtain ⟨content, g₅, hf, hq⟩ := Action.bind_ok hq
  cases hq
  obtain ⟨schema, rfl, hk⟩ := form_ok hf
  exact ⟨schema, rfl, hk⟩

end Generator

/-- A place in an operation that can stand for an argument. -/
inductive Place where
  | parameter (i : Nat)
  | formField (key : String)
  | property (key : String)

namespace Place

/-- The place is meant for the argument: a binding of the whole of it, the form field that it is
uploaded in, or a name that is its own. -/
def IsFor (m : Endpoint) (f : Field) : Place → Prop
  | parameter i => ∃ b, m.bindings[i]? = some b ∧ b.arg = f.name ∧ b.path = []
  | formField key => (f.name, key) ∈ m.uploads ∨ f.name ∉ m.uploads.map (·.1) ∧ key = f.name
  | property key => key = f.name

/-- The operation has the place. Properties are those of the container that its body refers to. -/
def IsIn (r : Registry) (s : Service) (m : Endpoint) (o : Operation) : Place → Prop
  | parameter i => ∃ b q, m.bindings[i]? = some b ∧ (o.parameters.getD [])[i]? = some q ∧ q.IsOf b
  | formField key => ∃ schema, o.requestBody = some ⟨none, true, [(formType, ⟨schema⟩)]⟩ ∧
      key ∈ Dict.keys (schema.properties.getD [])
  | property key => ∃ id schema, r.idOf? (containerKey s.package m.requestName) = some id ∧
      Dict.find? id r.schemas = some schema ∧ key ∈ Dict.keys (schema.properties.getD []) ∧
      o.requestBody = some ⟨none, true, jsonContent (if m.isHttp then .referenceTo id
        else envelope "params" (some (.referenceTo id)))⟩

end Place

/-- An operation has a place for an argument. -/
def Represents (r : Registry) (s : Service) (m : Endpoint) (o : Operation) (f : Field) : Prop :=
  ∃ place : Place, place.IsFor m f ∧ place.IsIn r s m o

namespace Endpoint

/-- The names of the arguments and of the form fields tell them apart. -/
structure NamesApart (m : Endpoint) : Prop where
  names : (m.requestFields.map (·.name)).Nodup
  forms : (m.uploads.map (·.2)).Nodup
  /-- No form field has the name of another argument. -/
  apart : ∀ u ∈ m.uploads, ∀ f ∈ m.requestFields, f.name = u.2 → f.name = u.1

variable {m : Endpoint} {f f' : Field} {service : String}

theorem IsOf.mem_bodyNames (hm : m.IsOf service) {name : String} :
    name ∈ Field.jsonNames m.bodyFields ↔ ∃ f ∈ m.bodyFields, f.name = name :=
  Field.mem_jsonNames fun f hf ↦ hm.requestFields f (List.mem_filter.mp hf).1

theorem mem_bodyFields : f ∈ m.bodyFields ↔
    f ∈ m.requestFields ∧ f.name ∉ m.uploads.map (·.1) ∧ carries m.bindings f = false := by
  simp [bodyFields]

/-- Arguments of different names have no place in common. -/
theorem NamesApart.eq_of_place (hn : m.NamesApart) (hf : f ∈ m.requestFields)
    (hf' : f' ∈ m.requestFields) {place : Place} (h : place.IsFor m f) (h' : place.IsFor m f') :
    f = f' := by
  refine List.inj_on_of_nodup_map hn.names hf hf' ?_
  cases place with
  | parameter i =>
    obtain ⟨b, hb, ha, -⟩ := h
    obtain ⟨b', hb', ha', -⟩ := h'
    cases hb.symm.trans hb'
    exact ha.symm.trans ha'
  | formField key =>
    rcases h with h | ⟨h, rfl⟩ <;> rcases h' with h' | ⟨h', hk⟩
    · exact congrArg Prod.fst (List.inj_on_of_nodup_map hn.forms h h' rfl)
    · have he : f'.name = f.name := hn.apart _ h f' hf' hk.symm
      exact absurd (List.mem_map_of_mem h) (he ▸ h')
    · have he : f.name = f'.name := hn.apart _ h' f hf rfl
      exact absurd (List.mem_map_of_mem h') (he ▸ h)
    · exact hk
  | property key => exact h.symm.trans h'

end Endpoint

namespace Generator

variable {p : Project} {s : Service} {m : Endpoint} {o : Operation} {f : Field}
  {g g' : Generator}

theorem represents_of_carries (h : operationOf p s m g = (.ok o, g'))
    (hc : Endpoint.carries m.bindings f) : Represents g'.registry s m o f := by
  obtain ⟨b, hb, hn, hp⟩ := Endpoint.carries_iff.mp hc
  obtain ⟨i, hi, rfl⟩ := List.mem_iff_getElem.mp hb
  have hq := operationOf_parameters h
  have hi' : i < (o.parameters.getD []).length := hq.length_eq ▸ hi
  refine ⟨.parameter i, ⟨_, List.getElem?_eq_getElem hi, hn, hp⟩, ?_⟩
  exact ⟨_, _, List.getElem?_eq_getElem hi, List.getElem?_eq_getElem hi', hq.get hi hi'⟩

theorem represents_of_container (hm : m.IsOf s.name) (hr : g.registry.Coherent)
    (h : operationOf p s m g = (.ok o, g')) (hu : m.isHttp → m.uploads.isEmpty)
    (hf : f ∈ m.bodyFields) : Represents g'.registry s m o f := by
  have hk : f.name ∈ Field.jsonNames m.bodyFields := hm.mem_bodyNames.mpr ⟨f, hf, rfl⟩
  have hn : Field.jsonNames m.bodyFields ≠ [] := List.ne_nil_of_mem hk
  have hc := operationOf_carries hm hr h
  unfold Carries at hc
  refine ⟨.property f.name, rfl, ?_⟩
  split at hc
  · rename_i hh
    obtain ⟨s?, ⟨id, schema, hid, hs, hkeys, rfl⟩, ho⟩ := hc.request (hu hh)
    rw [if_neg hn] at ho
    exact ⟨id, schema, hid, hs, (hkeys _).mpr hk, by rw [ho, if_pos hh]; rfl⟩
  · rename_i hh
    obtain ⟨s?, ⟨id, schema, hid, hs, hkeys, rfl⟩, ho⟩ := hc.request
    rw [if_neg hn] at ho
    exact ⟨id, schema, hid, hs, (hkeys _).mpr hk, by rw [ho, if_neg hh]⟩

theorem represents_of_form (hm : m.IsOf s.name) (h : operationOf p s m g = (.ok o, g'))
    (hh : m.isHttp) (hu : ¬m.uploads.isEmpty)
    (hf : f.name ∈ m.uploads.map (·.1) ∨ f ∈ m.bodyFields) : Represents g'.registry s m o f := by
  rw [operationOf, if_pos hh] at h
  obtain ⟨schema, ho, hk⟩ := httpOperation_form hu h
  rcases hf with hf | hf
  · obtain ⟨⟨name, key⟩, hmem, hn⟩ := List.mem_map.mp hf
    obtain rfl : name = f.name := hn
    exact ⟨.formField key, .inl hmem, schema, ho, (hk key).mpr (.inl (List.mem_map_of_mem hmem))⟩
  · refine ⟨.formField f.name, .inr ⟨(Endpoint.mem_bodyFields.mp hf).2.1, rfl⟩, schema, ho, ?_⟩
    exact (hk _).mpr (.inr (hm.mem_bodyNames.mpr ⟨f, hf, rfl⟩))

/-- An argument that is uploaded by a call in an envelope has no place but a parameter. -/
theorem not_represents (hm : m.IsOf s.name) (hr : g.registry.Coherent)
    (h : operationOf p s m g = (.ok o, g')) (hh : ¬m.isHttp) (hu : f.name ∈ m.uploads.map (·.1))
    (hc : ¬Endpoint.carries m.bindings f) : ¬Represents g'.registry s m o f := by
  have hcarries := operationOf_carries hm hr h
  rw [Carries, if_neg hh] at hcarries
  obtain ⟨s?, ⟨id, schema, hid, hs, hkeys, -⟩, ho⟩ := hcarries.request
  rintro ⟨place, hfor, hin⟩
  cases place with
  | parameter i =>
    obtain ⟨b, hb, hn, hp⟩ := hfor
    exact hc (Endpoint.carries_iff.mpr ⟨b, List.mem_of_getElem? hb, hn, hp⟩)
  | formField key =>
    obtain ⟨form, hform, -⟩ := hin
    have hct : jsonType = formType := by
      have hb := Option.some.inj (ho.symm.trans hform)
      exact congrArg Prod.fst (List.cons.inj (RequestBody.mk.inj hb).2.2).1
    exact absurd hct (by decide)
  | property key =>
    obtain rfl : key = f.name := hfor
    obtain ⟨id', schema', hid', hs', hkey, -⟩ := hin
    cases hid.symm.trans hid'
    cases hs.symm.trans hs'
    obtain ⟨f', hf', hn⟩ := hm.mem_bodyNames.mp ((hkeys _).mp hkey)
    exact (Endpoint.mem_bodyFields.mp hf').2.1 (hn ▸ hu)

theorem represents_iff (hm : m.IsOf s.name) (hr : g.registry.Coherent)
    (h : operationOf p s m g = (.ok o, g')) (hf : f ∈ m.requestFields) :
    Represents g'.registry s m o f ↔
      (f.name ∈ m.uploads.map (·.1) → m.isHttp ∨ Endpoint.carries m.bindings f) := by
  by_cases hc : Endpoint.carries m.bindings f
  · exact iff_of_true (represents_of_carries h hc) fun _ ↦ .inr hc
  by_cases hu : f.name ∈ m.uploads.map (·.1)
  · have hne : ¬m.uploads.isEmpty := by
      rw [List.isEmpty_iff]
      rintro he
      simp [he] at hu
    by_cases hh : m.isHttp
    · exact iff_of_true (represents_of_form hm h hh hne (.inl hu)) fun _ ↦ .inl hh
    · exact iff_of_false (not_represents hm hr h hh hu hc) fun hi ↦ (hi hu).elim hh hc
  · have hb : f ∈ m.bodyFields := Endpoint.mem_bodyFields.mpr ⟨hf, hu, by simpa using hc⟩
    refine iff_of_true ?_ fun hu' ↦ absurd hu' hu
    by_cases hform : m.isHttp ∧ ¬m.uploads.isEmpty
    · exact represents_of_form hm h hform.1 hform.2 (.inr hb)
    · exact represents_of_container hm hr h
        (fun hh ↦ of_not_not fun he ↦ hform ⟨hh, he⟩) hb

end Generator

section

variable {p : Project} {s : Service} {m : Endpoint} {o : Operation} {g g' : Generator}

/-- Each argument of a method has a place in its operation exactly when it is not uploaded, or the
method is one over HTTP, or a directive binds the whole of it; and no two arguments share one. -/
theorem arguments_represented_iff (hs : s.IsLoaded p) (hm : m ∈ s.methods)
    (hg : g.IsReachable p) (ho : Generator.operationOf p s m g = (.ok o, g'))
    (hn : m.NamesApart) :
    (∀ f ∈ m.requestFields, Represents g'.registry s m o f ↔
      (f.name ∈ m.uploads.map (·.1) → m.isHttp ∨ Endpoint.carries m.bindings f)) ∧
    ∀ f ∈ m.requestFields, ∀ f' ∈ m.requestFields, ∀ place : Place,
      place.IsFor m f → place.IsFor m f' → f = f' :=
  ⟨fun _ hf ↦ Generator.represents_iff (hs.isOf hm) hg.coherent ho hf,
    fun _ hf _ hf' _ h h' ↦ hn.eq_of_place hf hf' h h'⟩

end

/-- A call in an envelope that uploads one of its arguments. -/
def uploadInCall : Project :=
  let source := "package service\n\n// @tg server-jsonrpc\ntype Files interface \x7b\n" ++
    "\t// @tg upload-vars:file|document\n\tPut(file []byte, name string) (err error)\n\x7d\n"
  let files :=
    [(⟨"go.mod"⟩, .file (.text "module m\n")), (⟨"service/service.go"⟩, .file (.text source))]
  .of (.ofNodes ["tmp", "w"] files) (.ofGoMod {} ⟨"/tmp/w"⟩ (.parse "module m\n"))

theorem uploadInCall_made : ∃ s m g o g',
    s.IsLoaded uploadInCall ∧ m ∈ s.methods ∧ g.IsReachable uploadInCall ∧
      Generator.operationOf uploadInCall s m g = (.ok o, g') ∧ m.NamesApart ∧ m.isHttp = false ∧
      (∃ f ∈ m.requestFields, f.name = "file" ∧ f.name ∈ m.uploads.map (·.1) ∧
        ¬Endpoint.carries m.bindings f) ∧
      ∃ f ∈ m.requestFields, f.name = "name" ∧ f.name ∉ m.uploads.map (·.1) := by
  have h : (Generator.firstOperation? uploadInCall ⟨"/tmp/w/service"⟩).map (fun x ↦
      (x.2.1.requestFields.map (·.name), x.2.1.uploads, x.2.1.isHttp,
        x.2.1.requestFields.any fun f ↦ f.name = "file" ∧ f.name ∈ x.2.1.uploads.map (·.1) ∧
          ¬Endpoint.carries x.2.1.bindings f,
        x.2.1.requestFields.any fun f ↦ f.name = "name" ∧ f.name ∉ x.2.1.uploads.map (·.1))) =
      some (["file", "name"], [("file", "document")], false, true, true) := by
    decide +kernel
  obtain ⟨⟨s, m, g, o, g'⟩, hmade, h⟩ := Option.map_eq_some_iff.mp h
  obtain ⟨hs, hm, hg, ho⟩ := Generator.firstOperation?_eq_some hmade
  simp only [Prod.mk.injEq, List.any_eq_true, decide_eq_true_eq] at h
  obtain ⟨hf, hu, hh, hfile, hname⟩ := h
  refine ⟨s, m, g, o, g', hs, hm, hg, ho, ⟨?_, ?_, fun u hm f hf' hn ↦ ?_⟩, hh, hfile, hname⟩
  · rw [hf]
    decide
  · rw [hu]
    decide
  · rw [hu] at hm
    cases List.mem_singleton.mp hm
    have hmem : f.name ∈ ["file", "name"] := hf ▸ List.mem_map_of_mem hf'
    rw [hn] at hmem
    exact absurd hmem (by decide)

theorem uploadInCall_represents_name : ∃ s m g o g',
    s.IsLoaded uploadInCall ∧ m ∈ s.methods ∧ g.IsReachable uploadInCall ∧
      Generator.operationOf uploadInCall s m g = (.ok o, g') ∧ m.NamesApart ∧
      ∃ f ∈ m.requestFields, f.name = "name" ∧ Represents g'.registry s m o f := by
  obtain ⟨s, m, g, o, g', hs, hm, hg, ho, hn, -, -, f, hf, hname, hu⟩ := uploadInCall_made
  refine ⟨s, m, g, o, g', hs, hm, hg, ho, hn, f, hf, hname, ?_⟩
  exact ((arguments_represented_iff hs hm hg ho hn).1 f hf).mpr fun hup ↦ absurd hup hu

theorem uploadInCall_loses_file : ∃ s m g o g',
    s.IsLoaded uploadInCall ∧ m ∈ s.methods ∧ g.IsReachable uploadInCall ∧
      Generator.operationOf uploadInCall s m g = (.ok o, g') ∧ m.NamesApart ∧
      ∃ f ∈ m.requestFields, f.name = "file" ∧ ¬Represents g'.registry s m o f := by
  obtain ⟨s, m, g, o, g', hs, hm, hg, ho, hn, hh, ⟨f, hf, hname, hu, hc⟩, -⟩ := uploadInCall_made
  refine ⟨s, m, g, o, g', hs, hm, hg, ho, hn, f, hf, hname, ?_⟩
  exact Generator.not_represents (hs.isOf hm) hg.coherent ho (by simp [hh]) hu hc

end GoOpenApi
