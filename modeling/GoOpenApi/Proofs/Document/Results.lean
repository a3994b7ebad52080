import GoOpenApi.Proofs.Document.Operation
import GoOpenApi.Proofs.Text.Case
import Mathlib.Data.List.Find

/-!
Where the results of a method are in the response for its success. They leave the body when they
are bound as a whole and come back as headers; but all cookies have one header, which keeps only
the last of them.
-/

namespace GoOpenApi

open GoOpenApi.Generator (containerKey)

/-- The name of the header that a binding of a result writes. -/
def Binding.headerName (b : Binding) : String :=
  if b.location = .cookie then "Set-Cookie" else b.key

/-- A header is that of a binding. Only cookies are described. -/
def Header.IsOf (b : Binding) (h : Header) : Prop :=
  h.description = if b.location = .cookie then some b.key else none

/-- The binding that writes a header last. -/
def lastWriter (bs : List Binding) (name : String) : Option Binding :=
  bs.reverse.find? fun b ↦ b.headerName = name

/-- Each header of the response is the one that the last binding with its name has written. -/
def Response.HeadersOf (bs : List Binding) (r : Response) : Prop :=
  ∀ name, Option.Rel Header.IsOf (lastWriter bs name) (Dict.find? name (r.headers.getD []))

theorem lastWriter_cons (b : Binding) (bs : List Binding) (name : String) :
    lastWriter (b :: bs) name =
      (lastWriter bs name).or (if b.headerName = name then some b else none) := by
  rw [lastWriter, List.reverse_cons, List.find?_append]
  by_cases h : b.headerName = name <;> simp [h, lastWriter]

namespace Generator

variable {p : Project} {s : Service} {m : Endpoint} {o : Operation} {r : Response}
  {g g' : Generator}

theorem headerOf_eq (b : Binding) (u : Schema) :
    ∃ h, headerOf b u = (b.headerName, h) ∧ h.IsOf b := by
  unfold headerOf Binding.headerName Header.IsOf
  cases b.location <;> exact ⟨_, rfl, rfl⟩

theorem headersOnto_find? {package : String} {d d' : Dict Header} {bs : List Binding}
    (h : headersOnto p package d bs g = (.ok d', g')) (name : String) :
    ∃ h?, Option.Rel Header.IsOf (lastWriter bs name) h? ∧
      Dict.find? name d' = h?.or (Dict.find? name d) := by
  induction bs generalizing d g with
  | nil =>
    cases h
    exact ⟨none, .none, rfl⟩
  | cons b bs ih =>
    obtain ⟨u, g₁, -, h⟩ := Action.bind_ok h
    obtain ⟨header, he, hb⟩ := headerOf_eq b u
    rw [he] at h
    obtain ⟨h?, hrel, hfind⟩ := ih h
    rw [hfind, lastWriter_cons, Dict.find?_insert]
    generalize lastWriter bs name = w at hrel
    cases hrel with
    | some hw => exact ⟨_, .some hw, rfl⟩
    | none =>
      by_cases hn : b.headerName = name
      · refine ⟨some header, ?_, ?_⟩
        · rw [if_pos hn]
          exact .some hb
        · rw [if_pos hn.symm]
          rfl
      · refine ⟨none, ?_, ?_⟩
        · rw [if_neg hn]
          exact .none
        · rw [if_neg (Ne.symm hn)]

theorem headers_find? {package : String} {headers? : Option (Dict Header)} {bs : List Binding}
    (h : headers p package bs g = (.ok headers?, g')) (name : String) :
    Option.Rel Header.IsOf (lastWriter bs name) (Dict.find? name (headers?.getD [])) := by
  obtain ⟨d, g₁, hd, h⟩ := Action.bind_ok h
  obtain ⟨h?, hrel, hfind⟩ := headersOnto_find? hd name
  have hd : headers?.getD [] = d := by
    cases d with
    | nil =>
      cases h
      rfl
    | cons e d =>
      cases h
      rfl
  rw [hd, hfind]
  simpa using hrel

/-- Making the operation of a method builds a response for its success. Over HTTP directives may
replace it afterwards. -/
inductive Builds (p : Project) (s : Service) (m : Endpoint) (g : Generator) :
    Response → Operation → Generator → Prop where
  | http {r : Response} {request : Option (Dict MediaType)} {responses : Dict Response}
    {base : Operation} {g₁ g₂ g₃ g' : Generator} : m.isHttp →
    requestContent p s m g = (.ok request, g₁) → httpSuccess p s m g₁ = (.ok r, g₂) →
    withErrors p m [(toString m.successCode, r)] g₂ = (.ok responses, g₃) →
    operation p s m g₃ = (.ok base, g') →
    Builds p s m g r
      { base with requestBody := request.map fun content ↦ ⟨none, true, content⟩, responses } g'
  | rpc {r : Response} {o : Operation} {g' : Generator} : ¬m.isHttp →
    rpcOperation p s m g = (.ok o, g') → o.responses = [("200", r)] → Builds p s m g r o g'

theorem rpcOperation_headers (h : rpcOperation p s m g = (.ok o, g')) :
    ∃ r, o.responses = [("200", r)] ∧ r.HeadersOf m.resultBindings := by
  obtain ⟨params, g₁, -, h⟩ := Action.bind_ok h
  obtain ⟨result, g₂, -, h⟩ := Action.bind_ok h
  obtain ⟨params?, g₃, -, h⟩ := Action.bind_ok h
  obtain ⟨result?, g₄, -, h⟩ := Action.bind_ok h
  obtain ⟨headers, g₅, hh, h⟩ := Action.bind_ok h
  obtain ⟨base, g₆, -, h⟩ := Action.bind_ok h
  cases h
  exact ⟨_, rfl, headers_find? hh⟩

theorem httpSuccess_headers (h : httpSuccess p s m g = (.ok r, g')) :
    r.HeadersOf m.resultBindings := by
  obtain ⟨response, g₁, -, h⟩ := Action.bind_ok h
  obtain ⟨headers, g₂, hh, h⟩ := Action.bind_ok h
  obtain ⟨content, g₃, -, h⟩ := Action.bind_ok h
  cases h
  exact headers_find? hh

theorem builds_iff : operationOf p s m g = (.ok o, g') ↔ ∃ r, Builds p s m g r o g' := by
  constructor
  · intro h
    unfold operationOf at h
    split at h
    · rename_i hh
      rw [httpOperation_eq] at h
      obtain ⟨request, g₁, hq, h⟩ := Action.bind_ok h
      obtain ⟨r, g₂, hr, h⟩ := Action.bind_ok h
      obtain ⟨responses, g₃, he, h⟩ := Action.bind_ok h
      obtain ⟨base, g₄, ho, h⟩ := Action.bind_ok h
      cases h
      exact ⟨r, .http hh hq hr he ho⟩
    · rename_i hh
      obtain ⟨r, hr, -⟩ := rpcOperation_headers h
      exact ⟨r, .rpc hh h hr⟩
  · rintro ⟨r, hb⟩
    cases hb with
    | http hh hq hr he ho =>
      rw [operationOf, if_pos hh, httpOperation_eq]
      simp only [Action.run_bind, hq, hr, he, ho]
      rfl
    | rpc hh h _ => rw [operationOf, if_neg hh, h]

theorem Builds.headers (h : Builds p s m g r o g') : r.HeadersOf m.resultBindings := by
  cases h with
  | http _ _ hr _ _ => exact httpSuccess_headers hr
  | rpc _ h hr =>
    obtain ⟨r', hr', hh⟩ := rpcOperation_headers h
    cases hr.symm.trans hr'
    exact hh

theorem Builds.find? (h : Builds p s m g r o g') (hm : m.isHttp → ¬m.ReplacesSuccess) :
    Dict.find? (if m.isHttp then toString m.successCode else "200") o.responses = some r := by
  cases h with
  | http hh _ _ he _ =>
    rw [if_pos hh]
    exact withErrors_find? he (hm hh)
  | rpc hh _ hr =>
    rw [if_neg hh, hr]
    rfl

/-- The content of a response in which a schema stands for the results. -/
def successContent (m : Endpoint) (s? : Option Schema) : Option (Dict MediaType) :=
  if m.isHttp then s?.map jsonContent
  else some (jsonContent { oneOf := some [envelope "result" s?, errorEnvelope] })

theorem Builds.content (hm : m.IsOf s.name) (hr : g.registry.Coherent)
    (h : Builds p s m g r o g') : ∃ s?,
      Shows g'.registry.idOf? g'.registry.schemas (containerKey s.package m.responseName)
        (Field.jsonNames m.responseBodyFields) s? ∧ r.content = successContent m s? := by
  unfold successContent
  cases h with
  | http hh hq hsuccess he ho =>
    obtain ⟨hg₁, -⟩ := requestContent_ok hm hr hq
    obtain ⟨hg₂, s?, hs, hcontent⟩ := httpSuccess_ok hm hg₁.coherent hsuccess
    have hg₃ := calm_withErrors _ _ _ _ _ he hg₂.coherent
    have hg₄ := calm_operation _ _ _ _ _ ho hg₃.coherent
    refine ⟨s?, hs.grows (hg₃.trans hg₄) (Set.notMem_empty _), ?_⟩
    rw [if_pos hh, hcontent]
  | rpc hh h hresponses =>
    obtain ⟨s?, text, headers, hs, ho⟩ := (rpcOperation_ok hm hr h).2.1.response
    cases hresponses.symm.trans ho
    exact ⟨s?, hs, by rw [if_neg hh]⟩

end Generator

/-- A result has a property under its own name in the container that the response refers to, or
a header that carries the key of a binding of the whole of it, a cookie in its description. -/
inductive Documents (registry : Registry) (s : Service) (m : Endpoint) (r : Response) (f : Field) :
    Prop where
  | property {id : String} {schema : Schema} :
    registry.idOf? (containerKey s.package m.responseName) = some id →
    Dict.find? id registry.schemas = some schema →
    f.name ∈ Dict.keys (schema.properties.getD []) →
    r.content = Generator.successContent m (some (.referenceTo id)) →
    Documents registry s m r f
  | header {b : Binding} {h : Header} : b ∈ m.resultBindings → b.arg = f.name → b.path = [] →
    Dict.find? b.headerName (r.headers.getD []) = some h →
    (b.location = .cookie → h.description = some b.key) → Documents registry s m r f

section

variable {bs : List Binding} {b w : Binding} {name : String}

theorem mem_of_lastWriter (h : lastWriter bs name = some w) : w ∈ bs ∧ w.headerName = name :=
  ⟨List.mem_reverse.mp (List.mem_of_find?_eq_some h), by simpa using List.find?_some h⟩

theorem exists_lastWriter (hb : b ∈ bs) : ∃ w, lastWriter bs b.headerName = some w := by
  rw [← Option.isSome_iff_exists, lastWriter, List.find?_isSome]
  exact ⟨b, List.mem_reverse.mpr hb, by simp⟩

end

theorem Field.mem_of_find? {fields : List Field} {name : String} {f : Field}
    (h : Field.find? fields name = some f) :
    f ∈ fields ∧ f.name.toList.map Char.toLower = name.toList.map Char.toLower := by
  unfold Field.find? at h
  split at h
  · cases h
    rename_i h
    have hn : f.name = name := by simpa using List.find?_some h
    exact ⟨List.mem_of_find?_eq_some h, by rw [hn]⟩
  · have hn := List.find?_some h
    exact ⟨List.mem_of_find?_eq_some h, by simpa [Text.equalIgnoringAsciiCase] using hn⟩

namespace Endpoint

variable {m : Endpoint} {f : Field} {b b' : Binding} {spec spec' : BindingSpec} {service : String}

/-- What directives say to travel in headers and cookies. -/
def wireSpecs (m : Endpoint) : List BindingSpec :=
  (m.directives.values "http-headers").map (bindingSpec .header) ++
    (m.directives.values "http-cookies").map (bindingSpec .cookie)

/-- The keys of headers and cookies tell them apart, also from the header of all cookies. -/
structure WireKeysApart (m : Endpoint) : Prop where
  keys : (m.wireSpecs.map (·.key)).Nodup
  cookie : "Set-Cookie" ∉ m.wireSpecs.map (·.key)

/-- The bindings of results that headers show: of the cookies only the last. -/
def shownBindings (m : Endpoint) : List Binding :=
  m.resultBindings.filter (·.location ≠ .cookie) ++
    (m.resultBindings.reverse.find? (·.location = .cookie)).toList

/-- The header that a binding of a result writes is written last for the same result. -/
def KeepsHeaders (m : Endpoint) : Prop :=
  ∀ b ∈ m.resultBindings, ∀ w, lastWriter m.resultBindings b.headerName = some w → w.arg = b.arg

/-- All cookies are of one result, and so are a header and a parameter of the path of one name. -/
structure HeadersApart (m : Endpoint) : Prop where
  cookies : ∀ b ∈ m.resultBindings, ∀ b' ∈ m.resultBindings,
    b.location = .cookie → b'.location = .cookie → b.arg = b'.arg
  paths : ∀ b ∈ m.resultBindings, ∀ b' ∈ m.resultBindings,
    b.location = .path → b'.location = .header → b.key = b'.key → b.arg = b'.arg

theorem location_bindingSpec (location : Location) (entry : String) :
    (bindingSpec location entry).location = location := by
  unfold bindingSpec
  split <;> rfl

theorem location_of_wireSpecs (h : spec ∈ m.wireSpecs) :
    spec.location = .header ∨ spec.location = .cookie := by
  rcases List.mem_append.mp h with h | h <;> obtain ⟨entry, -, rfl⟩ := List.mem_map.mp h <;>
    simp [location_bindingSpec]

theorem mem_bindingSpecs (h : spec ∈ m.bindingSpecs) :
    spec.location = .path ∧ spec.target = spec.key ∨
      spec ∈ m.wireSpecs ∧ spec.location ≠ .path := by
  rw [bindingSpecs, List.append_assoc] at h
  rcases List.mem_append.mp h with h | h
  · split at h
    · obtain ⟨name, -, rfl⟩ := List.mem_map.mp h
      exact .inl ⟨rfl, rfl⟩
    · cases h
  · refine .inr ⟨h, ?_⟩
    rcases location_of_wireSpecs h with hl | hl <;> simp [hl]

theorem BindsResult.eq_of_target (h : m.BindsResult spec b) (h' : m.BindsResult spec' b')
    (ht : spec.target = spec'.target) : b.arg = b'.arg ∧ b.path = b'.path := by
  obtain ⟨f, hf, ha⟩ := h.arg
  obtain ⟨f', hf', ha'⟩ := h'.arg
  rw [← ht] at hf'
  cases hf.symm.trans hf'
  exact ⟨ha.trans ha'.symm, by rw [h.path, h'.path, ht]⟩

-- A name with a hyphen is no identifier, in whatever case its letters are.
theorem IsOf.ne_setCookie (hm : m.IsOf service) (h : m.BindsResult spec b)
    (ht : spec.target = spec.key) : b.key ≠ "Set-Cookie" := by
  intro hk
  have hs : Text.split '.' spec.target = ["Set-Cookie"] := by
    rw [ht, ← h.key, hk]
    decide
  obtain ⟨f, hf, -⟩ := h.arg
  rw [hs] at hf
  unfold target? at hf
  split at hf
  · cases hf
  · obtain ⟨f', hf', he⟩ := Option.map_eq_some_iff.mp hf
    cases he
    obtain ⟨hmem, hn⟩ := Field.mem_of_find? hf'
    have hhyphen : '-' ∈ f.name.toList.map Char.toLower := by
      rw [hn]
      decide
    obtain ⟨c, hc, he⟩ := List.mem_map.mp hhyphen
    cases Text.eq_of_toLower_eq (by decide) he
    exact (hm.responseFields f hmem).name.not_mem (by decide) hc

section

variable (hm : m.IsOf service) (hw : m.WireKeysApart) (hb : b ∈ m.resultBindings)

include hm hw hb

theorem WireKeysApart.headerName_iff : b.headerName = "Set-Cookie" ↔ b.location = .cookie := by
  unfold Binding.headerName
  by_cases hc : b.location = .cookie
  · simp [hc]
  · rw [if_neg hc]
    refine iff_of_false (fun hk ↦ ?_) hc
    obtain ⟨spec, hs, hspec⟩ := hm.resultBindings b hb
    rcases mem_bindingSpecs hs with ⟨-, ht⟩ | ⟨hwire, -⟩
    · exact hm.ne_setCookie hspec ht hk
    · exact hw.cookie (List.mem_map.mpr ⟨spec, hwire, by rw [← hspec.key, hk]⟩)

/-- Bindings of one key, both of the path or both not, are of one place in one result. -/
theorem WireKeysApart.eq_of_key (hb' : b' ∈ m.resultBindings) (hk : b.key = b'.key)
    (hl : b.location = .path ↔ b'.location = .path) : b.arg = b'.arg ∧ b.path = b'.path := by
  obtain ⟨spec, hs, hspec⟩ := hm.resultBindings b hb
  obtain ⟨spec', hs', hspec'⟩ := hm.resultBindings b' hb'
  have hkey : spec.key = spec'.key := by rw [← hspec.key, ← hspec'.key, hk]
  rw [hspec.location, hspec'.location] at hl
  refine hspec.eq_of_target hspec' ?_
  rcases mem_bindingSpecs hs with ⟨hp, ht⟩ | ⟨hwire, hp⟩ <;>
    rcases mem_bindingSpecs hs' with ⟨hp', ht'⟩ | ⟨hwire', hp'⟩
  · rw [ht, ht', hkey]
  · exact absurd (hl.mp hp) hp'
  · exact absurd (hl.mpr hp') hp
  · rw [List.inj_on_of_nodup_map hw.keys hwire hwire' hkey]

end

theorem WireKeysApart.lastWriter_eq (hm : m.IsOf service) (hw : m.WireKeysApart) :
    lastWriter m.resultBindings "Set-Cookie" =
      m.resultBindings.reverse.find? (·.location = .cookie) :=
  List.find?_congr fun b hb ↦ by
    simp [hw.headerName_iff hm (List.mem_reverse.mp hb)]

theorem keepsHeaders_iff : m.KeepsHeaders ↔ ∀ b ∈ m.resultBindings, ∀ b' ∈ m.resultBindings,
    b.headerName = b'.headerName → b.arg = b'.arg := by
  constructor
  · intro h b hb b' hb' hn
    obtain ⟨w, hw⟩ := exists_lastWriter hb
    rw [← h b hb w hw, h b' hb' w (hn ▸ hw)]
  · intro h b hb w hw
    obtain ⟨hmem, hn⟩ := mem_of_lastWriter hw
    exact h w hmem b hb hn

theorem WireKeysApart.keepsHeaders_iff (hm : m.IsOf service) (hw : m.WireKeysApart) :
    m.KeepsHeaders ↔ m.HeadersApart := by
  rw [Endpoint.keepsHeaders_iff]
  constructor
  · intro h
    refine ⟨fun b hb b' hb' hc hc' ↦ h b hb b' hb' ?_, fun b hb b' hb' hp hh hk ↦ h b hb b' hb' ?_⟩
    · simp [Binding.headerName, hc, hc']
    · simp [Binding.headerName, hp, hh, hk]
  · intro h b hb b' hb' hn
    by_cases hc : b.location = .cookie
    · have hc' := (hw.headerName_iff hm hb').mp (hn ▸ (hw.headerName_iff hm hb).mpr hc)
      exact h.cookies b hb b' hb' hc hc'
    · have hc' : b'.location ≠ .cookie := fun hc' ↦
        hc ((hw.headerName_iff hm hb).mp (hn.trans ((hw.headerName_iff hm hb').mpr hc')))
      have hk : b.key = b'.key := by simpa [Binding.headerName, hc, hc'] using hn
      cases hl : b.location with
      | cookie => exact absurd hl hc
      | path =>
        cases hl' : b'.location with
        | cookie => exact absurd hl' hc'
        | path => exact (hw.eq_of_key hm hb hb' hk (by simp [hl, hl'])).1
        | header => exact h.paths b hb b' hb' hl hl' hk
      | header =>
        cases hl' : b'.location with
        | cookie => exact absurd hl' hc'
        | path => exact (h.paths b' hb' b hb hl' hl hk.symm).symm
        | header => exact (hw.eq_of_key hm hb hb' hk (by simp [hl, hl'])).1

theorem mem_responseBodyFields : f ∈ m.responseBodyFields ↔
    f ∈ m.responseFields ∧ carries m.resultBindings f = false := by
  simp [responseBodyFields]

end Endpoint

namespace Generator

variable {p : Project} {s : Service} {m : Endpoint} {o : Operation} {r : Response} {f : Field}
  {g g' : Generator}

theorem Builds.exists_header (h : Builds p s m g r o g') {b : Binding}
    (hb : b ∈ m.resultBindings) :
    ∃ w header, lastWriter m.resultBindings b.headerName = some w ∧
      Dict.find? b.headerName (r.headers.getD []) = some header ∧ header.IsOf w := by
  obtain ⟨w, hw⟩ := exists_lastWriter hb
  have hrel := h.headers b.headerName
  rw [hw] at hrel
  generalize hfind : Dict.find? b.headerName (r.headers.getD []) = found at hrel
  cases hrel with
  | some hh => exact ⟨w, _, hw, rfl, hh⟩

theorem Builds.documents_of_shown (h : Builds p s m g r o g') (hm : m.IsOf s.name)
    (hw : m.WireKeysApart) (hc : Endpoint.carries m.shownBindings f) :
    Documents g'.registry s m r f := by
  obtain ⟨b, hb, ha, hp⟩ := Endpoint.carries_iff.mp hc
  rcases List.mem_append.mp hb with hb | hb
  · obtain ⟨hb, hl⟩ := List.mem_filter.mp hb
    obtain ⟨w, header, -, hfind, -⟩ := h.exists_header hb
    exact .header hb ha hp hfind fun hcookie ↦ absurd hcookie (of_decide_eq_true hl)
  · have hlast := Option.mem_toList.mp hb
    have hb : b ∈ m.resultBindings := List.mem_reverse.mp (List.mem_of_find?_eq_some hlast)
    have hl : b.location = .cookie := by simpa using List.find?_some hlast
    have hn := (hw.headerName_iff hm hb).mpr hl
    obtain ⟨w, header, hwriter, hfind, hof⟩ := h.exists_header hb
    rw [hn, hw.lastWriter_eq hm] at hwriter
    cases hwriter.symm.trans hlast
    exact .header hb ha hp hfind fun _ ↦ hof.trans (if_pos hl)

theorem Builds.documents_of_body (h : Builds p s m g r o g') (hm : m.IsOf s.name)
    (hr : g.registry.Coherent) (hf : f ∈ m.responseBodyFields) : Documents g'.registry s m r f := by
  have hk : f.name ∈ Field.jsonNames m.responseBodyFields :=
    (Field.mem_jsonNames fun f hf ↦ hm.responseFields f (List.mem_filter.mp hf).1).mpr ⟨f, hf, rfl⟩
  obtain ⟨s?, ⟨id, schema, hid, hs, hkeys, rfl⟩, hcontent⟩ := h.content hm hr
  rw [if_neg (List.ne_nil_of_mem hk)] at hcontent
  exact .property hid hs ((hkeys _).mpr hk) hcontent

theorem Builds.shown_of_documents (h : Builds p s m g r o g') (hm : m.IsOf s.name)
    (hr : g.registry.Coherent) (hw : m.WireKeysApart)
    (hd : Documents g'.registry s m r f) (hc : Endpoint.carries m.resultBindings f) :
    Endpoint.carries m.shownBindings f := by
  cases hd with
  | property hid hs hkey =>
    obtain ⟨s?, ⟨id', schema', hid', hs', hkeys, -⟩, -⟩ := h.content hm hr
    cases hid.symm.trans hid'
    cases hs.symm.trans hs'
    obtain ⟨f', hf', hn⟩ :=
      (Field.mem_jsonNames fun f hf ↦ hm.responseFields f (List.mem_filter.mp hf).1).mp
        ((hkeys _).mp hkey)
    have hc' := (Endpoint.mem_responseBodyFields.mp hf').2
    rw [Endpoint.carries, hn, ← Endpoint.carries, hc] at hc'
    cases hc'
  | @header b header hb ha hp hfind hdesc =>
    by_cases hl : b.location = .cookie
    · -- The last cookie has the key of this one, so it is of the same place in the same result.
      have hn := (hw.headerName_iff hm hb).mpr hl
      obtain ⟨w, header', hwriter, hfind', hof⟩ := h.exists_header hb
      cases hfind.symm.trans hfind'
      have hwl := hof.symm.trans (hdesc hl)
      rw [hn] at hwriter
      obtain ⟨hmem, hwn⟩ := mem_of_lastWriter hwriter
      have hcookie := (hw.headerName_iff hm hmem).mp hwn
      rw [if_pos hcookie] at hwl
      obtain ⟨ha', hp'⟩ :=
        hw.eq_of_key hm hmem hb (Option.some.inj hwl) (by simp [hl, hcookie])
      rw [hw.lastWriter_eq hm] at hwriter
      refine Endpoint.carries_iff.mpr ⟨w, List.mem_append_right _ ?_, ha'.trans ha, hp'.trans hp⟩
      exact Option.mem_toList.mpr hwriter
    · refine Endpoint.carries_iff.mpr ⟨b, List.mem_append_left _ ?_, ha, hp⟩
      exact List.mem_filter.mpr ⟨hb, by simp [hl]⟩

theorem Builds.documents_iff (h : Builds p s m g r o g') (hm : m.IsOf s.name)
    (hr : g.registry.Coherent) (hw : m.WireKeysApart) (hf : f ∈ m.responseFields) :
    Documents g'.registry s m r f ↔
      (Endpoint.carries m.resultBindings f → Endpoint.carries m.shownBindings f) := by
  refine ⟨fun hd ↦ h.shown_of_documents hm hr hw hd, fun hi ↦ ?_⟩
  by_cases hc : Endpoint.carries m.resultBindings f
  · exact h.documents_of_shown hm hw (hi hc)
  · exact h.documents_of_body hm hr
      (Endpoint.mem_responseBodyFields.mpr ⟨hf, Bool.eq_false_iff.mpr hc⟩)

end Generator

/-- Each result of a method is documented in the response for its success exactly when it is not
bound as a whole, or so by something else than a cookie, or by the last cookie. Each header is
that of the last binding with its name, and none is lost to another result exactly when all cookies
are of one result and no parameter of the path has the name of a header of another. -/
theorem results_documented_iff {p : Project} {s : Service} {m : Endpoint} {o : Operation}
    {g g' : Generator} (hs : s.IsLoaded p) (hm : m ∈ s.methods) (hg : g.IsReachable p)
    (ho : Generator.operationOf p s m g = (.ok o, g')) (hw : m.WireKeysApart) :
    ∃ r, Generator.Builds p s m g r o g' ∧
      ((m.isHttp → ¬m.ReplacesSuccess) →
        Dict.find? (if m.isHttp then toString m.successCode else "200") o.responses = some r) ∧
      (∀ f ∈ m.responseFields, Documents g'.registry s m r f ↔
        (Endpoint.carries m.resultBindings f → Endpoint.carries m.shownBindings f)) ∧
      r.HeadersOf m.resultBindings ∧ (m.KeepsHeaders ↔ m.HeadersApart) := by
  obtain ⟨r, hb⟩ := Generator.builds_iff.mp ho
  have hof := hs.isOf hm
  refine ⟨r, hb, hb.find?, fun f hf ↦ ?_, hb.headers, hw.keepsHeaders_iff hof⟩
  exact hb.documents_iff hof hg.coherent hw hf

/-- A method with two results in cookies. -/
def twoCookies : Project :=
  let source := "package service\n\n// @tg server-http\ntype Auth interface \x7b\n" ++
    "\t// @tg http-method:GET\n\t// @tg http-cookies:access|Access,refresh|Refresh\n" ++
    "\tLogin() (access string, refresh string, err error)\n\x7d\n"
  let files :=
    [(⟨"go.mod"⟩, .file (.text "module m\n")), (⟨"service/service.go"⟩, .file (.text source))]
  .of (.ofNodes ["tmp", "w"] files) (.ofGoMod {} ⟨"/tmp/w"⟩ (.parse "module m\n"))

theorem twoCookies_made : ∃ s m g o g',
    s.IsLoaded twoCookies ∧ m ∈ s.methods ∧ g.IsReachable twoCookies ∧
      Generator.operationOf twoCookies s m g = (.ok o, g') ∧ m.WireKeysApart ∧
      (∃ f ∈ m.responseFields, f.name = "access" ∧ Endpoint.carries m.resultBindings f ∧
        ¬Endpoint.carries m.shownBindings f) ∧
      ∃ f ∈ m.responseFields, f.name = "refresh" ∧ Endpoint.carries m.shownBindings f := by
  have h : (Generator.firstOperation? twoCookies ⟨"/tmp/w/service"⟩).map (fun x ↦
      (x.2.1.wireSpecs.map (·.key),
        x.2.1.responseFields.any fun f ↦ f.name = "access" ∧
          Endpoint.carries x.2.1.resultBindings f ∧ ¬Endpoint.carries x.2.1.shownBindings f,
        x.2.1.responseFields.any fun f ↦ f.name = "refresh" ∧
          Endpoint.carries x.2.1.shownBindings f)) =
      some (["Access", "Refresh"], true, true) := by
    decide +kernel
  obtain ⟨⟨s, m, g, o, g'⟩, hmade, h⟩ := Option.map_eq_some_iff.mp h
  obtain ⟨hs, hm, hg, ho⟩ := Generator.firstOperation?_eq_some hmade
  simp only [Prod.mk.injEq, List.any_eq_true, decide_eq_true_eq] at h
  obtain ⟨hk, haccess, hrefresh⟩ := h
  refine ⟨s, m, g, o, g', hs, hm, hg, ho, ⟨?_, ?_⟩, haccess, hrefresh⟩ <;>
    · rw [hk]
      decide

theorem twoCookies_documents_refresh : ∃ s m g o g' r,
    s.IsLoaded twoCookies ∧ m ∈ s.methods ∧ g.IsReachable twoCookies ∧
      Generator.operationOf twoCookies s m g = (.ok o, g') ∧ m.WireKeysApart ∧
      Generator.Builds twoCookies s m g r o g' ∧
      ∃ f ∈ m.responseFields, f.name = "refresh" ∧ Documents g'.registry s m r f := by
  obtain ⟨s, m, g, o, g', hs, hm, hg, ho, hw, -, f, hf, hn, hshown⟩ := twoCookies_made
  obtain ⟨r, hb, -, hd, -⟩ := results_documented_iff hs hm hg ho hw
  exact ⟨s, m, g, o, g', r, hs, hm, hg, ho, hw, hb, f, hf, hn, (hd f hf).mpr fun _ ↦ hshown⟩

theorem twoCookies_loses_access : ∃ s m g o g' r,
    s.IsLoaded twoCookies ∧ m ∈ s.methods ∧ g.IsReachable twoCookies ∧
      Generator.operationOf twoCookies s m g = (.ok o, g') ∧ m.WireKeysApart ∧
      Generator.Builds twoCookies s m g r o g' ∧
      ∃ f ∈ m.responseFields, f.name = "access" ∧ ¬Documents g'.registry s m r f := by
  obtain ⟨s, m, g, o, g', hs, hm, hg, ho, hw, ⟨f, hf, hn, hc, hlost⟩, -⟩ := twoCookies_made
  obtain ⟨r, hb⟩ := Generator.builds_iff.mp ho
  refine ⟨s, m, g, o, g', r, hs, hm, hg, ho, hw, hb, f, hf, hn, fun hd ↦ hlost ?_⟩
  exact hb.shown_of_documents (hs.isOf hm) hg.coherent hw hd hc

end GoOpenApi
