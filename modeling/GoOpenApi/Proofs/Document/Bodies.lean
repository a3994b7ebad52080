import GoOpenApi.Proofs.Document.Success

/-!
Where operations have content. Whether there is any is read off the component that a container has
become; it is the same as whether the method has a field for the container.
-/

namespace GoOpenApi

open GoOpenApi.Generator (Builds containerKey)

/-- A container for the fields is among the components, with properties exactly when there are
fields, and then something is shown for it. -/
def Registry.Decides (r : Registry) (q : QualifiedName) (fields : List Field) (shown : Prop) :
    Prop :=
  ∃ id s, r.idOf? q = some id ∧ Dict.find? id r.schemas = some s ∧
    (s.properties.getD [] ≠ [] ↔ fields ≠ []) ∧ (shown ↔ fields ≠ [])

theorem mem_keys_envelope {key : String} {payload? : Option Schema} (h : key ≠ "jsonrpc")
    (h' : key ≠ "id") :
    key ∈ Dict.keys ((envelope key payload?).properties.getD []) ↔ payload?.isSome := by
  have hp : (envelope key payload?).properties.getD [] =
      Dict.ofList (envelopeProperties ++ (payload?.map (key, ·)).toList) := rfl
  rw [hp, Dict.mem_keys_ofList]
  cases payload? <;> simp [envelopeProperties, h, h']

theorem Shows.decides {r : Registry} {q : QualifiedName} {fields : List Field} {s? : Option Schema}
    {shown : Prop} (h : Shows r.idOf? r.schemas q (Field.jsonNames fields) s?)
    (hf : ∀ f ∈ fields, f.KeepsName) (hs : shown ↔ s?.isSome) : r.Decides q fields shown := by
  obtain ⟨id, s, hid, hfind, hkeys, rfl⟩ := h
  have hnames := Field.jsonNames_eq_nil_iff hf
  refine ⟨id, s, hid, hfind, ?_, hs.trans ?_⟩
  · have hk : s.properties.getD [] = [] ↔ Field.jsonNames fields = [] := by
      rw [← List.map_eq_nil_iff (f := (·.1)), List.eq_nil_iff_forall_not_mem,
        List.eq_nil_iff_forall_not_mem]
      exact forall_congr' fun key ↦ not_congr (hkeys key)
    exact not_congr (hk.trans hnames)
  · split
    · rename_i hn
      exact iff_of_false nofun fun h ↦ h (hnames.mp hn)
    · rename_i hn
      exact iff_of_true rfl (mt hnames.mpr hn)

/-- At any point of a builder's history: over HTTP and without uploads there is a request body
exactly when there is a field for it, and content of the response built for the success exactly
when there is a field for that; a call always has a body and a result, whose envelopes have the
properties `params` and `result` exactly when there are fields. What is left out is what would
refer to a container without properties. -/
theorem bodies_iff {p : Project} {s : Service} {m : Endpoint} {o : Operation} {g g' : Generator}
    (hs : s.IsLoaded p) (hm : m ∈ s.methods) (hg : g.IsReachable p)
    (ho : Generator.operationOf p s m g = (.ok o, g')) :
    ∃ r, Builds p s m g r o g' ∧
      (m.isHttp →
        (m.uploads = [] → g'.registry.Decides (containerKey s.package m.requestName) m.bodyFields
          o.requestBody.isSome) ∧
        g'.registry.Decides (containerKey s.package m.responseName) m.responseBodyFields
          r.content.isSome ∧
        (¬m.ReplacesSuccess → Dict.find? (toString m.successCode) o.responses = some r)) ∧
      (¬m.isHttp → ∃ call result,
        o.requestBody = some ⟨none, true, jsonContent call⟩ ∧
        g'.registry.Decides (containerKey s.package m.requestName) m.bodyFields
          ("params" ∈ Dict.keys (call.properties.getD [])) ∧
        o.responses = [("200", r)] ∧
        r.content = some (jsonContent { oneOf := some [result, errorEnvelope] }) ∧
        g'.registry.Decides (containerKey s.package m.responseName) m.responseBodyFields
          ("result" ∈ Dict.keys (result.properties.getD []))) := by
  have hof := hs.isOf hm
  have hbody : ∀ f ∈ m.bodyFields, f.KeepsName := fun f hf ↦
    hof.requestFields f (List.mem_filter.mp hf).1
  have hresponse : ∀ f ∈ m.responseBodyFields, f.KeepsName := fun f hf ↦
    hof.responseFields f (List.mem_filter.mp hf).1
  obtain ⟨r, hb⟩ := Generator.builds_iff.mp ho
  have hcarries := Generator.operationOf_carries hof hg.coherent ho
  obtain ⟨s?, hshows, hcontent⟩ := hb.content hof hg.coherent
  unfold Generator.successContent at hcontent
  unfold Carries at hcarries
  refine ⟨r, hb, fun hh ↦ ?_, fun hh ↦ ?_⟩
  · rw [if_pos hh] at hcontent hcarries
    refine ⟨fun hu ↦ ?_, hshows.decides hresponse (by simp [hcontent]), fun hr ↦ ?_⟩
    · obtain ⟨request?, hrequest, he⟩ := hcarries.request (by rw [hu]; rfl)
      exact hrequest.decides hbody (by simp [he])
    · have hfind := hb.find? fun _ ↦ hr
      rwa [if_pos hh] at hfind
  · rw [if_neg hh] at hcontent hcarries
    obtain ⟨request?, hrequest, he⟩ := hcarries.request
    refine ⟨_, _, he, hrequest.decides hbody (mem_keys_envelope (by decide) (by decide)), ?_,
      hcontent, hshows.decides hresponse (mem_keys_envelope (by decide) (by decide))⟩
    cases hb with
    | http hh' _ _ _ _ => exact absurd hh' hh
    | rpc _ _ hr => exact hr

/-- A method with one argument, and nothing but an error for its result. -/
def doors (docs : String) : Project :=
  let source := "package service\n\n// @tg server-jsonrpc\ntype Doors interface \x7b\n" ++ docs ++
    "\tClose(id string) (err error)\n\x7d\n"
  let files :=
    [(⟨"go.mod"⟩, .file (.text "module m\n")), (⟨"service/service.go"⟩, .file (.text source))]
  .of (.ofNodes ["tmp", "w"] files) (.ofGoMod {} ⟨"/tmp/w"⟩ (.parse "module m\n"))

/-- The docs that put the argument into the path. -/
def doorInPath : String := "\t// @tg http-method DELETE\n\t// @tg http-path /doors/:id\n"

theorem doors_made (docs : String) (fields : List String) (http : Bool)
    (h : (Generator.firstOperation? (doors docs) ⟨"/tmp/w/service"⟩).map (fun x ↦
      (x.2.1.isHttp, x.2.1.uploads.isEmpty, x.2.1.bodyFields.map (·.name),
        x.2.1.responseBodyFields.isEmpty)) = some (http, true, fields, true)) :
    ∃ s m g o g', s.IsLoaded (doors docs) ∧ m ∈ s.methods ∧ g.IsReachable (doors docs) ∧
      Generator.operationOf (doors docs) s m g = (.ok o, g') ∧ m.isHttp = http ∧
      m.uploads = [] ∧ m.bodyFields.map (·.name) = fields ∧ m.responseBodyFields = [] := by
  obtain ⟨⟨s, m, g, o, g'⟩, hmade, h⟩ := Option.map_eq_some_iff.mp h
  obtain ⟨hs, hm, hg, ho⟩ := Generator.firstOperation?_eq_some hmade
  simp only [Prod.mk.injEq, List.isEmpty_iff] at h
  exact ⟨s, m, g, o, g', hs, hm, hg, ho, h.1, h.2.1, h.2.2.1, h.2.2.2⟩

/-- In a call the argument makes the parameters, and nothing a result. In the path it leaves
no body. -/
theorem doors_bodies : (∃ s m g o g' call result r,
    s.IsLoaded (doors "") ∧ m ∈ s.methods ∧ g.IsReachable (doors "") ∧
      Generator.operationOf (doors "") s m g = (.ok o, g') ∧
      o.requestBody = some ⟨none, true, jsonContent call⟩ ∧
      "params" ∈ Dict.keys (call.properties.getD []) ∧ o.responses = [("200", r)] ∧
      r.content = some (jsonContent { oneOf := some [result, errorEnvelope] }) ∧
      "result" ∉ Dict.keys (result.properties.getD [])) ∧
    ∃ s m g o g', s.IsLoaded (doors doorInPath) ∧ m ∈ s.methods ∧
      g.IsReachable (doors doorInPath) ∧
      Generator.operationOf (doors doorInPath) s m g = (.ok o, g') ∧ m.isHttp ∧
      o.requestBody = none := by
  constructor
  · obtain ⟨s, m, g, o, g', hs, hm, hg, ho, hh, -, hbody, hresult⟩ :=
      doors_made "" ["id"] false (by decide +kernel)
    obtain ⟨r, -, -, hcall⟩ := bodies_iff hs hm hg ho
    obtain ⟨call, result, hrequest, ⟨_, _, _, _, _, hparams⟩, hresponses, hcontent,
      _, _, _, _, _, hnone⟩ := hcall (by simp [hh])
    refine ⟨s, m, g, o, g', call, result, r, hs, hm, hg, ho, hrequest, hparams.mpr ?_, hresponses,
      hcontent, fun h ↦ hnone.mp h hresult⟩
    intro he
    rw [he] at hbody
    cases hbody
  · obtain ⟨s, m, g, o, g', hs, hm, hg, ho, hh, hu, hbody, -⟩ :=
      doors_made doorInPath [] true (by decide +kernel)
    obtain ⟨r, -, hhttp, -⟩ := bodies_iff hs hm hg ho
    obtain ⟨_, _, _, _, _, hnone⟩ := (hhttp hh).1 hu
    have hempty := mt hnone.mp (not_not_intro (List.map_eq_nil_iff.mp hbody))
    exact ⟨s, m, g, o, g', hs, hm, hg, ho, hh, Option.not_isSome_iff_eq_none.mp hempty⟩

end GoOpenApi
