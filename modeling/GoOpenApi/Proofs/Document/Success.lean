import GoOpenApi.Proofs.Document.Results
import GoOpenApi.Proofs.Resolve.Names

/-!
What directives for status codes do to the response for the success. They are written over it when
they are for its code, and then neither the container of the results nor a header is left.
-/

namespace GoOpenApi

open GoOpenApi.Generator (containerKey)

/-- The response has the container of the results for its content exactly when some result is in
the body, and a header for each binding of a result. -/
structure Response.KeepsSuccess (m : Endpoint) (id : String) (r : Response) : Prop where
  content : r.content = some (jsonContent (.referenceTo id)) ↔ m.responseBodyFields ≠ []
  headers : ∀ b ∈ m.resultBindings, ∃ h, Dict.find? b.headerName (r.headers.getD []) = some h

namespace Endpoint

theorem mem_insertCode {code : Nat} {o : ResponseOverride} {os : List (Nat × ResponseOverride)}
    {e : Nat × ResponseOverride} (h : e ∈ insertCode code o os) : e.1 = code ∨ e ∈ os := by
  induction os with
  | nil => exact .inl (congrArg Prod.fst (List.mem_singleton.mp h))
  | cons first os ih =>
    rw [insertCode] at h
    split at h
    · rcases List.mem_cons.mp h with rfl | h
      · exact .inl rfl
      · exact .inr (List.mem_cons_of_mem _ h)
    · split at h
      · rcases List.mem_cons.mp h with rfl | h
        · exact .inl rfl
        · exact .inr h
      · rcases List.mem_cons.mp h with rfl | h
        · exact .inr List.mem_cons_self
        · exact (ih h).imp_right (List.mem_cons_of_mem _)

/-- The codes are in their order, so that there is one entry for each. -/
def Ordered (os : List (Nat × ResponseOverride)) : Prop := os.Pairwise fun e e' ↦ e.1 < e'.1

theorem Ordered.insertCode {os : List (Nat × ResponseOverride)} (h : Ordered os) (code : Nat)
    (o : ResponseOverride) : Ordered (insertCode code o os) := by
  induction os with
  | nil => exact List.pairwise_singleton _ _
  | cons first os ih =>
    obtain ⟨hlt, hos⟩ := List.pairwise_cons.mp h
    rw [Endpoint.insertCode]
    split
    · rename_i he
      exact List.pairwise_cons.mpr ⟨fun e hm ↦ he ▸ hlt e hm, hos⟩
    · split
      · rename_i hc
        refine List.pairwise_cons.mpr ⟨fun e hm ↦ ?_, h⟩
        rcases List.mem_cons.mp hm with rfl | hm
        · exact hc
        · exact hc.trans (hlt e hm)
      · refine List.pairwise_cons.mpr ⟨fun e hm ↦ ?_, ih hos⟩
        rcases mem_insertCode hm with he | hm
        · omega
        · exact hlt e hm

theorem ordered_responseOverrides (m : Endpoint) : Ordered m.responseOverrides := by
  refine List.foldlRecOn (motive := Ordered) m.directives _ .nil fun os hos e _ ↦ ?_
  dsimp only
  split
  · exact hos.insertCode _ _
  · exact hos

end Endpoint

theorem Schema.referenceTo_injective : Function.Injective Schema.referenceTo := by
  intro id id' h
  have hc := congrArg Schema.componentId? h
  rwa [Registry.componentId?_referenceTo, Registry.componentId?_referenceTo,
    Option.some.injEq] at hc

/-- A walk that makes a reference to a component that was there goes to a name of its type. -/
theorem Walk.mem_names_of_reference {d : Table QualifiedName Shape} {shape : Shape}
    {r r' : Registry} {q : QualifiedName} {id : String} (h : Walk d shape r (.referenceTo id) r')
    (hr : r.Coherent) (hq : r.idOf? q = some id) : q ∈ shape.names := by
  generalize hs : Schema.referenceTo id = s at h
  match h with
  | .primitive p _ => cases p <;> cases hs
  | .unresolved _ _ | .interface _ _ | .array _ | .map _ | .record _ => cases hs
  | .alias h | .pointer h => exact (hs ▸ h).mem_names_of_reference hr hq
  | .known hq' =>
    obtain rfl := Schema.referenceTo_injective hs
    exact List.mem_singleton.mpr (hr.inj hq hq')
  | .undefined _ _ | .namedInterface _ _ => cases hs
  | .scalar (p := p) _ _ => cases p <;> cases hs
  | .component _ _ _ _ =>
    exact absurd (Schema.referenceTo_injective hs) (hr.ne_freeId hq _)

namespace Tables

variable {p : Project} {t t' : Tables} {α : Type} {names : List QualifiedName} {x value : α}

theorem Faithful.knows (h : t.Faithful p) : Knows p Set.univ [] [] t where
  faithful := h
  closed _ _ _ _ _ := .inr trivial
  met := nofun

theorem Settles.of_faithful {a : Action Tables α} (ha : Settles p Set.univ [] names value a)
    (ht : t.Faithful p) (h : a t = (.ok x, t')) : t'.Faithful p ∧ x = value :=
  ((ha []).ok ht.knows h).imp_left Knows.faithful

end Tables

namespace Generator

variable {p : Project} {s : Service} {m : Endpoint} {o : Operation} {g g' : Generator}

/-- Actions that keep tables as the files say, as a relation in which the second action does not
matter. -/
def faithful (p : Project) : Action.Relation Generator Generator where
  Holds P a _ := ∀ g x g', a g = (.ok x, g') → P x ∧ (g.tables.Faithful p → g'.tables.Faithful p)
  pure hx := by
    rintro g _ _ ⟨⟩
    exact ⟨hx, id⟩
  bind ha hf := by
    intro g y g' h
    obtain ⟨x, g₁, h₁, h⟩ := Action.bind_ok h
    obtain ⟨hx, ht⟩ := ha g x g₁ h₁
    obtain ⟨hy, ht'⟩ := hf x hx g₁ y g' h
    exact ⟨hy, ht' ∘ ht⟩

theorem faithful_onTables {α : Type} {a : Action Tables α} {names : List QualifiedName} {value : α}
    (ha : Tables.Settles p Set.univ [] names value a) :
    (faithful p).Relates (onTables a) (onTables a) := by
  intro g x g' h
  obtain ⟨t, hx, rfl⟩ := onTables_ok h
  exact ⟨trivial, fun ht ↦ (ha.of_faithful ht hx).1⟩

theorem faithful_build {α : Type} (records : Nat) (a : Entrance → Build α) :
    (faithful p).Relates (build records a) (build records a) := by
  intro g x g' h
  obtain ⟨r, -, rfl⟩ := build_ok h
  exact ⟨trivial, id⟩

theorem faithful_containers : RelatesContainers (faithful p) p p where
  schema type package := (faithful_onTables (Tables.resolve_settles type package)).bind fun _ ↦
    faithful_build _ _
  payload q := by
    refine (faithful_onTables (Tables.resolve_settles _ _)).bind fun shape ↦ ?_
    split
    · exact .pure _
    · exact Action.Relation.Relates.map (faithful_build _ _) _
  cleared content := by
    rintro g _ _ ⟨⟩
    exact ⟨trivial, id⟩
  unlessEmpty s := by
    rintro g _ _ ⟨⟩
    exact ⟨trivial, id⟩
  container name package fields :=
    (faithful_onTables (Tables.resolveFields_settles fields package)).bind fun _ ↦
      faithful_build _ _

/-- The content of a payload never is a component that no declaration has. -/
theorem payload_ne_referenceTo {q key : QualifiedName} {id : String}
    {content : Option (Dict MediaType)} (hr : g.registry.Coherent) (ht : g.tables.Faithful p)
    (hk : p.body? key = none) (hid : g.registry.idOf? key = some id)
    (h : payload p q g = (.ok content, g')) :
    content ≠ some (jsonContent (.referenceTo id)) := by
  rintro rfl
  obtain ⟨shape, g₁, hs, h⟩ := Action.bind_ok h
  obtain ⟨t, hresolve, rfl⟩ := onTables_ok hs
  obtain ⟨-, hshape⟩ := (Tables.resolve_settles _ _).of_faithful ht hresolve
  split at h
  · cases h
  · obtain ⟨u, g₂, hu, h⟩ := Action.bind_ok h
    cases h
    obtain ⟨r, hw, -⟩ := materialize_ok hu
    have hn := hw.mem_names_of_reference hr hid
    rw [hshape, GoType.names_shape, List.mem_flatMap] at hn
    obtain ⟨q', -, hn⟩ := hn
    exact (Project.mem_names_named.mp hn).2 hk

theorem overridesOnto_append (d : Dict Response) (os os' : List (Nat × ResponseOverride)) :
    overridesOnto p d (os ++ os') = (do overridesOnto p (← overridesOnto p d os) os') := by
  induction os generalizing d with
  | nil => rw [List.nil_append, overridesOnto, pure_bind]
  | cons e os ih =>
    obtain ⟨code, o⟩ := e
    simp only [List.cons_append, overridesOnto]
    split
    · simp only [ih, bind_assoc]
    · exact ih _
    · exact ih _

/-- A response that a directive has put in the place of another. -/
inductive Replaces (p : Project) (g : Generator) (r : Response) : Prop where
  | text {description : String} : r = ⟨description, none, none⟩ → Replaces p g r
  | payload {q : QualifiedName} {description : String} {content : Option (Dict MediaType)}
    {g' : Generator} : payload p q g = (.ok content, g') → r = ⟨description, none, content⟩ →
    Replaces p g r

theorem Replaces.headers {r : Response} (h : Replaces p g r) : r.headers = none := by
  cases h with
  | text hr => rw [hr]
  | payload _ hr => rw [hr]

theorem overridesOnto_replaced {code : Nat} {w : ResponseOverride} {text : String}
    {d d' : Dict Response} {os : List (Nat × ResponseOverride)} (hos : Endpoint.Ordered os)
    (hm : (code, w) ∈ os) (ht : statusText? code = some text) (hw : w ≠ .skip)
    (h : overridesOnto p d os g = (.ok d', g')) :
    ∃ os₁ d₁ g₁ r, overridesOnto p d os₁ g = (.ok d₁, g₁) ∧ Replaces p g₁ r ∧
      Dict.find? (toString code) d' = some r := by
  obtain ⟨os₁, os₂, rfl⟩ := List.append_of_mem hm
  rw [overridesOnto_append] at h
  obtain ⟨d₁, g₁, h₁, h⟩ := Action.bind_ok h
  -- codes are in their order, so that no later directive is for the same one
  have hlater : ∀ e ∈ os₂, (statusText? e.1).isSome → e.2 ≠ .skip →
      toString e.1 ≠ toString code := by
    intro e he _ _ hc
    have hlt := (List.pairwise_cons.mp (List.pairwise_append.mp hos).2.1).1 e he
    exact hlt.ne' (Registry.repr_injective hc)
  have hself {r : Response} :
      Dict.find? (toString code) (Dict.insert (toString code) r d₁) = some r := by
    rw [Dict.find?_insert, if_pos rfl]
  unfold overridesOnto at h
  simp only [ht] at h
  cases w with
  | skip => exact absurd rfl hw
  | text description =>
    exact ⟨os₁, d₁, g₁, _, h₁, .text rfl, by rw [overridesOnto_find? h hlater, hself]⟩
  | payload q =>
    obtain ⟨content, g₂, hp, h⟩ := Action.bind_ok h
    exact ⟨os₁, d₁, g₁, _, h₁, .payload hp rfl, by rw [overridesOnto_find? h hlater, hself]⟩

theorem faithful_httpSuccess : (faithful p).Relates (httpSuccess p s m) (httpSuccess p s m) :=
  (faithful_containers.container _ _ _).bind fun _ ↦
    (headers_relates faithful_containers.toRelatesSchemas _ _).bind fun _ ↦
      (faithful_containers.cleared _).map _

theorem Replaces.content_ne {r : Response} {key : QualifiedName} {id : String}
    (h : Replaces p g r) (hr : g.registry.Coherent) (ht : g.tables.Faithful p)
    (hk : p.body? key = none) (hid : g.registry.idOf? key = some id) :
    r.content ≠ some (jsonContent (.referenceTo id)) := by
  cases h with
  | text hr =>
    rw [hr]
    nofun
  | payload hp he =>
    rw [he]
    exact payload_ne_referenceTo hr ht hk hid hp

/-- A directive for the code of the success leaves no header of a result, and not the container. -/
theorem withErrors_replaced {d d' : Dict Response} {key : QualifiedName} {id : String}
    (hm : m.ReplacesSuccess) (hr : g.registry.Coherent) (ht : g.tables.Faithful p)
    (hk : p.body? key = none) (hid : g.registry.idOf? key = some id)
    (h : withErrors p m d g = (.ok d', g')) :
    ∃ r, Dict.find? (toString m.successCode) d' = some r ∧ r.headers = none ∧
      r.content ≠ some (jsonContent (.referenceTo id)) := by
  obtain ⟨code, w, hmem, hcode, hsome, hskip⟩ := hm
  obtain ⟨text, htext⟩ := Option.isSome_iff_exists.mp hsome
  obtain ⟨d₁, g₁, hover, hd⟩ := withErrors_overrides h
  obtain ⟨os, d₂, g₂, r, hbefore, hreplaces, hf⟩ :=
    overridesOnto_replaced m.ordered_responseOverrides hmem htext hskip hover
  -- the state in which the directive for the code of the success is met
  have hg := calm_iff.mpr (overridesOnto_relates calm_schemas _ os) _ _ _ hbefore hr
  have ht' := (overridesOnto_relates (faithful_containers (p := p)).toRelatesSchemas _ os _ _ _
    hbefore).2 ht
  refine ⟨r, ?_, hreplaces.headers, hreplaces.content_ne hg.coherent ht' hk (hg.ids hid)⟩
  rw [hcode] at hf
  exact (hd m.successCode).trans hf

end Generator

section

variable {p : Project} {s : Service} {m : Endpoint} {r : Response} {id : String}

theorem Field.jsonNames_eq_nil_iff {fields : List Field} (h : ∀ f ∈ fields, f.KeepsName) :
    jsonNames fields = [] ↔ fields = [] := by
  constructor
  · intro hn
    refine List.eq_nil_iff_forall_not_mem.mpr fun f hf ↦ ?_
    have hm := (mem_jsonNames h).mpr ⟨f, hf, rfl⟩
    rw [hn] at hm
    exact List.not_mem_nil hm
  · rintro rfl
    rfl

/-- Without the content and the headers only a method that has neither keeps its success. -/
theorem Response.keepsSuccess_iff_of_replaced (hh : r.headers = none)
    (hc : r.content ≠ some (jsonContent (.referenceTo id))) :
    r.KeepsSuccess m id ↔ m.responseBodyFields = [] ∧ m.resultBindings = [] := by
  constructor
  · intro h
    refine ⟨Classical.not_not.mp (mt h.content.mpr hc), ?_⟩
    refine List.eq_nil_iff_forall_not_mem.mpr fun b hb ↦ ?_
    obtain ⟨header, hf⟩ := h.headers b hb
    rw [hh] at hf
    cases hf
  · rintro ⟨hf, hb⟩
    refine ⟨iff_of_false hc fun hn ↦ hn hf, ?_⟩
    rw [hb]
    nofun

theorem Generator.Builds.keepsSuccess {o : Operation} {g g' : Generator} {s? : Option Schema}
    (h : Builds p s m g r o g') (hm : m.IsOf s.name) (hc : r.content = s?.map jsonContent)
    (hs : s? = if Field.jsonNames m.responseBodyFields = [] then none else some (.referenceTo id)) :
    r.KeepsSuccess m id := by
  have hn : Field.jsonNames m.responseBodyFields = [] ↔ m.responseBodyFields = [] :=
    Field.jsonNames_eq_nil_iff fun f hf ↦ hm.responseFields f (List.mem_filter.mp hf).1
  refine ⟨?_, fun b hb ↦ ?_⟩
  · rw [hc, hs]
    split
    · rename_i he
      exact iff_of_false nofun fun hf ↦ hf (hn.mp he)
    · rename_i he
      exact iff_of_true rfl (mt hn.mpr he)
  · obtain ⟨w, header, -, hf, -⟩ := h.exists_header hb
    exact ⟨header, hf⟩

end

/-- Over HTTP the response under the code of the success keeps the content and the headers of the
results exactly when no directive for that code replaces it, or there is nothing to keep. No other
directive matters, and the container has the properties of the results in the body throughout. -/
theorem success_kept_iff {p : Project} {s : Service} {m : Endpoint} {o : Operation}
    {g g' : Generator} (hs : s.IsLoaded p) (hm : m ∈ s.methods) (hh : m.isHttp)
    (hg : g.IsReachable p) (ht : g.tables.Faithful p)
    (hk : p.body? (containerKey s.package m.responseName) = none)
    (ho : Generator.operationOf p s m g = (.ok o, g')) :
    ∃ id schema r, g'.registry.idOf? (containerKey s.package m.responseName) = some id ∧
      Dict.find? id g'.registry.schemas = some schema ∧
      (∀ key, key ∈ Dict.keys (schema.properties.getD []) ↔
        key ∈ Field.jsonNames m.responseBodyFields) ∧
      Dict.find? (toString m.successCode) o.responses = some r ∧
      (r.KeepsSuccess m id ↔
        (m.ReplacesSuccess → m.responseBodyFields = [] ∧ m.resultBindings = [])) := by
  have hof := hs.isOf hm
  obtain ⟨success, hb⟩ := Generator.builds_iff.mp ho
  have hbuilds := hb
  cases hb with
  | rpc hr _ _ => exact absurd hh hr
  | http _ hq hsuccess he hbase =>
    have hg₁ := (Generator.requestContent_ok hof hg.coherent hq).1
    obtain ⟨hg₂, s?, ⟨id, schema, hid, hfind, hkeys, hs?⟩, hcontent⟩ :=
      Generator.httpSuccess_ok hof hg₁.coherent hsuccess
    have hg₃ := Generator.calm_withErrors _ _ _ _ _ he hg₂.coherent
    have hlater := hg₃.trans (Generator.calm_operation _ _ _ _ _ hbase hg₃.coherent)
    have hschema := (hlater.kept (Set.notMem_empty _) hid).trans hfind
    by_cases hrep : m.ReplacesSuccess
    · have hfaithful := Generator.faithful_containers (p := p)
      have ht₁ := (Generator.requestContent_relates hfaithful s m _ _ _ hq).2 ht
      have ht₂ := (Generator.faithful_httpSuccess _ _ _ hsuccess).2 ht₁
      obtain ⟨r, hr, hh, hc⟩ := Generator.withErrors_replaced hrep hg₂.coherent ht₂ hk hid he
      refine ⟨id, schema, r, hlater.ids hid, hschema, hkeys, hr, ?_⟩
      rw [Response.keepsSuccess_iff_of_replaced hh hc]
      exact ⟨fun h _ ↦ h, fun h ↦ h hrep⟩
    · refine ⟨id, schema, success, hlater.ids hid, hschema, hkeys,
        Generator.withErrors_find? he hrep, ?_⟩
      exact iff_of_true (hbuilds.keepsSuccess hof hcontent hs?) fun h ↦ absurd h hrep

/-- A method with a result in a header, and a directive for a code. -/
def profile (directive : String) : Project :=
  let source := "package service\n\n// @tg defaultError Failure\ntype Users interface \x7b\n" ++
    "\t// @tg http-method GET\n\t// @tg http-headers:token|X-Token\n\t// @tg " ++ directive ++
    "\n\tProfile() (name, token string)\n\x7d\n"
  let files :=
    [(⟨"go.mod"⟩, .file (.text "module m\n")), (⟨"service/service.go"⟩, .file (.text source))]
  .of (.ofNodes ["tmp", "w"] files) (.ofGoMod {} ⟨"/tmp/w"⟩ (.parse "module m\n"))

theorem Generator.firstOperation?_faithful {p : Project} {dir : Path} {s : Service} {m : Endpoint}
    {g g' : Generator} {o : Operation} (h : firstOperation? p dir = some (s, m, g, o, g')) :
    g.tables.Faithful p := by
  unfold firstOperation? at h
  split at h
  · rename_i services t hl
    obtain ⟨s', hs, h⟩ := Option.bind_eq_some_iff.mp h
    obtain ⟨m', hm, h⟩ := Option.bind_eq_some_iff.mp h
    split at h
    · cases h
      exact ((Service.load_gives dir []).ok (.empty p) hl).1
    · cases h
  · cases h

theorem profile_keeps_success : ∃ s m g o g' id r,
    s.IsLoaded (profile "500 Broken") ∧ m ∈ s.methods ∧ m.isHttp ∧
      g.IsReachable (profile "500 Broken") ∧ g.tables.Faithful (profile "500 Broken") ∧
      (profile "500 Broken").body? (containerKey s.package m.responseName) = none ∧
      Generator.operationOf (profile "500 Broken") s m g = (.ok o, g') ∧
      (m.responseOverrides.map (·.1) = [500] ∧ m.defaultError.isSome) ∧
      Dict.find? (toString m.successCode) o.responses = some r ∧ r.KeepsSuccess m id := by
  have h : (Generator.firstOperation? (profile "500 Broken") ⟨"/tmp/w/service"⟩).map (fun x ↦
      (x.2.1.isHttp, ((profile "500 Broken").body?
        (containerKey x.1.package x.2.1.responseName)).isNone,
        x.2.1.responseOverrides.map (·.1), x.2.1.successCode, x.2.1.defaultError.isSome)) =
      some (true, true, [500], 200, true) := by
    decide +kernel
  obtain ⟨⟨s, m, g, o, g'⟩, hmade, h⟩ := Option.map_eq_some_iff.mp h
  obtain ⟨hs, hm, hg, ho⟩ := Generator.firstOperation?_eq_some hmade
  have ht := Generator.firstOperation?_faithful hmade
  simp only [Prod.mk.injEq] at h
  obtain ⟨hh, hk, hcodes, hcode, hdefault⟩ := h
  have hk := Option.isNone_iff_eq_none.mp hk
  obtain ⟨id, schema, r, -, -, -, hr, hkeeps⟩ := success_kept_iff hs hm hh hg ht hk ho
  refine ⟨s, m, g, o, g', id, r, hs, hm, hh, hg, ht, hk, ho, ⟨hcodes, hdefault⟩, hr,
    hkeeps.mpr ?_⟩
  rintro ⟨code, w, hmem, he, -, -⟩
  have hmem := List.mem_map_of_mem (f := (·.1)) hmem
  rw [hcodes] at hmem
  rw [hcode] at he
  have hne : ∀ code ∈ [500], toString code ≠ toString (200 : Int) := by decide
  exact absurd he (hne code hmem)

/-- The text for the code of the success takes the name out of the body, and the token with it. -/
theorem profile_loses_success : ∃ s m g o g' id r,
    s.IsLoaded (profile "200 The profile") ∧ m ∈ s.methods ∧ m.isHttp ∧
      g.IsReachable (profile "200 The profile") ∧
      Generator.operationOf (profile "200 The profile") s m g = (.ok o, g') ∧
      g'.registry.idOf? (containerKey s.package m.responseName) = some id ∧
      Dict.find? (toString m.successCode) o.responses = some r ∧
      m.responseBodyFields.map (·.name) = ["name"] ∧
      m.resultBindings.map (·.headerName) = ["X-Token"] ∧
      r.content.isNone ∧ r.headers.isNone ∧ ¬r.KeepsSuccess m id := by
  have h : (Generator.firstOperation? (profile "200 The profile") ⟨"/tmp/w/service"⟩).bind (fun x ↦
      (x.2.2.2.2.registry.idOf? (containerKey x.1.package x.2.1.responseName)).bind fun _ ↦
      (Dict.find? (toString x.2.1.successCode) x.2.2.2.1.responses).map fun r ↦
      (x.2.1.isHttp, x.2.1.responseBodyFields.map (·.name),
        x.2.1.resultBindings.map (·.headerName), r.content.isNone, r.headers.isNone)) =
      some (true, ["name"], ["X-Token"], true, true) := by
    decide +kernel
  obtain ⟨⟨s, m, g, o, g'⟩, hmade, h⟩ := Option.bind_eq_some_iff.mp h
  obtain ⟨id, hid, h⟩ := Option.bind_eq_some_iff.mp h
  obtain ⟨r, hr, h⟩ := Option.map_eq_some_iff.mp h
  obtain ⟨hs, hm, hg, ho⟩ := Generator.firstOperation?_eq_some hmade
  simp only [Prod.mk.injEq] at h
  obtain ⟨hh, hf, hn, hc, hheaders⟩ := h
  refine ⟨s, m, g, o, g', id, r, hs, hm, hh, hg, ho, hid, hr, hf, hn, hc, hheaders, fun hkeeps ↦ ?_⟩
  have hb : m.responseBodyFields ≠ [] := by
    rintro he
    rw [he] at hf
    cases hf
  rw [hkeeps.content.mpr hb] at hc
  cases hc

end GoOpenApi
