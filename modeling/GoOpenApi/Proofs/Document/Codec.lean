import GoOpenApi.Proofs.Json.Reading
import GoOpenApi.Proofs.Schema.Codec

/-!
Documents are read back from the JSON values that they are written as. What is absent, what is
empty and what is there stay apart in every part.
-/

namespace GoOpenApi

open Json

/-! ### Documents whose maps are dictionaries -/

def RequestBody.Ordered (b : RequestBody) : Prop := b.content.AllOrdered (·.schema.Ordered)

structure Response.Ordered (r : Response) : Prop where
  headers : ∀ hs, r.headers = some hs → hs.AllOrdered (·.schema.Ordered)
  content : ∀ c, r.content = some c → c.AllOrdered (·.schema.Ordered)

structure Operation.Ordered (o : Operation) : Prop where
  parameters : ∀ ps, o.parameters = some ps → ∀ p ∈ ps, p.schema.Ordered
  requestBody : ∀ b, o.requestBody = some b → b.Ordered
  responses : o.responses.AllOrdered Response.Ordered

def PathItem.Ordered (item : PathItem) : Prop := ∀ verb o, item.at? verb = some o → o.Ordered

def Components.Ordered (c : Components) : Prop :=
  ∀ ss, c.schemas = some ss → ss.AllOrdered Schema.Ordered

/-- All maps in the document are dictionaries. -/
structure Document.Ordered (d : Document) : Prop where
  paths : d.paths.AllOrdered PathItem.Ordered
  components : ∀ c, d.components = some c → c.Ordered

/-! ### Parts -/

theorem Info.ofJson?_toJson (i : Info) : ofJson? i.toJson = some i := by
  have hd : i.toJson.optional? "description" str? = some i.description :=
    optional?_str (by simp [toJson])
  have ht : i.toJson.field? "title" str? = some i.title := by simp [toJson, field?, str?]
  have hv : i.toJson.field? "version" str? = some i.version := by simp [toJson, field?, str?]
  simp [ofJson?, hd, ht, hv]

theorem Server.ofJson?_toJson (s : Server) : ofJson? s.toJson = some s := by
  have hd : s.toJson.optional? "description" str? = some s.description :=
    optional?_str (by simp [toJson])
  have hu : s.toJson.field? "url" str? = some s.url := by simp [toJson, field?, str?]
  simp [ofJson?, hd, hu]

theorem Parameter.ofJson?_toJson {p : Parameter} (h : p.schema.Ordered) :
    ofJson? p.toJson = some p := by
  have hd : p.toJson.optional? "description" str? = some p.description :=
    optional?_str (by simp [toJson])
  have hn : p.toJson.field? "name" str? = some p.name := by simp [toJson, field?, str?]
  have hl : p.toJson.field? "in" str? = some p.location := by simp [toJson, field?, str?]
  have hr : p.toJson.field? "required" bool? = some p.required := by simp [toJson, field?, bool?]
  have hs : p.toJson.field? "schema" Schema.ofJson? = some p.schema := by
    simp [toJson, field?, Schema.ofJson?_toJson h]
  simp [ofJson?, hd, hn, hl, hr, hs]

theorem MediaType.ofJson?_toJson {m : MediaType} (h : m.schema.Ordered) :
    ofJson? m.toJson = some m := by
  have hs : m.toJson.field? "schema" Schema.ofJson? = some m.schema := by
    simp [toJson, field?, Schema.ofJson?_toJson h]
  simp [ofJson?, hs]

theorem MediaType.ordered?_toJson {c : Dict MediaType} (h : c.AllOrdered (·.schema.Ordered)) :
    ordered? ofJson? (dict toJson c) = some c :=
  ordered?_dict h.ordered fun e he ↦ ofJson?_toJson (h.values e he)

theorem RequestBody.ofJson?_toJson {b : RequestBody} (h : b.Ordered) :
    ofJson? b.toJson = some b := by
  have hd : b.toJson.optional? "description" str? = some b.description :=
    optional?_str (by simp [toJson])
  have hr : b.toJson.field? "required" bool? = some b.required := by simp [toJson, field?, bool?]
  have hc : b.toJson.field? "content" (ordered? MediaType.ofJson?) = some b.content := by
    simp [toJson, field?, MediaType.ordered?_toJson h]
  simp [ofJson?, hd, hr, hc]

theorem Header.ofJson?_toJson {x : Header} (h : x.schema.Ordered) : ofJson? x.toJson = some x := by
  have hd : x.toJson.optional? "description" str? = some x.description :=
    optional?_str (by simp [toJson])
  have hs : x.toJson.field? "schema" Schema.ofJson? = some x.schema := by
    simp [toJson, field?, Schema.ofJson?_toJson h]
  simp [ofJson?, hd, hs]

theorem Response.ofJson?_toJson {r : Response} (h : r.Ordered) : ofJson? r.toJson = some r := by
  have hd : r.toJson.field? "description" str? = some r.description := by
    simp [toJson, field?, str?]
  have hh : r.toJson.optional? "headers" (ordered? Header.ofJson?) = some r.headers := by
    have hget : r.toJson.get? "headers" = r.headers.map (dict Header.toJson) := by simp [toJson]
    refine optional?_of_get? hget (fun _ ↦ obj_ne_null _) fun hs hhs ↦ ?_
    exact ordered?_dict (h.headers hs hhs).ordered fun e he ↦
      Header.ofJson?_toJson ((h.headers hs hhs).values e he)
  have hc : r.toJson.optional? "content" (ordered? MediaType.ofJson?) = some r.content := by
    have hget : r.toJson.get? "content" = r.content.map (dict MediaType.toJson) := by
      simp [toJson]
    exact optional?_of_get? hget (fun _ ↦ obj_ne_null _) fun c hc ↦
      MediaType.ordered?_toJson (h.content c hc)
  simp [ofJson?, hd, hh, hc]

theorem Operation.ofJson?_toJson {o : Operation} (h : o.Ordered) : ofJson? o.toJson = some o := by
  have ht : o.toJson.optional? "tags" strings? = some o.tags := by
    have hget : o.toJson.get? "tags" = o.tags.map strings := by simp [toJson]
    exact optional?_of_get? hget (fun _ ↦ arr_ne_null _) fun ss _ ↦ strings?_strings ss
  have hs : o.toJson.optional? "summary" str? = some o.summary :=
    optional?_str (by simp [toJson])
  have hd : o.toJson.optional? "description" str? = some o.description :=
    optional?_str (by simp [toJson])
  have hi : o.toJson.optional? "operationId" str? = some o.operationId :=
    optional?_str (by simp [toJson])
  have hdep : o.toJson.optional? "deprecated" bool? = some o.deprecated := by
    have hget : o.toJson.get? "deprecated" = o.deprecated.map Json.bool := by simp [toJson]
    exact optional?_of_get? hget bool_ne_null fun _ _ ↦ rfl
  have hp : o.toJson.optional? "parameters" (list? Parameter.ofJson?) = some o.parameters := by
    have hget : o.toJson.get? "parameters" =
        o.parameters.map fun ps ↦ .arr (ps.map Parameter.toJson) := by simp [toJson]
    refine optional?_of_get? hget (fun _ ↦ arr_ne_null _) fun ps hps ↦ list?_arr fun p hp ↦ ?_
    exact Parameter.ofJson?_toJson (h.parameters ps hps p hp)
  have hb : o.toJson.optional? "requestBody" RequestBody.ofJson? = some o.requestBody := by
    have hget : o.toJson.get? "requestBody" = o.requestBody.map RequestBody.toJson := by
      simp [toJson]
    exact optional?_of_get? hget (fun _ ↦ obj_ne_null _) fun b hb ↦
      RequestBody.ofJson?_toJson (h.requestBody b hb)
  have hr : o.toJson.field? "responses" (ordered? Response.ofJson?) = some o.responses := by
    have hd := ordered?_dict h.responses.ordered fun e he ↦
      Response.ofJson?_toJson (h.responses.values e he)
    simp [toJson, field?, hd]
  simp [ofJson?, ht, hs, hd, hi, hdep, hp, hb, hr]

theorem PathItem.ofJson?_toJson {item : PathItem} (h : item.Ordered) :
    ofJson? item.toJson = some item := by
  have hv (verb : Verb) : item.toJson.optional? verb.label Operation.ofJson? =
      some (item.at? verb) := by
    have hget : item.toJson.get? verb.label = (item.at? verb).map Operation.toJson := by
      cases verb <;> simp [toJson, Verb.all, Verb.label, at?]
    exact optional?_of_get? hget (fun _ ↦ obj_ne_null _) fun o ho ↦
      Operation.ofJson?_toJson (h verb o ho)
  simp [ofJson?, hv, at?]

theorem Components.ofJson?_toJson {c : Components} (h : c.Ordered) :
    ofJson? c.toJson = some c := by
  have hs : c.toJson.optional? "schemas" (ordered? Schema.ofJson?) = some c.schemas := by
    have hget : c.toJson.get? "schemas" = c.schemas.map (dict Schema.toJson) := by simp [toJson]
    refine optional?_of_get? hget (fun _ ↦ obj_ne_null _) fun ss hss ↦ ?_
    exact ordered?_dict (h ss hss).ordered fun e he ↦
      Schema.ofJson?_toJson ((h ss hss).values e he)
  simp [ofJson?, hs]

theorem Document.ofJson?_toJson {d : Document} (h : d.Ordered) : ofJson? d.toJson = some d := by
  have ho : d.toJson.field? "openapi" str? = some d.openapi := by simp [toJson, field?, str?]
  have hi : d.toJson.field? "info" Info.ofJson? = some d.info := by
    simp [toJson, field?, Info.ofJson?_toJson]
  have hs : d.toJson.optional? "servers" (list? Server.ofJson?) = some d.servers := by
    have hget : d.toJson.get? "servers" = d.servers.map fun ss ↦ .arr (ss.map Server.toJson) := by
      simp [toJson]
    exact optional?_of_get? hget (fun _ ↦ arr_ne_null _) fun ss _ ↦
      list?_arr fun s _ ↦ s.ofJson?_toJson
  have hp : d.toJson.field? "paths" (ordered? PathItem.ofJson?) = some d.paths := by
    have hd := ordered?_dict h.paths.ordered fun e he ↦
      PathItem.ofJson?_toJson (h.paths.values e he)
    simp [toJson, field?, hd]
  have hc : d.toJson.optional? "components" Components.ofJson? = some d.components := by
    have hget : d.toJson.get? "components" = d.components.map Components.toJson := by
      simp [toJson]
    exact optional?_of_get? hget (fun _ ↦ obj_ne_null _) fun c hc ↦
      Components.ofJson?_toJson (h.components c hc)
  simp [ofJson?, ho, hi, hs, hp, hc]

/-- The JSON text of a document is read back as the document. -/
theorem document_read_back {d : Document} (h : d.Ordered) :
    (Json.parse? (d.render .json)).bind Document.ofJson? = some d :=
  (readsBack_of_decode (Document.ofJson?_toJson h)).text

namespace Document

def itemsSchema : Schema := { type := some "array", items := some Schema.empty, required := some [] }

def listSchema : Schema where
  properties := some [("items", itemsSchema), ("next", Schema.referenceTo "List")]
  oneOf := some []

def sparseOperation : Operation :=
  ⟨some [], none, some "", none, some false, some [], none,
    [("200", ⟨"", some [], none⟩), ("default", ⟨"true", none, some []⟩)]⟩

/-- A document with empty parts beside absent ones, a recursive component, and texts with quotes,
line feeds and a control character. -/
def sparse : Document where
  openapi := "3.0.0"
  info := ⟨"", "1.0.0", some "A \"list\":\n  - \\ \x01 é"⟩
  servers := some []
  paths := [("/a b", { get := some sparseOperation }), ("/c", {})]
  components := some ⟨some [("List", listSchema)]⟩

theorem itemsSchema_ordered : itemsSchema.Ordered := by
  refine .intro nofun nofun ?_ nofun nofun
  rintro u ⟨⟩
  exact .intro nofun nofun nofun nofun nofun

theorem listSchema_ordered : listSchema.Ordered := by
  refine .intro ?_ ?_ nofun nofun ?_
  · rintro ps ⟨⟩
    unfold Dict.Ordered
    decide
  · rintro ps ⟨⟩
    exact List.forall_mem_cons.mpr ⟨itemsSchema_ordered,
      List.forall_mem_singleton.mpr (.intro nofun nofun nofun nofun nofun)⟩
  · rintro us ⟨⟩
    exact nofun

theorem sparseOperation_ordered : sparseOperation.Ordered := by
  refine ⟨?_, nofun, ?_, ?_⟩
  · rintro ps ⟨⟩
    exact nofun
  · unfold Dict.Ordered
    decide
  · refine List.forall_mem_cons.mpr ⟨⟨?_, nofun⟩, List.forall_mem_singleton.mpr ⟨nofun, ?_⟩⟩
    · rintro hs ⟨⟩
      exact ⟨Dict.ordered_nil, nofun⟩
    · rintro c ⟨⟩
      exact ⟨Dict.ordered_nil, nofun⟩

theorem sparse_ordered : sparse.Ordered := by
  refine ⟨⟨by unfold Dict.Ordered; decide, ?_⟩, ?_⟩
  · refine List.forall_mem_cons.mpr ⟨?_, List.forall_mem_singleton.mpr ?_⟩
    · rintro (_ | _) o ⟨⟩
      exact sparseOperation_ordered
    · rintro (_ | _) o ⟨⟩
  · rintro c ⟨⟩ ss ⟨⟩
    exact ⟨List.pairwise_singleton _ _, List.forall_mem_singleton.mpr listSchema_ordered⟩

theorem sparse_read_back :
    sparse.Ordered ∧ (Json.parse? (sparse.render .json)).bind Document.ofJson? = some sparse :=
  ⟨sparse_ordered, document_read_back sparse_ordered⟩

end Document

end GoOpenApi
