import GoOpenApi.Proofs.Document.Codec
import GoOpenApi.Proofs.Json.Texts
import GoOpenApi.Proofs.Yaml.Injective

/-!
Different documents are written differently in YAML. A document is texts and truth values in lists
and mappings, and from the text of such a value the value is known.
-/

namespace GoOpenApi

open Json

/-! ### Documents hold texts and truth values -/

theorem Schema.Ordered.textual {s : Schema} (h : s.Ordered) : s.toJson.Textual := by
  induction h with
  | @intro s _ _ _ _ _ ihv ihi iha ihc =>
    rw [Schema.toJson_eq]
    exact .record_map (fun t _ ↦ .str t) <| .record_map (fun t _ ↦ .str t) <|
      .record_map (fun t _ ↦ .str t) <| .record_map (fun ps hps ↦ .dict (ihv ps hps)) <|
      .record_map (fun ss _ ↦ .strings ss) <| .record_map ihi <| .record_map iha <|
      .record_map (fun t _ ↦ .str t) <| .record_map (fun us hus ↦ .list (ihc us hus)) .record_nil

theorem Info.textual (i : Info) : i.toJson.Textual :=
  .record_some (.str _) <| .record_some (.str _) <| .record_map (fun t _ ↦ .str t) .record_nil

theorem Server.textual (s : Server) : s.toJson.Textual :=
  .record_some (.str _) <| .record_map (fun t _ ↦ .str t) .record_nil

theorem Parameter.textual {p : Parameter} (h : p.schema.Ordered) : p.toJson.Textual :=
  .record_some (.str _) <| .record_some (.str _) <| .record_some (.bool _) <|
    .record_some h.textual <| .record_map (fun t _ ↦ .str t) .record_nil

theorem MediaType.textual {m : MediaType} (h : m.schema.Ordered) : m.toJson.Textual :=
  .obj (List.forall_mem_singleton.mpr h.textual)

theorem MediaType.textual_dict {c : Dict MediaType} (h : c.AllOrdered (·.schema.Ordered)) :
    (Json.dict toJson c).Textual :=
  .dict fun e he ↦ textual (h.values e he)

theorem RequestBody.Ordered.textual {b : RequestBody} (h : b.Ordered) : b.toJson.Textual :=
  .record_map (fun t _ ↦ .str t) <| .record_some (.bool _) <|
    .record_some (MediaType.textual_dict h) .record_nil

theorem Header.textual {x : Header} (h : x.schema.Ordered) : x.toJson.Textual :=
  .record_map (fun t _ ↦ .str t) <| .record_some h.textual .record_nil

theorem Response.Ordered.textual {r : Response} (h : r.Ordered) : r.toJson.Textual := by
  have headers (hs : Dict Header) (hhs : r.headers = some hs) :
      (Json.dict Header.toJson hs).Textual :=
    .dict fun e he ↦ Header.textual ((h.headers hs hhs).values e he)
  exact .record_some (.str _) <| .record_map headers <|
    .record_map (fun c hc ↦ MediaType.textual_dict (h.content c hc)) .record_nil

theorem Operation.Ordered.textual {o : Operation} (h : o.Ordered) : o.toJson.Textual := by
  have parameters (ps : List Parameter) (hps : o.parameters = some ps) :
      (Json.arr (ps.map Parameter.toJson)).Textual :=
    .list fun p hp ↦ Parameter.textual (h.parameters ps hps p hp)
  have responses : (Json.dict Response.toJson o.responses).Textual :=
    .dict fun e he ↦ (h.responses.values e he).textual
  exact .record_map (fun ss _ ↦ .strings ss) <| .record_map (fun t _ ↦ .str t) <|
    .record_map (fun t _ ↦ .str t) <| .record_map (fun t _ ↦ .str t) <|
    .record_map (fun b _ ↦ .bool b) <| .record_map parameters <|
    .record_map (fun b hb ↦ (h.requestBody b hb).textual) <| .record_some responses .record_nil

theorem PathItem.Ordered.textual {item : PathItem} (h : item.Ordered) : item.toJson.Textual := by
  have hall (verbs : List Verb) : (Json.record (verbs.map fun verb ↦
      (verb.label, (item.at? verb).map Operation.toJson))).Textual := by
    induction verbs with
    | nil => exact .record_nil
    | cons verb verbs ih => exact .record_map (fun o ho ↦ (h verb o ho).textual) ih
  exact hall Verb.all

theorem Components.Ordered.textual {c : Components} (h : c.Ordered) : c.toJson.Textual :=
  .record_map (fun ss hss ↦ .dict fun e he ↦ ((h ss hss).values e he).textual) .record_nil

theorem Document.Ordered.textual {d : Document} (h : d.Ordered) : d.toJson.Textual := by
  have paths : (Json.dict PathItem.toJson d.paths).Textual :=
    .dict fun e he ↦ (h.paths.values e he).textual
  exact .record_some (.str _) <| .record_some d.info.textual <|
    .record_map (fun ss _ ↦ .list fun s _ ↦ s.textual) <| .record_some paths <|
    .record_map (fun c hc ↦ (h.components c hc).textual) .record_nil

/-! ### Texts without other line breaks than line feeds -/

theorem Json.Textual.written {v : Json} (h : v.Textual)
    (hb : ∀ s ∈ v.texts, Yaml.Unbroken s.toList) : Yaml.Written v := by
  induction h with
  | bool b => exact .bool b
  | str s => exact .str (hb s (by simp [texts]))
  | arr _ ih => exact .arr fun v hv ↦ ih v hv fun s hs ↦ hb s (mem_texts_arr hv hs)
  | obj _ ih => exact .obj fun e he ↦ ih e he fun s hs ↦ hb s (mem_texts_obj he hs)

/-- None of U+0085, U+2028 and U+2029 stands in a text of the document. -/
def Document.Unbroken (d : Document) : Prop := ∀ s ∈ d.toJson.texts, Yaml.Unbroken s.toList

theorem Document.toJson_injective {d d' : Document} (h : d.Ordered) (h' : d'.Ordered)
    (he : d.toJson = d'.toJson) : d = d' := by
  have hd := Document.ofJson?_toJson h
  rw [he, Document.ofJson?_toJson h'] at hd
  exact (Option.some.inj hd).symm

/-- Documents that are written alike in YAML are one document. -/
theorem yaml_eq_iff {d d' : Document} (h : d.Ordered) (h' : d'.Ordered) (hb : d.Unbroken)
    (hb' : d'.Unbroken) : d.render .yaml = d'.render .yaml ↔ d = d' := by
  refine ⟨fun he ↦ Document.toJson_injective h h' ?_, congrArg (Document.render · .yaml)⟩
  have hmembers (d : Document) : ∃ e members, d.toJson = .obj (e :: members) := ⟨_, _, rfl⟩
  obtain ⟨e, members, hobj⟩ := hmembers d
  obtain ⟨e', members', hobj'⟩ := hmembers d'
  have hw := h.textual.written hb
  have hw' := h'.textual.written hb'
  rw [Document.render, Document.render, hobj, hobj'] at he
  rw [hobj] at hw ⊢
  rw [hobj'] at hw' ⊢
  rw [Yaml.render_obj_injective hw hw' (List.cons_ne_nil _ _) (List.cons_ne_nil _ _) he]

namespace Document

/-- The document with no servers in place of an empty list of them. -/
def serverless : Document := { sparse with servers := none }

theorem serverless_ordered : serverless.Ordered := ⟨sparse_ordered.paths, sparse_ordered.components⟩

theorem unbroken_of_all {d : Document} (h : d.toJson.texts.all fun s ↦
    s.toList.all fun c ↦ !Yaml.isBreak c || c == '\n') : d.Unbroken := by
  intro s hs c hc hb
  have hall := List.all_eq_true.mp (List.all_eq_true.mp h s hs) c hc
  simpa [hb] using hall

theorem sparse_unbroken : sparse.Unbroken := unbroken_of_all (by decide +kernel)

theorem serverless_unbroken : serverless.Unbroken := unbroken_of_all (by decide +kernel)

theorem serverless_yaml_eq_iff :
    (sparse.Ordered ∧ serverless.Ordered ∧ sparse.Unbroken ∧ serverless.Unbroken) ∧
      (sparse.render .yaml = serverless.render .yaml ↔ sparse = serverless) :=
  ⟨⟨sparse_ordered, serverless_ordered, sparse_unbroken, serverless_unbroken⟩,
    yaml_eq_iff sparse_ordered serverless_ordered sparse_unbroken serverless_unbroken⟩

end Document

end GoOpenApi
