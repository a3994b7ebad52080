import GoOpenApi.Document.Builder
import GoOpenApi.Proofs.Schema.Renaming

/-!
Parts of documents with other schemas in place of theirs. With the owners of the components in the
references, parts of two documents can be compared.
-/

namespace GoOpenApi

namespace Dict

variable {α β : Type}

def mapValues (f : α → β) (d : Dict α) : Dict β := d.map fun e ↦ (e.1, f e.2)

theorem mapValues_insert (f : α → β) (key : String) (v : α) (d : Dict α) :
    mapValues f (insert key v d) = insert key (f v) (mapValues f d) := map_insert f key v d

theorem mapValues_ofList (f : α → β) (pairs : List (String × α)) :
    mapValues f (ofList pairs) = ofList (pairs.map fun e ↦ (e.1, f e.2)) := by
  rw [ofList, ofList, List.foldl_map]
  exact (List.foldl_hom (mapValues f) fun d e ↦ (mapValues_insert f e.1 e.2 d).symm).symm

theorem find?_mapValues (f : α → β) (key : String) (d : Dict α) :
    find? key (mapValues f d) = (find? key d).map f := by
  induction d with
  | nil => rfl
  | cons e d ih =>
    rw [mapValues, List.map_cons, find?_cons, find?_cons]
    split
    · rfl
    · exact ih

theorem keys_mapValues (f : α → β) (d : Dict α) : keys (mapValues f d) = keys d := by
  rw [keys, mapValues, List.map_map]
  rfl

end Dict

section

variable (f : Schema → Schema)

def Parameter.mapSchemas (q : Parameter) : Parameter := { q with schema := f q.schema }

def MediaType.mapSchemas (m : MediaType) : MediaType := ⟨f m.schema⟩

def Header.mapSchemas (h : Header) : Header := { h with schema := f h.schema }

def RequestBody.mapSchemas (b : RequestBody) : RequestBody :=
  { b with content := b.content.mapValues (MediaType.mapSchemas f) }

def Response.mapSchemas (r : Response) : Response :=
  { r with
    headers := r.headers.map (Dict.mapValues (Header.mapSchemas f))
    content := r.content.map (Dict.mapValues (MediaType.mapSchemas f)) }

def Operation.mapSchemas (o : Operation) : Operation :=
  { o with
    parameters := o.parameters.map (List.map (Parameter.mapSchemas f))
    requestBody := o.requestBody.map (RequestBody.mapSchemas f)
    responses := o.responses.mapValues (Response.mapSchemas f) }

def PathItem.mapSchemas (item : PathItem) : PathItem where
  get := item.get.map (Operation.mapSchemas f)
  post := item.post.map (Operation.mapSchemas f)
  put := item.put.map (Operation.mapSchemas f)
  delete := item.delete.map (Operation.mapSchemas f)
  patch := item.patch.map (Operation.mapSchemas f)
  options := item.options.map (Operation.mapSchemas f)
  head := item.head.map (Operation.mapSchemas f)

theorem PathItem.at?_mapSchemas (item : PathItem) (v : Verb) :
    (item.mapSchemas f).at? v = (item.at? v).map (Operation.mapSchemas f) := by
  cases v <;> rfl

end

theorem PathItem.eq_of_at? {item item' : PathItem} (h : ∀ v, item.at? v = item'.at? v) :
    item = item' := by
  have hget := h .get
  have hpost := h .post
  have hput := h .put
  have hdelete := h .delete
  have hpatch := h .patch
  have hoptions := h .options
  have hhead := h .head
  cases item
  cases item'
  simp_all [PathItem.at?]

theorem Schema.mapReferences_record (f : String → String) (properties : List (String × Schema)) :
    (record properties).mapReferences f =
      record (properties.map fun e ↦ (e.1, e.2.mapReferences f)) := by
  have hp := (mapProperties_eq f _).trans (Dict.mapValues_ofList (mapReferences f) properties)
  have hk : (properties.map fun e ↦ (e.1, e.2.mapReferences f)).map (·.1) =
      properties.map (·.1) := by
    rw [List.map_map]
    rfl
  rw [record, record, hk, ← hp]
  rfl

/-- Envelopes refer to nothing but what they carry. -/
theorem mapReferences_envelope (f : String → String) (key : String) (payload? : Option Schema) :
    (envelope key payload?).mapReferences f =
      envelope key (payload?.map (Schema.mapReferences f)) := by
  rw [envelope, Schema.mapReferences_record, List.map_append]
  cases payload? <;> rfl

theorem mapReferences_errorEnvelope (f : String → String) :
    errorEnvelope.mapReferences f = errorEnvelope := by
  rw [errorEnvelope, Schema.mapReferences_record]
  rfl

theorem mapReferences_answer (f : String → String) (result? : Option Schema) :
    Schema.mapReferences f { oneOf := some [envelope "result" result?, errorEnvelope] } =
      { oneOf := some [envelope "result" (result?.map (Schema.mapReferences f)),
        errorEnvelope] } := by
  rw [← mapReferences_envelope]
  exact congrArg (fun e : Schema ↦ ({ oneOf := some [_, e] } : Schema))
    (mapReferences_errorEnvelope f)

/-- What stands in documents with two registries is the same up to the ids of components. -/
def SameUpToIds {α : Type} (map : (Schema → Schema) → α → α) (x y : α) (r r' : Registry) : Prop :=
  ∀ label, map (Schema.byOwner r label) x = map (Schema.byOwner r' label) y

namespace SameUpToIds

variable {α β γ : Type} {map : (Schema → Schema) → α → α} {x y : α} {r r' : Registry}

theorem lift {map' : (Schema → Schema) → β → β} (h : SameUpToIds map x y r r') (make : α → β)
    (hm : ∀ f x, map' (Schema.mapReferences f) (make x) = make (map (Schema.mapReferences f) x)) :
    SameUpToIds map' (make x) (make y) r r' := fun label ↦
  (hm _ x).trans ((congrArg make (h label)).trans (hm _ y).symm)

theorem lift₂ {map' : (Schema → Schema) → β → β} {map'' : (Schema → Schema) → γ → γ} {u v : β}
    (hx : SameUpToIds map x y r r') (hu : SameUpToIds map' u v r r') (make : α → β → γ)
    (hm : ∀ f x u, map'' (Schema.mapReferences f) (make x u) =
      make (map (Schema.mapReferences f) x) (map' (Schema.mapReferences f) u)) :
    SameUpToIds map'' (make x u) (make y v) r r' := fun label ↦
  (hm _ x u).trans ((congrArg₂ make (hx label) (hu label)).trans (hm _ y v).symm)

theorem insert {d d' : Dict α} {key key' : String}
    (hd : SameUpToIds (fun f ↦ Dict.mapValues (map f)) d d' r r') (hkey : key = key')
    (hx : SameUpToIds map x y r r') :
    SameUpToIds (fun f ↦ Dict.mapValues (map f)) (d.insert key x) (d'.insert key' y) r r' := by
  subst hkey
  intro label
  dsimp only
  rw [Dict.mapValues_insert, Dict.mapValues_insert, hx label]
  exact congrArg (Dict.insert key _) (hd label)

theorem cons {l l' : List α} (hx : SameUpToIds map x y r r')
    (hl : SameUpToIds (fun f ↦ List.map (map f)) l l' r r') :
    SameUpToIds (fun f ↦ List.map (map f)) (x :: l) (y :: l') r r' :=
  fun label ↦ congrArg₂ List.cons (hx label) (hl label)

theorem operation {o o' : Operation} {body body' : Option RequestBody}
    {responses responses' : Dict Response} (ho : SameUpToIds Operation.mapSchemas o o' r r')
    (hbody : SameUpToIds (fun f ↦ Option.map (RequestBody.mapSchemas f)) body body' r r')
    (hresponses : SameUpToIds (fun f ↦ Dict.mapValues (Response.mapSchemas f)) responses responses'
      r r') :
    SameUpToIds Operation.mapSchemas { o with requestBody := body, responses }
      { o' with requestBody := body', responses := responses' } r r' := by
  intro label
  obtain ⟨htags, hsummary, htext, hid, hdeprecated, hparameters, -, -⟩ :=
    Operation.mk.inj (ho label)
  unfold Operation.mapSchemas
  rw [Operation.mk.injEq]
  exact ⟨htags, hsummary, htext, hid, hdeprecated, hparameters, hbody label, hresponses label⟩

end SameUpToIds

end GoOpenApi
