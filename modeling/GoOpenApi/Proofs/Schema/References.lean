import GoOpenApi.Proofs.Action
import GoOpenApi.Proofs.Schema.Registration

/-!
References in schemas. Between the calls of a generator every reference leads to a component that
is there.
-/

namespace GoOpenApi

namespace Schema

/-- The text of a reference that stands in a schema, at any depth. -/
inductive Mentions : Schema → String → Prop where
  | here {s : Schema} {text : String} : s.reference = some text → Mentions s text
  | property {s u : Schema} {properties : List (String × Schema)} {key text : String} :
    s.properties = some properties → (key, u) ∈ properties → Mentions u text → Mentions s text
  | items {s u : Schema} {text : String} : s.items = some u → Mentions u text → Mentions s text
  | additional {s u : Schema} {text : String} :
    s.additionalProperties = some u → Mentions u text → Mentions s text
  | choice {s u : Schema} {choices : List Schema} {text : String} :
    s.oneOf = some choices → u ∈ choices → Mentions u text → Mentions s text

/-- All references in the schema lead to components with these ids. -/
def Within (ids : Set String) (s : Schema) : Prop :=
  ∀ text, s.Mentions text → ∃ id ∈ ids, text = componentsPath ++ id

variable {ids ids' : Set String} {s : Schema}

theorem Within.mono (h : s.Within ids) (hsub : ids ⊆ ids') : s.Within ids' :=
  fun text ht ↦ (h text ht).imp fun _ ⟨hid, he⟩ ↦ ⟨hsub hid, he⟩

theorem within_iff : s.Within ids ↔
    (∀ text, s.reference = some text → ∃ id ∈ ids, text = componentsPath ++ id) ∧
    (∀ properties, s.properties = some properties → ∀ e ∈ properties, e.2.Within ids) ∧
    (∀ u, s.items = some u → u.Within ids) ∧
    (∀ u, s.additionalProperties = some u → u.Within ids) ∧
    (∀ choices, s.oneOf = some choices → ∀ u ∈ choices, u.Within ids) := by
  constructor
  · intro h
    exact ⟨fun text ht ↦ h text (.here ht), fun ps hp e he text ht ↦ h text (.property hp he ht),
      fun u hu text ht ↦ h text (.items hu ht), fun u hu text ht ↦ h text (.additional hu ht),
      fun us hus u hu text ht ↦ h text (.choice hus hu ht)⟩
  · rintro ⟨hr, hp, hi, ha, ho⟩ text ht
    cases ht with
    | here ht => exact hr text ht
    | property hs he ht => exact hp _ hs _ he text ht
    | items hs ht => exact hi _ hs text ht
    | additional hs ht => exact ha _ hs text ht
    | choice hs hu ht => exact ho _ hs _ hu text ht

theorem within_referenceTo {id : String} (h : id ∈ ids) : (referenceTo id).Within ids := by
  rw [within_iff]
  simpa [referenceTo] using h

theorem within_leaf (type format description : Option String) :
    Within ids { type := type, format := format, description := description } := by
  rw [within_iff]
  simp

theorem within_ofPrimitive (p : Primitive) : (ofPrimitive p).Within ids := by
  cases p <;> exact within_leaf _ _ _

theorem within_array : (array s).Within ids ↔ s.Within ids := by
  rw [within_iff]
  simp [array]

theorem within_map : (map s).Within ids ↔ s.Within ids := by
  rw [within_iff]
  simp [map]

end Schema

theorem Collected.mem_ofSchemas {supply : Supply} {ss : List Schema} {e : String × Schema}
    (h : e ∈ (ofSchemas supply ss).properties) : e.2 ∈ ss := by
  have hall : ∀ e ∈ ((supply.fields.zip ss).foldl addField {}).properties, e.2 ∈ ss := by
    refine List.foldlRecOn (motive := fun c : Collected ↦ ∀ e ∈ c.properties, e.2 ∈ ss) _ _
      nofun fun c hc pair hp e he ↦ ?_
    rcases Dict.mem_insert he with rfl | he
    · exact (List.of_mem_zip hp).2
    · exact hc e he
  exact hall e h

theorem Collected.within_toSchema {c : Collected} {ids : Set String}
    (h : ∀ e ∈ c.properties, e.2.Within ids) : c.toSchema.Within ids := by
  rw [Schema.within_iff]
  refine ⟨by simp [toSchema], fun ps hp ↦ ?_, by simp [toSchema], by simp [toSchema],
    by simp [toSchema]⟩
  simp only [toSchema] at hp
  split at hp
  · cases hp
  · exact Option.some.inj hp ▸ h

namespace Registry

variable {r r' : Registry}

/-- The ids that have been given out. -/
def idSet (r : Registry) : Set String := {id | ∃ q, r.idOf? q = some id}

/-- All references in stored schemas lead to ids that have been given out. -/
def Linked (r : Registry) : Prop := ∀ e ∈ r.schemas, e.2.Within r.idSet

theorem Grows.idSet_subset {changed : Set QualifiedName} (h : r.Grows changed r') :
    r.idSet ⊆ r'.idSet :=
  fun _ ⟨q, hq⟩ ↦ ⟨q, h.ids hq⟩

theorem Linked.setSchema {id : String} {s : Schema} (h : r.Linked) (hs : s.Within r.idSet) :
    (r.setSchema id s).Linked := by
  intro e he
  rcases Dict.mem_insert he with rfl | he
  · exact hs
  · exact h e he

theorem Linked.register (h : r.Linked) (q : QualifiedName) : (r.register q).2.2.Linked := by
  intro e he
  rw [schemas_register] at he
  exact (h e he).mono fun id ⟨k, hk⟩ ↦ ⟨k, idOf?_register_of_some hk⟩

end Registry

section

variable {definitions : Table QualifiedName Shape}

mutual

/-- A walk adds references only to ids that it has given out or found. -/
theorem Walk.linked {shape : Shape} {r r' : Registry} {s : Schema}
    (h : Walk definitions shape r s r') (hr : r.Coherent) (hl : r.Linked) :
    s.Within r'.idSet ∧ r'.Linked := by
  match h with
  | .primitive p _ | .scalar (p := p) _ _ => exact ⟨Schema.within_ofPrimitive p, hl⟩
  | .unresolved _ _ | .interface _ _ | .undefined _ _ | .namedInterface _ _ =>
    exact ⟨Schema.within_leaf _ _ _, hl⟩
  | .alias h | .pointer h => exact h.linked hr hl
  | .array h => exact (h.linked hr hl).imp_left Schema.within_array.mpr
  | .map h => exact (h.linked hr hl).imp_left Schema.within_map.mpr
  | .record h =>
    have hw := h.linked hr hl
    exact ⟨Collected.within_toSchema fun e he ↦ hw.1 _ (Collected.mem_ofSchemas he), hw.2⟩
  | .known (q := q) hq => exact ⟨Schema.within_referenceTo ⟨q, hq⟩, hl⟩
  | .component (q := q) (r := r) (s := s) hq _ _ h =>
    have hc := hr.register q
    have hw := h.linked hc (hl.register q)
    have hid := (h.grows hc).ids (Registry.idOf?_register_self r q)
    rw [Registry.register_of_none hq] at hid
    exact ⟨Schema.within_referenceTo ⟨q, hid⟩, hw.2.setSchema hw.1⟩

theorem Walks.linked {shapes : List Shape} {r r' : Registry} {ss : List Schema}
    (h : Walks definitions shapes r ss r') (hr : r.Coherent) (hl : r.Linked) :
    (∀ s ∈ ss, s.Within r'.idSet) ∧ r'.Linked := by
  match h with
  | .nil _ => exact ⟨fun _ hs ↦ absurd hs List.not_mem_nil, hl⟩
  | .cons h hs =>
    have hw := h.linked hr hl
    have hc := (h.grows hr).coherent
    have hws := hs.linked hc hw.2
    exact ⟨List.forall_mem_cons.mpr ⟨hw.1.mono (hs.grows hc).idSet_subset, hws.1⟩, hws.2⟩

end

end

/-- A registry between calls: a schema is stored at each id that has been given out and at no
other, and all references lead to such ids. -/
structure Registry.Settled (r : Registry) : Prop where
  coherent : r.Coherent
  linked : r.Linked
  keys_iff (id : String) : id ∈ Dict.keys r.schemas ↔ id ∈ r.idSet

namespace Registry.Settled

theorem empty : Registry.empty.Settled where
  coherent := coherent_empty
  linked := by simp [Linked, Registry.empty]
  keys_iff id := by simp [idSet, idOf?, Registry.empty, Dict.keys, Table.find?]

theorem grows {r r' : Registry} {changed : Set QualifiedName} (h : r.Settled)
    (g : r.Grows changed r') (hl : r'.Linked) : r'.Settled where
  coherent := g.coherent
  linked := hl
  keys_iff id := by
    constructor
    · intro hid
      rcases g.owned hid with hid | hid
      · exact g.idSet_subset ((h.keys_iff id).mp hid)
      · exact hid
    · rintro ⟨q, hq⟩
      cases hn : r.idOf? q with
      | none => exact g.stored hn hq
      | some id' =>
        obtain rfl : id' = id := Option.some.inj ((g.ids hn).symm.trans hq)
        exact g.keys ((h.keys_iff _).mpr ⟨q, hn⟩)

end Registry.Settled

end GoOpenApi
