import GoOpenApi.Proofs.Json.Parts

/-!
Schemas are read back from the JSON values that they are written as.
-/

namespace GoOpenApi.Schema

open Json

/-- The properties of the schema, at any depth, are dictionaries. -/
inductive Ordered : Schema → Prop where
  | intro {s : Schema} (properties : ∀ ps, s.properties = some ps → Dict.Ordered ps)
    (values : ∀ ps, s.properties = some ps → ∀ e ∈ ps, Ordered e.2)
    (items : ∀ u, s.items = some u → Ordered u)
    (additional : ∀ u, s.additionalProperties = some u → Ordered u)
    (choices : ∀ us, s.oneOf = some us → ∀ u ∈ us, Ordered u) : Ordered s

theorem propertiesToJson_eq (ps : List (String × Schema)) :
    obj (propertiesToJson ps) = dict toJson ps := by
  have h : propertiesToJson ps = ps.map fun e ↦ (e.1, e.2.toJson) := by
    induction ps with
    | nil => rfl
    | cons e ps ih =>
      obtain ⟨key, s⟩ := e
      rw [propertiesToJson, ih, List.map_cons]
  rw [h]
  rfl

theorem listToJson_eq (ss : List Schema) : listToJson ss = ss.map toJson := by
  induction ss with
  | nil => rfl
  | cons s ss ih => rw [listToJson, ih, List.map_cons]

theorem toJson_eq (s : Schema) : s.toJson =
    .record [("type", s.type.map .str), ("format", s.format.map .str),
      ("description", s.description.map .str), ("properties", s.properties.map (.dict toJson)),
      ("required", s.required.map .strings), ("items", s.items.map toJson),
      ("additionalProperties", s.additionalProperties.map toJson),
      ("$ref", s.reference.map .str), ("oneOf", s.oneOf.map fun ss ↦ .arr (ss.map toJson))] := by
  obtain ⟨type, format, description, properties, required, items, additional, reference, oneOf⟩ := s
  rw [toJson.eq_def]
  cases properties <;> cases items <;> cases additional <;> cases oneOf <;>
    simp [propertiesToJson_eq, listToJson_eq]

theorem toJson_ne_null (s : Schema) : s.toJson ≠ .null := by
  rw [toJson_eq]
  exact obj_ne_null _

/-- The schema is read back with any bound from its depth on. -/
def ReadBack (s : Schema) : Prop := ∀ n, s.toJson.depth ≤ n → ofJsonWithin? n s.toJson = some s

section Parts

variable {v : Json} {key : String} {n : Nat}

theorem optional?_schema {u? : Option Schema} (h : v.get? key = u?.map toJson)
    (hn : v.depth ≤ n + 1) (hu : ∀ u, u? = some u → u.ReadBack) :
    v.optional? key (ofJsonWithin? n) = some u? := by
  refine optional?_of_get? h toJson_ne_null fun u hsome ↦ ?_
  rw [hsome, Option.map_some] at h
  exact hu u hsome n (depth_le_of_get? h hn)

theorem optional?_schemas {us? : Option (List Schema)}
    (h : v.get? key = us?.map fun us ↦ .arr (us.map toJson)) (hn : v.depth ≤ n + 1)
    (hus : ∀ us, us? = some us → ∀ u ∈ us, u.ReadBack) :
    v.optional? key (list? (ofJsonWithin? n)) = some us? := by
  refine optional?_of_get? h (fun _ ↦ arr_ne_null _) fun us hsome ↦ list?_arr fun u hu ↦ ?_
  rw [hsome, Option.map_some] at h
  have hd := depth_le_of_get? h hn
  have hu' : u.toJson ∈ us.map toJson := List.mem_map_of_mem hu
  exact hus us hsome u hu n (Nat.le_of_lt (Nat.lt_of_lt_of_le (depth_lt_of_mem_arr hu') hd))

theorem optional?_properties {ps? : Option (Dict Schema)} (h : v.get? key = ps?.map (dict toJson))
    (hn : v.depth ≤ n + 1) (hps : ∀ ps, ps? = some ps → ∀ e ∈ ps, e.2.ReadBack) :
    v.optional? key (dict? (ofJsonWithin? n)) = some ps? := by
  refine optional?_of_get? h (fun _ ↦ obj_ne_null _) fun ps hsome ↦ dict?_dict fun e he ↦ ?_
  rw [hsome, Option.map_some] at h
  have hd := depth_le_of_get? h hn
  have he' : (e.1, e.2.toJson) ∈ ps.map fun e ↦ (e.1, e.2.toJson) := List.mem_map_of_mem he
  exact hps ps hsome e he n (Nat.le_of_lt (Nat.lt_of_lt_of_le (depth_lt_of_mem_obj he') hd))

end Parts

theorem Ordered.readBack {s : Schema} (h : s.Ordered) : s.ReadBack := by
  induction h with
  | @intro s hp _ _ _ _ ihv ihi iha ihc =>
    intro n hn
    obtain _ | n := n
    · exact absurd hn (Nat.not_le.mpr s.toJson.depth_pos)
    have hmembers : ∃ members, s.toJson.members? = some members := by
      rw [toJson_eq]
      exact ⟨_, rfl⟩
    obtain ⟨members, hmembers⟩ := hmembers
    have htype : s.toJson.optional? "type" str? = some s.type :=
      optional?_str (by simp [toJson_eq])
    have hformat : s.toJson.optional? "format" str? = some s.format :=
      optional?_str (by simp [toJson_eq])
    have hdescription : s.toJson.optional? "description" str? = some s.description :=
      optional?_str (by simp [toJson_eq])
    have hproperties : s.toJson.optional? "properties" (dict? (ofJsonWithin? n)) =
        some s.properties := optional?_properties (by simp [toJson_eq]) hn ihv
    have hrequired : s.toJson.optional? "required" strings? = some s.required := by
      have hget : s.toJson.get? "required" = s.required.map strings := by simp [toJson_eq]
      exact optional?_of_get? hget (fun _ ↦ arr_ne_null _) fun ss _ ↦ strings?_strings ss
    have hitems : s.toJson.optional? "items" (ofJsonWithin? n) = some s.items :=
      optional?_schema (by simp [toJson_eq]) hn ihi
    have hadditional : s.toJson.optional? "additionalProperties" (ofJsonWithin? n) =
        some s.additionalProperties := optional?_schema (by simp [toJson_eq]) hn iha
    have hreference : s.toJson.optional? "$ref" str? = some s.reference :=
      optional?_str (by simp [toJson_eq])
    have hchoices : s.toJson.optional? "oneOf" (list? (ofJsonWithin? n)) = some s.oneOf :=
      optional?_schemas (by simp [toJson_eq]) hn ihc
    have hordered : s.properties.map Dict.ofList = s.properties := by
      cases hps : s.properties with
      | none => rfl
      | some ps => rw [Option.map_some, (hp ps hps).ofList_eq]
    simp only [ofJsonWithin?, hmembers, htype, hformat, hdescription, hproperties, hrequired,
      hitems, hadditional, hreference, hchoices, hordered, Option.bind_eq_bind, Option.bind_some]
    cases s
    rfl

theorem ofJson?_toJson {s : Schema} (h : s.Ordered) : ofJson? s.toJson = some s :=
  h.readBack _ Nat.le.refl

end GoOpenApi.Schema
