import GoOpenApi.Proofs.Json.Parts

/-!
Values of texts and truth values, in which no number and no null stands.
-/

namespace GoOpenApi.Json

mutual

/-- The texts in a value, at any depth. Keys are not among them. -/
def texts : Json → List String
  | .str s => [s]
  | .arr items => textsOfItems items
  | .obj members => textsOfMembers members
  | .null | .bool _ | .num _ => []

def textsOfItems : List Json → List String
  | [] => []
  | v :: items => texts v ++ textsOfItems items

def textsOfMembers : List (String × Json) → List String
  | [] => []
  | (_, v) :: members => texts v ++ textsOfMembers members

end

variable {α : Type} {v : Json} {s key : String}

theorem mem_texts_arr {items : List Json} (hv : v ∈ items) (hs : s ∈ v.texts) :
    s ∈ (arr items).texts := by
  rw [texts]
  induction items with
  | nil => cases hv
  | cons w items ih =>
    rw [textsOfItems, List.mem_append]
    rcases List.mem_cons.mp hv with rfl | hv
    · exact .inl hs
    · exact .inr (ih hv)

theorem mem_texts_obj {members : List (String × Json)} {e : String × Json} (he : e ∈ members)
    (hs : s ∈ e.2.texts) : s ∈ (obj members).texts := by
  rw [texts]
  induction members with
  | nil => cases he
  | cons f members ih =>
    rw [textsOfMembers, List.mem_append]
    rcases List.mem_cons.mp he with rfl | he
    · exact .inl hs
    · exact .inr (ih he)

/-- Texts and truth values in lists and objects. -/
inductive Textual : Json → Prop where
  | bool (b : Bool) : Textual (.bool b)
  | str (s : String) : Textual (.str s)
  | arr {items : List Json} (h : ∀ v ∈ items, Textual v) : Textual (.arr items)
  | obj {members : List (String × Json)} (h : ∀ e ∈ members, Textual e.2) : Textual (.obj members)

namespace Textual

theorem list {encode : α → Json} {as : List α} (h : ∀ a ∈ as, (encode a).Textual) :
    (Json.arr (as.map encode)).Textual := by
  refine .arr fun v hv ↦ ?_
  obtain ⟨a, ha, rfl⟩ := List.mem_map.mp hv
  exact h a ha

theorem strings (ss : List String) : (Json.strings ss).Textual :=
  .list fun s _ ↦ .str s

theorem dict {encode : α → Json} {d : Dict α} (h : ∀ e ∈ d, (encode e.2).Textual) :
    (Json.dict encode d).Textual := by
  refine .obj fun e he ↦ ?_
  obtain ⟨entry, hentry, rfl⟩ := List.mem_map.mp he
  exact h entry hentry

theorem record_nil : (Json.record []).Textual := .obj (List.forall_mem_nil _)

/-- A member that is there or not. -/
theorem record_cons {v? : Option Json} {members : List (String × Option Json)}
    (hv : ∀ v, v? = some v → v.Textual) (h : (Json.record members).Textual) :
    (Json.record ((key, v?) :: members)).Textual := by
  cases v? with
  | none => exact h
  | some v =>
    obtain _ | _ | _ | h := h
    exact .obj (List.forall_mem_cons.mpr ⟨hv v rfl, h⟩)

theorem record_some {members : List (String × Option Json)} (hv : v.Textual)
    (h : (Json.record members).Textual) : (Json.record ((key, some v) :: members)).Textual := by
  refine record_cons ?_ h
  rintro _ ⟨⟩
  exact hv

theorem record_map {encode : α → Json} {a? : Option α} {members : List (String × Option Json)}
    (ha : ∀ a, a? = some a → (encode a).Textual) (h : (Json.record members).Textual) :
    (Json.record ((key, a?.map encode) :: members)).Textual := by
  refine record_cons ?_ h
  intro v hv
  obtain ⟨a, hsome, rfl⟩ := Option.map_eq_some_iff.mp hv
  exact ha a hsome

end Textual

end GoOpenApi.Json
