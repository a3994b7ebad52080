import GoOpenApi.Document.Codec
import GoOpenApi.Proofs.Dict

/-!
The parts of a JSON value. An encoded record gives back each of its members, be it there or not,
and what stands inside a value is less deep than the value.
-/

namespace GoOpenApi

namespace Dict

variable {α : Type}

/-- An ordered dictionary of values that satisfy `P`. -/
structure AllOrdered (P : α → Prop) (d : Dict α) : Prop where
  ordered : d.Ordered
  values : ∀ e ∈ d, P e.2

end Dict

namespace Json

variable {α : Type} {key : String} {v w : Json} {decode : Json → Option α} {encode : α → Json}

@[simp] theorem get?_nil (key : String) : (obj []).get? key = none := rfl

@[simp] theorem get?_cons (key k : String) (v : Json) (members : List (String × Json)) :
    (obj ((k, v) :: members)).get? key = if key = k then some v else (obj members).get? key := by
  simp only [get?, List.lookup_cons]
  split <;> simp_all

@[simp] theorem get?_record_nil (key : String) : (record []).get? key = none := rfl

@[simp] theorem get?_record_cons (key k : String) (v? : Option Json)
    (members : List (String × Option Json)) :
    (record ((k, v?) :: members)).get? key =
      if key = k then v?.or ((record members).get? key) else (record members).get? key := by
  cases v? with
  | none => simp [record]
  | some v =>
    have hr : record ((k, some v) :: members) =
        obj ((k, v) :: members.filterMap fun e ↦ e.2.map (e.1, ·)) := rfl
    rw [hr, get?_cons]
    rfl

theorem depth_pos (v : Json) : 0 < v.depth := by
  cases v <;> simp [depth]

theorem depth_le_of_mem {items : List Json} (h : v ∈ items) : v.depth ≤ depthItems items := by
  induction items with
  | nil => cases h
  | cons w items ih =>
    rw [depthItems]
    rcases List.mem_cons.mp h with rfl | h
    · exact Nat.le_max_left _ _
    · exact Nat.le_trans (ih h) (Nat.le_max_right _ _)

theorem depth_le_of_mem_members {members : List (String × Json)} (h : (key, v) ∈ members) :
    v.depth ≤ depthMembers members := by
  induction members with
  | nil => cases h
  | cons e members ih =>
    obtain ⟨k, w⟩ := e
    rw [depthMembers]
    rcases List.mem_cons.mp h with h | h
    · cases h
      exact Nat.le_max_left _ _
    · exact Nat.le_trans (ih h) (Nat.le_max_right _ _)

theorem depth_lt_of_mem_arr {items : List Json} (h : v ∈ items) : v.depth < (arr items).depth := by
  rw [depth]
  have := depth_le_of_mem h
  omega

theorem depth_lt_of_mem_obj {members : List (String × Json)} (h : (key, v) ∈ members) :
    v.depth < (obj members).depth := by
  rw [depth]
  have := depth_le_of_mem_members h
  omega

theorem depthItems_le {items : List Json} {n : Nat} (h : (arr items).depth ≤ n) :
    depthItems items ≤ n := by
  rw [depth] at h
  omega

theorem depth_lt_of_get? (h : w.get? key = some v) : v.depth < w.depth := by
  cases w with
  | obj members =>
    obtain ⟨l, l', rfl, -⟩ := List.lookup_eq_some_iff.mp h
    exact depth_lt_of_mem_obj (List.mem_append_right _ List.mem_cons_self)
  | _ => cases h

theorem depth_le_of_get? {n : Nat} (h : w.get? key = some v) (hn : w.depth ≤ n + 1) :
    v.depth ≤ n := by
  have := depth_lt_of_get? h
  omega

theorem bool_ne_null (b : Bool) : bool b ≠ null := fun h ↦ Json.noConfusion h

theorem str_ne_null (s : String) : str s ≠ null := fun h ↦ Json.noConfusion h

theorem arr_ne_null (items : List Json) : arr items ≠ null := fun h ↦ Json.noConfusion h

theorem obj_ne_null (members : List (String × Json)) : obj members ≠ null :=
  fun h ↦ Json.noConfusion h

/-- An absent part is read as absent, and one that is there is not taken for null. -/
theorem optional?_of_get? {a? : Option α} (h : v.get? key = a?.map encode)
    (hn : ∀ a, encode a ≠ null) (ha : ∀ a, a? = some a → decode (encode a) = some a) :
    v.optional? key decode = some a? := by
  unfold optional?
  rw [h]
  cases a? with
  | none => rfl
  | some a =>
    rw [Option.map_some]
    split
    · contradiction
    · rename_i he
      exact absurd (Option.some.inj he) (hn a)
    · rename_i w _ he
      cases he
      rw [ha a rfl, Option.map_some]

theorem optional?_str {s? : Option String} (h : v.get? key = s?.map str) :
    v.optional? key str? = some s? :=
  optional?_of_get? h str_ne_null fun _ _ ↦ rfl

theorem default?_of_get? {absent a : α} {v? : Option Json} (h : v.get? key = v?)
    (hn : v? = none → absent = a) (hs : ∀ w, v? = some w → decode w = some a) :
    v.default? key absent decode = some a := by
  unfold default?
  rw [h]
  cases v? with
  | none => rw [hn rfl]
  | some w => exact hs w rfl

theorem mapM_map {β : Type} {f : α → β} {g : β → Option α} {as : List α}
    (h : ∀ a ∈ as, g (f a) = some a) : (as.map f).mapM g = some as := by
  induction as with
  | nil => rfl
  | cons a as ih =>
    obtain ⟨ha, has⟩ := List.forall_mem_cons.mp h
    rw [List.map_cons, List.mapM_cons, ha, ih has]
    rfl

theorem list?_arr {as : List α} (h : ∀ a ∈ as, decode (encode a) = some a) :
    list? decode (arr (as.map encode)) = some as := mapM_map h

theorem strings?_strings (ss : List String) : strings? (strings ss) = some ss :=
  list?_arr fun _ _ ↦ rfl

theorem dict?_dict {d : Dict α} (h : ∀ e ∈ d, decode (encode e.2) = some e.2) :
    dict? decode (dict encode d) = some d := by
  refine mapM_map (f := fun e : String × α ↦ (e.1, encode e.2)) fun e he ↦ ?_
  change (decode (encode e.2)).map (e.1, ·) = some e
  rw [h e he]
  rfl

theorem ordered?_dict {d : Dict α} (hd : d.Ordered)
    (h : ∀ e ∈ d, decode (encode e.2) = some e.2) : ordered? decode (dict encode d) = some d := by
  rw [ordered?, dict?_dict h, Option.map_some, hd.ofList_eq]

end Json

end GoOpenApi
