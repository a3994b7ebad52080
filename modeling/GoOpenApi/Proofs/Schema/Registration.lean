import GoOpenApi.Proofs.Schema.Walk
import Mathlib.Data.List.Perm.Subperm
import Mathlib.Data.List.Nodup
import Mathlib.Data.Set.Basic

/-!
What a registry keeps while schemas are made. Ids stay with their types, no two types share one,
and a walk stores a schema at every id that it gives out and at no other.
-/

namespace GoOpenApi.Registry

variable {r r' r'' : Registry} {q q' : QualifiedName} {id : String}

/-- Types and ids belong to each other one to one. -/
def Coherent (r : Registry) : Prop := ∀ q id, r.idOf? q = some id ↔ r.ownerOf? id = some q

theorem coherent_empty : empty.Coherent := by simp [Coherent, idOf?, ownerOf?, empty, Table.find?]

theorem Coherent.inj (h : r.Coherent) (hq : r.idOf? q = some id) (hq' : r.idOf? q' = some id) :
    q = q' :=
  Option.some.inj (((h q id).mp hq).symm.trans ((h q' id).mp hq'))

section

variable (r) (name : String)

theorem repr_injective {m n : Nat} (h : toString m = toString n) : m = n := by
  have h : Nat.toDigits 10 m = Nat.toDigits 10 n := by
    simpa using congrArg String.toList h
  simpa [Nat.ofDigitChars_ten_toDigits] using congrArg (Nat.ofDigitChars 10 · 0) h

/-- The search passes over taken ids only and ends at a free one, or after `n` tries. -/
theorem freeFrom_eq (k n : Nat) :
    ∃ i ≤ n, r.freeFrom name k n = name ++ toString (k + i) ∧
      (∀ j < i, name ++ toString (k + j) ∈ Dict.keys r.owners) ∧
      (i < n → name ++ toString (k + i) ∉ Dict.keys r.owners) := by
  induction n generalizing k with
  | zero => exact ⟨0, Nat.le_refl 0, rfl, nofun, nofun⟩
  | succ n ih =>
    rw [freeFrom]
    split
    · rename_i hk
      obtain ⟨i, hi, he, htaken, hfree⟩ := ih (k + 1)
      have hnext (j : Nat) : k + 1 + j = k + (j + 1) := by omega
      simp only [hnext] at he htaken hfree
      refine ⟨i + 1, by omega, he, fun j hj ↦ ?_, fun hn ↦ hfree (by omega)⟩
      cases j with
      | zero => exact Dict.contains_iff.mp hk
      | succ j => exact htaken j (by omega)
    · rename_i hk
      exact ⟨0, by omega, rfl, nofun, fun _ hm ↦ hk (Dict.contains_iff.mpr hm)⟩

/-- There are fewer taken ids than are tried. -/
theorem freeId_free : ¬Dict.contains (r.freeId name) r.owners := by
  intro h
  rw [freeId] at h
  split at h
  · rename_i hn
    obtain ⟨i, hi, he, htaken, hfree⟩ := freeFrom_eq r name 2 r.owners.length
    rw [he, Dict.contains_iff] at h
    obtain rfl : i = r.owners.length := by
      by_contra hne
      exact hfree (by omega) h
    let tried := name :: (List.range r.owners.length).map fun i ↦ name ++ toString (2 + i)
    have hnodup : tried.Nodup := by
      refine List.nodup_cons.mpr ⟨?_, List.Nodup.map (fun i j h ↦ ?_) List.nodup_range⟩
      · simp
      · have := repr_injective ((String.append_right_inj name).mp h)
        omega
    have hsub : tried ⊆ Dict.keys r.owners := by
      refine List.cons_subset.mpr ⟨Dict.contains_iff.mp hn, fun id hid ↦ ?_⟩
      obtain ⟨i, hi, rfl⟩ := List.mem_map.mp hid
      exact htaken i (List.mem_range.mp hi)
    have hlen := (List.subperm_of_subset hnodup hsub).length_le
    simp only [tried, Dict.keys, List.length_cons, List.length_map, List.length_range] at hlen
    omega
  · exact absurd h ‹_›

theorem ownerOf?_freeId : r.ownerOf? (r.freeId name) = none := by
  simpa [Dict.contains, ownerOf?] using freeId_free r name

end

theorem Coherent.ne_freeId (h : r.Coherent) (hq : r.idOf? q = some id) (name : String) :
    id ≠ r.freeId name := by
  rintro rfl
  have hq := (h _ _).mp hq
  rw [ownerOf?_freeId] at hq
  cases hq

theorem idOf?_register_self (r : Registry) (q : QualifiedName) :
    (r.register q).2.2.idOf? q = some (r.register q).1 := by
  cases hq : r.idOf? q with
  | some id => simp [register, hq]
  | none =>
    rw [register_of_none hq]
    exact (Table.find?_insert ..).trans (if_pos rfl)

theorem idOf?_register_of_ne (h : q' ≠ q) : (r.register q).2.2.idOf? q' = r.idOf? q' := by
  cases hq : r.idOf? q with
  | some id => simp [register, hq]
  | none =>
    rw [register_of_none hq]
    exact (Table.find?_insert ..).trans (if_neg h)

theorem idOf?_register_of_some (h : r.idOf? q' = some id) :
    (r.register q).2.2.idOf? q' = some id := by
  by_cases hq : q' = q
  · subst hq
    simp [register, h]
  · rw [idOf?_register_of_ne hq, h]

theorem ownerOf?_register (h : r.idOf? q = none) (id : String) :
    (r.register q).2.2.ownerOf? id = if id = r.freeId q.name then some q else r.ownerOf? id := by
  rw [register_of_none h]
  exact Dict.find?_insert ..

@[simp] theorem schemas_register (q : QualifiedName) :
    (r.register q).2.2.schemas = r.schemas := by
  unfold register
  split <;> rfl

@[simp] theorem idOf?_setSchema (s : Schema) : (r.setSchema id s).idOf? q = r.idOf? q := rfl

@[simp] theorem schemas_setSchema (s : Schema) :
    (r.setSchema id s).schemas = Dict.insert id s r.schemas := rfl

theorem Coherent.register (h : r.Coherent) (q : QualifiedName) :
    (r.register q).2.2.Coherent := by
  cases hq : r.idOf? q with
  | some id => simpa [Registry.register, hq] using h
  | none =>
    intro k id
    rw [ownerOf?_register hq]
    by_cases hk : k = q
    · subst hk
      rw [idOf?_register_self, register_of_none hq]
      by_cases hid : id = r.freeId k.name
      · simp [hid]
      · simp only [if_neg hid, Option.some.injEq]
        exact ⟨fun h ↦ absurd h.symm hid, fun ho ↦ by simp [(h k id).mpr ho] at hq⟩
    · rw [idOf?_register_of_ne hk]
      by_cases hid : id = r.freeId q.name
      · simp only [hid, if_true, Option.some.injEq, Ne.symm hk, iff_false]
        exact fun hi ↦ h.ne_freeId hi q.name rfl
      · simpa only [if_neg hid] using h k id

/-- What making schemas keeps: all ids, and the schemas of all types that had an id but those in
`changed`. Each id given out has a schema in the end, and nothing else has. -/
structure Grows (changed : Set QualifiedName) (r r' : Registry) : Prop where
  coherent : r'.Coherent
  ids {q : QualifiedName} {id : String} : r.idOf? q = some id → r'.idOf? q = some id
  kept {q : QualifiedName} {id : String} : q ∉ changed → r.idOf? q = some id →
    Dict.find? id r'.schemas = Dict.find? id r.schemas
  keys {id : String} : id ∈ Dict.keys r.schemas → id ∈ Dict.keys r'.schemas
  stored {q : QualifiedName} {id : String} : r.idOf? q = none → r'.idOf? q = some id →
    id ∈ Dict.keys r'.schemas
  owned {id : String} : id ∈ Dict.keys r'.schemas →
    id ∈ Dict.keys r.schemas ∨ ∃ q, r'.idOf? q = some id

namespace Grows

variable {changed changed' : Set QualifiedName}

theorem refl (h : r.Coherent) : r.Grows changed r where
  coherent := h
  ids := id
  kept _ _ := rfl
  keys := id
  stored hn hs := by simp [hn] at hs
  owned := .inl

theorem trans (h : r.Grows changed r') (h' : r'.Grows changed r'') : r.Grows changed r'' where
  coherent := h'.coherent
  ids hq := h'.ids (h.ids hq)
  kept ho hq := (h'.kept ho (h.ids hq)).trans (h.kept ho hq)
  keys hid := h'.keys (h.keys hid)
  stored {q id} hn hs := by
    cases hq : r'.idOf? q with
    | none => exact h'.stored hq hs
    | some id' =>
      obtain rfl : id' = id := Option.some.inj ((h'.ids hq).symm.trans hs)
      exact h'.keys (h.stored hn hq)
  owned hid := by
    rcases h'.owned hid with hid | hid
    · exact (h.owned hid).imp_right fun ⟨q, hq⟩ ↦ ⟨q, h'.ids hq⟩
    · exact .inr hid

theorem mono (h : r.Grows changed r') (ho : changed ⊆ changed') : r.Grows changed' r' :=
  { h with kept := fun hq ↦ h.kept fun hm ↦ hq (ho hm) }

/-- A type registered, its body walked and its schema stored. -/
theorem component (h : (r.register q).2.2.Grows changed r') (hq : q ∈ changed ∨ r.idOf? q = none)
    (s : Schema) : r.Grows changed (r'.setSchema (r.register q).1 s) := by
  have hown : r'.idOf? q = some (r.register q).1 := h.ids (idOf?_register_self r q)
  refine ⟨h.coherent, fun hk ↦ h.ids (idOf?_register_of_some hk), fun {k id} ho hk ↦ ?_,
    fun {id} hid ↦ ?_, fun {k id} hn hs ↦ ?_, fun {id} hid ↦ ?_⟩
  · have hne : k ≠ q := by
      rintro rfl
      rcases hq with hq | hq
      · exact ho hq
      · simp [hq] at hk
    have hreg := idOf?_register_of_some (q := q) hk
    have hid : id ≠ (r.register q).1 := by
      rintro rfl
      exact hne (h.coherent.inj (h.ids hreg) hown)
    rw [schemas_setSchema, Dict.find?_insert, if_neg hid, h.kept ho hreg, schemas_register]
  · rw [schemas_setSchema, Dict.mem_keys_insert]
    exact .inr (h.keys (by rwa [schemas_register]))
  · rw [schemas_setSchema, Dict.mem_keys_insert]
    by_cases hk : k = q
    · subst hk
      exact .inl (Option.some.inj (hs.symm.trans hown))
    · exact .inr (h.stored (by rw [idOf?_register_of_ne hk, hn]) hs)
  · rw [schemas_setSchema, Dict.mem_keys_insert] at hid
    rcases hid with rfl | hid
    · exact .inr ⟨q, hown⟩
    · simpa using h.owned hid

end Grows

end GoOpenApi.Registry

namespace GoOpenApi

variable {definitions : Table QualifiedName Shape}

mutual

theorem Walk.grows {shape : Shape} {r r' : Registry} {s : Schema}
    (h : Walk definitions shape r s r') (hr : r.Coherent) : r.Grows ∅ r' := by
  match h with
  | .primitive _ _ | .unresolved _ _ | .interface _ _ | .known _ | .undefined _ _ | .scalar _ _
  | .namedInterface _ _ => exact .refl hr
  | .alias h | .pointer h | .array h | .map h => exact h.grows hr
  | .record h => exact h.grows hr
  | .component (q := q) (s := s) hq _ _ h =>
    have hw := (h.grows (hr.register q)).component (.inr hq) s
    rwa [Registry.register_of_none hq] at hw

theorem Walks.grows {shapes : List Shape} {r r' : Registry} {ss : List Schema}
    (h : Walks definitions shapes r ss r') (hr : r.Coherent) : r.Grows ∅ r' := by
  match h with
  | .nil _ => exact .refl hr
  | .cons h hs => exact (h.grows hr).trans (hs.grows (h.grows hr).coherent)

end

end GoOpenApi
