import GoOpenApi.Dict
import Mathlib.Data.List.Induction
import Mathlib.Data.List.Perm.Lattice
import Mathlib.Data.String.Basic
import Mathlib.Tactic.Common

/-!
Dictionaries in the order of their keys. Their entries are what look-up finds, so that they are
equal when every look-up is; a dictionary made of pairs has the last value of each key.
-/

namespace GoOpenApi.Dict

variable {α : Type} {d d' : Dict α} {key : String}

instance : DecidablePred (Ordered (α := α)) := fun _ ↦
  inferInstanceAs (Decidable (List.Pairwise _ _))

theorem Ordered.insert (h : d.Ordered) (key : String) (value : α) :
    (d.insert key value).Ordered := by
  induction d with
  | nil => exact List.pairwise_singleton _ _
  | cons entry d ih =>
    obtain ⟨hlt, hd⟩ := List.pairwise_cons.mp h
    simp only [Dict.insert]
    split
    · rename_i heq
      exact List.pairwise_cons.mpr ⟨fun e he ↦ heq ▸ hlt e he, hd⟩
    · split
      · rename_i hk
        refine List.pairwise_cons.mpr ⟨fun e he ↦ ?_, h⟩
        rcases List.mem_cons.mp he with rfl | he
        · exact hk
        · exact hk.trans (hlt e he)
      · rename_i hne hk
        refine List.pairwise_cons.mpr ⟨fun e he ↦ ?_, ih hd⟩
        rcases mem_insert he with rfl | he
        · exact (not_lt.mp hk).lt_of_ne (Ne.symm hne)
        · exact hlt e he

theorem Ordered.keys (h : d.Ordered) : d.keys.Pairwise (· < ·) := List.pairwise_map.mpr h

theorem Ordered.find?_eq_some_iff (h : d.Ordered) {value : α} :
    d.find? key = some value ↔ (key, value) ∈ d := by
  refine ⟨mem_of_find?, fun hm ↦ ?_⟩
  induction d with
  | nil => cases hm
  | cons entry d ih =>
    obtain ⟨hlt, hd⟩ := List.pairwise_cons.mp h
    rw [find?_cons]
    rcases List.mem_cons.mp hm with rfl | hm
    · exact if_pos rfl
    · rw [if_neg (hlt _ hm).ne', ih hd hm]

theorem Ordered.ext (h : d.Ordered) (h' : d'.Ordered)
    (hf : ∀ key, d.find? key = d'.find? key) : d = d' := by
  have hn {d : Dict α} (h : d.Ordered) : d.Nodup :=
    h.imp fun hlt he ↦ hlt.ne (congrArg Prod.fst he)
  have hp : d.Perm d' := (List.perm_ext_iff_of_nodup (hn h) (hn h')).mpr fun ⟨key, value⟩ ↦ by
    rw [← h.find?_eq_some_iff, ← h'.find?_eq_some_iff, hf]
  exact hp.eq_of_pairwise (fun _ _ _ _ hlt hlt' ↦ absurd hlt' hlt.asymm) h h'

/-! ### Dictionaries made of pairs -/

theorem ordered_ofList (pairs : List (String × α)) : Ordered (ofList pairs) :=
  List.foldlRecOn pairs _ ordered_nil fun _ h e _ ↦ h.insert e.1 e.2

theorem ofList_concat (pairs : List (String × α)) (e : String × α) :
    ofList (pairs ++ [e]) = (ofList pairs).insert e.1 e.2 := by
  rw [ofList, List.foldl_append]
  rfl

/-- The last pair of a key counts. -/
theorem find?_ofList (key : String) (pairs : List (String × α)) :
    find? key (ofList pairs) = find? key pairs.reverse := by
  induction pairs using List.reverseRecOn with
  | nil => rfl
  | append_singleton pairs e ih =>
    rw [ofList_concat, find?_insert, ih, List.reverse_concat, find?_cons]

theorem insert_of_forall_lt (h : ∀ e ∈ d, e.1 < key) (value : α) :
    d.insert key value = d ++ [(key, value)] := by
  induction d with
  | nil => rfl
  | cons e d ih =>
    obtain ⟨k, v⟩ := e
    obtain ⟨hk, hd⟩ := List.forall_mem_cons.mp h
    have hne : key ≠ k := fun he ↦ String.lt_irrefl k (he ▸ hk)
    have hlt : ¬key < k := String.lt_asymm hk
    rw [insert, if_neg hne, if_neg hlt, ih hd, List.cons_append]

/-- Entries that ascend are a dictionary as they stand. -/
theorem Ordered.ofList_eq (h : d.Ordered) : ofList d = d := by
  have hf (d acc : Dict α) (h : (acc ++ d).Ordered) :
      d.foldl (fun d entry ↦ d.insert entry.1 entry.2) acc = acc ++ d := by
    induction d generalizing acc with
    | nil => simp
    | cons e d ih =>
      have hlt : ∀ e' ∈ acc, e'.1 < e.1 := fun e' he' ↦
        (List.pairwise_append.mp h).2.2 e' he' e List.mem_cons_self
      rw [List.append_cons] at h
      rw [List.foldl_cons, insert_of_forall_lt hlt, ih _ h, List.append_assoc]
      rfl
  exact hf d [] h

/-- The order in which the entries of a dictionary are put in makes no difference. -/
theorem Ordered.ofList_of_perm {pairs : List (String × α)} (h : d.Ordered) (hp : pairs.Perm d) :
    ofList pairs = d := by
  refine (ordered_ofList pairs).ext h fun key ↦ ?_
  cases hf : find? key (ofList pairs) with
  | some value =>
    have hm := hp.mem_iff.mp (mem_ofList (mem_of_find? hf))
    exact (h.find?_eq_some_iff.mpr hm).symm
  | none =>
    refine (Option.eq_none_iff_forall_ne_some.mpr fun value hv ↦ ?_).symm
    have hk : key ∈ pairs.map Prod.fst :=
      (hp.map Prod.fst).mem_iff.mpr (List.mem_map_of_mem (mem_of_find? hv))
    obtain ⟨value', hv'⟩ := mem_keys_iff.mp (mem_keys_ofList.mpr hk)
    rw [hf] at hv'
    cases hv'

end GoOpenApi.Dict
