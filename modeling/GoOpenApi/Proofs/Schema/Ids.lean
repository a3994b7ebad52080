import GoOpenApi.Proofs.Schema.Registration

/-!
The ids of a registry over any history of calls. Every name keeps the id that it was given when it
first came, and that was the first one free, in whatever order the names arrive.
-/

namespace GoOpenApi.Registry

/-- A call on a registry. -/
inductive Request where
  | register (q : QualifiedName)
  | setSchema (id : String) (s : Schema)

def Request.run (r : Registry) : Request → Registry
  | .register q => (r.register q).2.2
  | .setSchema id s => r.setSchema id s

def after (r : Registry) (requests : List Request) : Registry := requests.foldl Request.run r

def Request.names (requests : List Request) : List QualifiedName :=
  requests.filterMap fun
    | .register q => some q
    | .setSchema _ _ => none

/-- The id is that of a type. -/
def InUse (r : Registry) (id : String) : Prop := ∃ q, r.idOf? q = some id

/-- The name itself if it is not in use, else the name with the smallest number from 2 on behind it
that makes an id not in use. -/
inductive FirstFree (used : String → Prop) (name : String) : String → Prop where
  | bare : ¬used name → FirstFree used name name
  | numbered {k : Nat} : used name → 2 ≤ k →
      (∀ j, 2 ≤ j → j < k → used (name ++ toString j)) → ¬used (name ++ toString k) →
      FirstFree used name (name ++ toString k)

variable {r : Registry} {q : QualifiedName} {id : String}

theorem Coherent.inUse_iff (h : r.Coherent) : r.InUse id ↔ id ∈ Dict.keys r.owners := by
  rw [← Dict.contains_iff, Dict.contains, Option.isSome_iff_exists]
  exact exists_congr fun q ↦ h q id

theorem Coherent.firstFree (h : r.Coherent) (name : String) :
    FirstFree r.InUse name (r.freeId name) := by
  have hfree : ¬r.InUse (r.freeId name) := by
    rw [h.inUse_iff, ← Dict.contains_iff]
    exact r.freeId_free name
  revert hfree
  unfold freeId
  split
  · rename_i hn
    obtain ⟨i, -, he, htaken, -⟩ := r.freeFrom_eq name 2 r.owners.length
    rw [he]
    intro hfree
    refine .numbered (h.inUse_iff.mpr (Dict.contains_iff.mp hn)) (by omega) ?_ hfree
    intro j h2 hj
    obtain ⟨k, rfl⟩ := Nat.exists_eq_add_of_le h2
    exact h.inUse_iff.mpr (htaken k (by omega))
  · exact .bare

theorem Coherent.run (h : r.Coherent) (request : Request) : (request.run r).Coherent := by
  cases request with
  | register q => exact h.register q
  | setSchema id s => exact h

theorem idOf?_run (h : r.idOf? q = some id) (request : Request) :
    (request.run r).idOf? q = some id := by
  cases request with
  | register q' => exact idOf?_register_of_some h
  | setSchema id' s => exact h

theorem Coherent.after (h : r.Coherent) (requests : List Request) :
    (r.after requests).Coherent := by
  induction requests generalizing r with
  | nil => exact h
  | cons request requests ih => exact ih (h.run request)

theorem idOf?_after (h : r.idOf? q = some id) (requests : List Request) :
    (r.after requests).idOf? q = some id := by
  induction requests generalizing r with
  | nil => exact h
  | cons request requests ih => exact ih (idOf?_run h request)

/-- The names with an id are those that had one and those that were registered. -/
theorem exists_idOf?_after (requests : List Request) :
    (∃ id, (r.after requests).idOf? q = some id) ↔
      (∃ id, r.idOf? q = some id) ∨ q ∈ Request.names requests := by
  induction requests generalizing r with
  | nil => simp [after, Request.names]
  | cons request requests ih =>
    refine (ih (r := request.run r)).trans ?_
    cases request with
    | setSchema id s => exact Iff.rfl
    | register q' =>
      change (∃ id, (r.register q').2.2.idOf? q = some id) ∨ q ∈ Request.names requests ↔
        _ ∨ q ∈ q' :: Request.names requests
      rw [List.mem_cons]
      by_cases hq : q = q'
      · subst hq
        simp [idOf?_register_self]
      · rw [idOf?_register_of_ne hq]
        simp [hq]

/-- After any calls, types and ids belong to each other one to one, those with an id are those
registered, and an id is kept whatever comes later. A registered type gets its own id again, and a
new one the first that is free. -/
theorem ids_over_history (requests : List Request) :
    (∀ q id, (empty.after requests).idOf? q = some id ↔
      (empty.after requests).ownerOf? id = some q) ∧
    (∀ q, q ∈ Request.names requests ↔ ∃ id, (empty.after requests).idOf? q = some id) ∧
    (∀ q id, (empty.after requests).idOf? q = some id →
      (∀ later, (empty.after (requests ++ later)).idOf? q = some id) ∧
      (empty.after requests).register q = (id, false, empty.after requests)) ∧
    ∀ q, q ∉ Request.names requests → ∃ id r,
      (empty.after requests).register q = (id, true, r) ∧
      FirstFree (empty.after requests).InUse q.name id ∧ r.idOf? q = some id ∧
      r.ownerOf? id = some q := by
  have hc : (empty.after requests).Coherent := coherent_empty.after requests
  have hnames (q : QualifiedName) :
      (∃ id, (empty.after requests).idOf? q = some id) ↔ q ∈ Request.names requests := by
    rw [exists_idOf?_after]
    simp [empty, idOf?, Table.find?]
  refine ⟨hc, fun q ↦ (hnames q).symm, fun q id hq ↦ ⟨fun later ↦ ?_, ?_⟩, fun q hq ↦ ?_⟩
  · rw [after, List.foldl_append]
    exact idOf?_after hq later
  · simp [register, hq]
  · have hn : (empty.after requests).idOf? q = none := by
      rw [← Option.not_isSome_iff_eq_none, Option.isSome_iff_exists, hnames]
      exact hq
    have hid := idOf?_register_self (empty.after requests) q
    have hown := (hc.register q q _).mp hid
    rw [register_of_none hn] at hid hown ⊢
    exact ⟨_, _, rfl, hc.firstFree q.name, hid, hown⟩

/-- A declared type that is itself called `Order2` takes that id from the next `Order`. -/
example :
    let named (package name : String) : QualifiedName := ⟨package, name⟩
    let r := empty.after [.register (named "a" "Order"), .register (named "b" "Order2"),
      .register (named "c" "Order"), .register (named "a" "Order")]
    [named "a" "Order", named "b" "Order2", named "c" "Order"].map r.idOf? =
      [some "Order", some "Order2", some "Order3"] := by decide +kernel

end GoOpenApi.Registry
