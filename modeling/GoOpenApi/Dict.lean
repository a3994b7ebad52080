/-!
Finite maps as lists of pairs. A dictionary is keyed by texts and kept in the order of their
code points; an insertion at a key that is present replaces the value.
-/

namespace GoOpenApi

abbrev Dict (α : Type u) := List (String × α)

namespace Dict

variable {α : Type u}

def insert (key : String) (value : α) : Dict α → Dict α
  | [] => [(key, value)]
  | (k, v) :: rest =>
    if key = k then (key, value) :: rest
    else if key < k then (key, value) :: (k, v) :: rest
    else (k, v) :: insert key value rest

def find? (key : String) (d : Dict α) : Option α := d.lookup key

def contains (key : String) (d : Dict α) : Bool := (d.find? key).isSome

def keys (d : Dict α) : List String := d.map (·.1)

def ofList (pairs : List (String × α)) : Dict α :=
  pairs.foldl (fun d (key, value) ↦ d.insert key value) []

/-- The keys ascend, so each occurs once. -/
def Ordered (d : Dict α) : Prop := d.Pairwise fun p q ↦ p.1 < q.1

theorem ordered_nil : Ordered ([] : Dict α) := List.Pairwise.nil

@[simp] theorem find?_nil (key : String) : find? key ([] : Dict α) = none := rfl

theorem find?_cons (key : String) (entry : String × α) (d : Dict α) :
    find? key (entry :: d) = if key = entry.1 then some entry.2 else find? key d := by
  obtain ⟨k, v⟩ := entry
  simp only [find?, List.lookup_cons]
  split <;> simp_all

theorem find?_insert (key k : String) (v : α) (d : Dict α) :
    find? key (insert k v d) = if key = k then some v else find? key d := by
  induction d with
  | nil => simp [insert, find?_cons]
  | cons entry d ih =>
    simp only [insert]
    split
    · simp only [find?_cons]; grind
    · split
      · simp only [find?_cons]
      · simp only [find?_cons, ih]; grind

theorem mem_insert {entry : String × α} {k : String} {v : α} {d : Dict α}
    (h : entry ∈ insert k v d) : entry = (k, v) ∨ entry ∈ d := by
  induction d with
  | nil => simpa [insert] using h
  | cons first d ih =>
    simp only [insert] at h
    split at h
    · exact (List.mem_cons.mp h).imp_right (List.mem_cons_of_mem _)
    · split at h
      · exact List.mem_cons.mp h
      · rcases List.mem_cons.mp h with rfl | h
        · exact .inr List.mem_cons_self
        · exact (ih h).imp_right (List.mem_cons_of_mem _)

theorem mem_keys_iff {key : String} {d : Dict α} : key ∈ keys d ↔ ∃ v, find? key d = some v := by
  induction d with
  | nil => simp [keys]
  | cons entry d ih =>
    rw [keys, List.map_cons, List.mem_cons, find?_cons]
    split <;> simp_all [keys]

theorem contains_iff {key : String} {d : Dict α} : contains key d ↔ key ∈ keys d := by
  rw [mem_keys_iff, contains, Option.isSome_iff_exists]

theorem mem_keys_insert {key k : String} {v : α} {d : Dict α} :
    key ∈ keys (insert k v d) ↔ key = k ∨ key ∈ keys d := by
  simp only [mem_keys_iff, find?_insert]
  split <;> simp_all

theorem mem_of_find? {key : String} {v : α} {d : Dict α} (h : find? key d = some v) :
    (key, v) ∈ d := by
  obtain ⟨l, l', rfl, -⟩ := List.lookup_eq_some_iff.mp h
  simp

theorem mem_ofList {entry : String × α} {pairs : List (String × α)}
    (h : entry ∈ ofList pairs) : entry ∈ pairs := by
  have hall : ∀ entry ∈ ofList pairs, entry ∈ pairs := by
    refine List.foldlRecOn (motive := (∀ entry ∈ ·, entry ∈ pairs)) pairs _ nofun ?_
    intro d hd pair hp entry he
    rcases mem_insert he with rfl | he
    · exact hp
    · exact hd entry he
  exact hall entry h

theorem mem_keys_ofList {key : String} {pairs : List (String × α)} :
    key ∈ keys (ofList pairs) ↔ key ∈ pairs.map (·.1) := by
  have hf (d : Dict α) : key ∈ keys (pairs.foldl (fun d pair ↦ insert pair.1 pair.2 d) d) ↔
      key ∈ keys d ∨ key ∈ pairs.map (·.1) := by
    induction pairs generalizing d with
    | nil => simp
    | cons pair pairs ih => rw [List.foldl_cons, ih, mem_keys_insert]; grind
  exact (hf []).trans (by simp [keys])

end Dict

/-- A map whose order no answer shows: the entry that was added last stands first. -/
abbrev Table (κ : Type u) (α : Type v) := List (κ × α)

namespace Table

variable {κ : Type u} {α : Type v} [BEq κ]

def find? (key : κ) (t : Table κ α) : Option α := t.lookup key

def contains (key : κ) (t : Table κ α) : Bool := (t.find? key).isSome

def insert (key : κ) (value : α) (t : Table κ α) : Table κ α :=
  (key, value) :: t.filter fun entry ↦ !entry.1 == key

theorem contains_iff {key : κ} {t : Table κ α} : contains key t ↔ ∃ v, find? key t = some v :=
  Option.isSome_iff_exists

variable [LawfulBEq κ]

theorem find?_insert [DecidableEq κ] (key k : κ) (v : α) (t : Table κ α) :
    find? key (insert k v t) = if key = k then some v else find? key t := by
  have h (h : key ≠ k) : (t.filter fun entry ↦ !entry.1 == k).lookup key = t.lookup key := by
    induction t with
    | nil => rfl
    | cons entry t ih => grind
  simp only [find?, insert, List.lookup_cons]
  grind

theorem mem_of_find? {key : κ} {v : α} {t : Table κ α} (h : find? key t = some v) :
    (key, v) ∈ t := by
  obtain ⟨l, l', rfl, -⟩ := List.lookup_eq_some_iff.mp h
  simp

end Table

end GoOpenApi
