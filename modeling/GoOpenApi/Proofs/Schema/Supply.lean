import GoOpenApi.Schema.Generator
import Mathlib.Data.List.Basic

/-!
The fields that supply the properties of a record. Which fields they are depends on the names and
the embedded types alone, so they are found without making a schema.
-/

namespace GoOpenApi

/-- The property that a field supplies on its own. -/
def ShapeField.ownKey? (f : ShapeField) : Option String := if f.flatten then none else f.jsonName

/-- The declared type whose members take the place of a field. -/
def ShapeField.promoted? (f : ShapeField) : Option QualifiedName :=
  if f.flatten then f.type.embeddedName? else none

/-- Fields found so far with their properties, in order, and the types whose members were
promoted. -/
structure Supply where
  fields : List (String × ShapeField) := []
  embedded : List QualifiedName := []

namespace Supply

def keys (c : Supply) : List String := c.fields.map (·.1)

def types (c : Supply) : List Shape := c.fields.map (·.2.type)

/-- A field added that appears on its own; the first field of a name counts. -/
def add (c : Supply) (f : ShapeField) : Supply :=
  match f.ownKey? with
  | some key => if key ∈ c.keys then c else { c with fields := c.fields ++ [(key, f)] }
  | none => c

def direct (fields : List ShapeField) (c : Supply) : Supply := fields.foldl add c

@[simp] theorem embedded_add (c : Supply) (f : ShapeField) : (c.add f).embedded = c.embedded := by
  unfold add
  split
  · split <;> rfl
  · rfl

@[simp] theorem embedded_direct (fields : List ShapeField) (c : Supply) :
    (direct fields c).embedded = c.embedded := by
  induction fields generalizing c with
  | nil => rfl
  | cons f fields ih => exact (ih (c.add f)).trans (embedded_add c f)

theorem mem_add {c : Supply} {f : ShapeField} {e : String × ShapeField}
    (h : e ∈ (c.add f).fields) : e ∈ c.fields ∨ e.2 = f := by
  unfold add at h
  split at h
  · split at h
    · exact .inl h
    · rcases List.mem_append.mp h with h | h
      · exact .inl h
      · exact .inr (by rw [List.mem_singleton.mp h])
  · exact .inl h

theorem mem_direct {fields : List ShapeField} {c : Supply} {e : String × ShapeField}
    (h : e ∈ (direct fields c).fields) : e ∈ c.fields ∨ e.2 ∈ fields := by
  induction fields generalizing c with
  | nil => exact .inl h
  | cons f fields ih =>
    rcases ih h with h | h
    · exact (mem_add h).imp_right fun h ↦ List.mem_cons.mpr (.inl h)
    · exact .inr (List.mem_cons_of_mem _ h)

theorem subset_add (c : Supply) (f : ShapeField) : c.fields ⊆ (c.add f).fields := by
  unfold add
  split
  · split
    · exact List.Subset.refl _
    · exact List.subset_append_left _ _
  · exact List.Subset.refl _

theorem subset_direct (fields : List ShapeField) (c : Supply) :
    c.fields ⊆ (direct fields c).fields := by
  induction fields generalizing c with
  | nil => exact List.Subset.refl _
  | cons f fields ih => exact List.Subset.trans (subset_add c f) (ih (c.add f))

variable (definitions : Table QualifiedName Shape)

/-- The number of entries for types that have not been promoted. -/
def unpromoted (embedded : List QualifiedName) : Nat :=
  (definitions.filter fun d ↦ d.1 ∉ embedded).length

theorem unpromoted_cons (embedded : List QualifiedName) (q : QualifiedName) :
    unpromoted definitions (q :: embedded) =
      ((definitions.filter fun d ↦ d.1 ∉ embedded).filter fun d ↦ d.1 ≠ q).length := by
  simp [unpromoted, List.filter_filter]

theorem unpromoted_cons_le (embedded : List QualifiedName) (q : QualifiedName) :
    unpromoted definitions (q :: embedded) ≤ unpromoted definitions embedded := by
  rw [unpromoted_cons]
  exact List.length_filter_le ..

variable {definitions}

theorem unpromoted_cons_lt {embedded : List QualifiedName} {q : QualifiedName} {body : Shape}
    (hq : q ∉ embedded) (h : definitions.find? q = some body) :
    unpromoted definitions (q :: embedded) < unpromoted definitions embedded := by
  rw [unpromoted_cons]
  refine List.length_filter_lt_length_iff_exists.mpr ⟨(q, body), ?_, by simp⟩
  exact List.mem_filter.mpr ⟨Table.mem_of_find? h, by simpa using hq⟩

variable (definitions)

/-- The members of embedded types added, those of each type once. A type comes with the types
embedded in it before the next one. -/
def promote (qs : List QualifiedName) (c : Supply) : Supply :=
  match qs with
  | [] => c
  | q :: qs =>
    if _hq : q ∈ c.embedded then promote qs c
    else
      match _h : definitions.find? q with
      | some (.record fields) =>
        promote (fields.filterMap ShapeField.promoted? ++ qs)
          (direct fields { c with embedded := q :: c.embedded })
      | _ => promote qs { c with embedded := q :: c.embedded }
termination_by (unpromoted definitions c.embedded, qs.length)
decreasing_by
  · exact Prod.Lex.right _ (by simp)
  · exact Prod.Lex.left _ _ (by simpa using unpromoted_cons_lt _hq _h)
  · exact Prod.Lex.right' _ (unpromoted_cons_le ..) (by simp)

/-- The properties of a record added: those of its own fields, then those of promoted members. -/
def collect (fields : List ShapeField) (c : Supply) : Supply :=
  promote definitions (fields.filterMap ShapeField.promoted?) (direct fields c)

theorem promote_nil (c : Supply) : promote definitions [] c = c := by rw [promote]

variable {definitions}

theorem promote_cons_of_mem {q : QualifiedName} {c : Supply} (hq : q ∈ c.embedded)
    (qs : List QualifiedName) : promote definitions (q :: qs) c = promote definitions qs c := by
  rw [promote, dif_pos hq]

theorem promote_cons_record {q : QualifiedName} {c : Supply} {fields : List ShapeField}
    (hq : q ∉ c.embedded) (h : definitions.find? q = some (.record fields))
    (qs : List QualifiedName) :
    promote definitions (q :: qs) c =
      promote definitions (fields.filterMap ShapeField.promoted? ++ qs)
        (direct fields { c with embedded := q :: c.embedded }) := by
  rw [promote, dif_neg hq]
  split
  · simp_all
  · rename_i hn; exact absurd h (hn fields)

theorem promote_cons_other {q : QualifiedName} {c : Supply} (hq : q ∉ c.embedded)
    (h : ∀ fields, definitions.find? q ≠ some (.record fields)) (qs : List QualifiedName) :
    promote definitions (q :: qs) c =
      promote definitions qs { c with embedded := q :: c.embedded } := by
  rw [promote, dif_neg hq]
  split
  · exact absurd ‹_› (h _)
  · rfl

variable (definitions)

theorem promote_append (qs ps : List QualifiedName) (c : Supply) :
    promote definitions (qs ++ ps) c = promote definitions ps (promote definitions qs c) := by
  fun_induction promote definitions qs c with
  | case1 c => rfl
  | case2 c q qs hq ih => rw [List.cons_append, promote_cons_of_mem hq, ih]
  | case3 c q qs hq fields h ih =>
    rw [List.cons_append, promote_cons_record hq h, ← List.append_assoc, ih]
  | case4 c q qs hq h ih => rw [List.cons_append, promote_cons_other hq h, ih]

theorem subset_promote (qs : List QualifiedName) (c : Supply) :
    c.fields ⊆ (promote definitions qs c).fields := by
  fun_induction promote definitions qs c with
  | case1 c => exact List.Subset.refl _
  | case2 c q qs hq ih => exact ih
  | case3 c q qs hq fields h ih =>
    exact List.Subset.trans (subset_direct fields { c with embedded := q :: c.embedded }) ih
  | case4 c q qs hq h ih => exact ih

theorem unpromoted_promote_le (qs : List QualifiedName) (c : Supply) :
    unpromoted definitions (promote definitions qs c).embedded ≤
      unpromoted definitions c.embedded := by
  fun_induction promote definitions qs c with
  | case1 c => exact Nat.le_refl _
  | case2 c q qs hq ih => exact ih
  | case3 c q qs hq fields h ih =>
    rw [embedded_direct] at ih
    exact Nat.le_trans ih (unpromoted_cons_le definitions c.embedded q)
  | case4 c q qs hq h ih => exact Nat.le_trans ih (unpromoted_cons_le definitions c.embedded q)

/-- Every field in a supply was written in the record or in a declared one. -/
theorem mem_promote (qs : List QualifiedName) (c : Supply) :
    ∀ e ∈ (promote definitions qs c).fields,
      e ∈ c.fields ∨ ∃ q fields, definitions.find? q = some (.record fields) ∧ e.2 ∈ fields := by
  fun_induction promote definitions qs c with
  | case1 => exact fun e h ↦ .inl h
  | case2 c q qs hq ih => exact ih
  | case3 c q qs hq fields hd ih =>
    intro e h
    rcases ih e h with h | h
    · exact (mem_direct h).imp_right fun h ↦ ⟨q, fields, hd, h⟩
    · exact .inr h
  | case4 c q qs hq hd ih => exact ih

end Supply

/-- The fields that supply the properties of a record, each with its property. -/
def suppliedFields (definitions : Table QualifiedName Shape) (fields : List ShapeField) : Supply :=
  Supply.collect definitions fields {}

theorem mem_suppliedFields {definitions : Table QualifiedName Shape} {fields : List ShapeField}
    {e : String × ShapeField} (h : e ∈ (suppliedFields definitions fields).fields) :
    e.2 ∈ fields ∨
      ∃ q inner, definitions.find? q = some (.record inner) ∧ e.2 ∈ inner := by
  rcases Supply.mem_promote definitions _ _ e h with h | h
  · exact .inl ((Supply.mem_direct h).resolve_left List.not_mem_nil)
  · exact .inr h

end GoOpenApi
