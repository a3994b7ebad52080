import GoOpenApi.Proofs.Schema.Promotion
import Mathlib.Data.Nat.Find

/-!
Fields of one name at different depths. Own fields come first, but among promoted ones the order is
depth first, so a deeper field can keep out a shallower one.
-/

namespace GoOpenApi

variable {d : Table QualifiedName Shape} {fields : List ShapeField} {key : String} {f : ShapeField}

/-- The field has the name, and none of this name is reached through fewer embedded fields. -/
def Shallowest (d : Table QualifiedName Shape) (fields : List ShapeField) (key : String)
    (f : ShapeField) : Prop :=
  f.ownKey? = some key ∧ ∃ n, AtDepth (ShapeField.LeadsInto d) fields n f ∧
    ∀ m g, AtDepth (ShapeField.LeadsInto d) fields m g → g.ownKey? = some key → n ≤ m

theorem firstField?_of_own {g : ShapeField} (hg : g ∈ fields) (hkey : g.ownKey? = some key) :
    ∃ f ∈ fields, firstField? d fields key = some f := by
  have hfound : (fields.find? (·.ownKey? == some key)).isSome :=
    List.find?_isSome.mpr ⟨g, hg, beq_iff_eq.mpr hkey⟩
  obtain ⟨f, hf⟩ := Option.isSome_iff_exists.mp hfound
  refine ⟨f, List.mem_of_find?_eq_some hf, ?_⟩
  rw [firstField?, depthFirst, List.find?_append, hf, Option.some_or]

theorem shallowest_of_own (hf : f ∈ fields) (hkey : f.ownKey? = some key) :
    Shallowest d fields key f :=
  ⟨hkey, 0, .own hf, fun _ _ _ _ ↦ Nat.zero_le _⟩

theorem AtDepth.pos_of_not_own {into : ShapeField → List ShapeField → Prop} {n : Nat}
    (h : AtDepth into fields n f) (hkey : f.ownKey? = some key)
    (hn : ∀ g ∈ fields, g.ownKey? ≠ some key) : 0 < n := by
  cases n with
  | zero => exact absurd hkey (hn f (AtDepth.zero_iff.mp h))
  | succ n => exact Nat.succ_pos n

/-- Fields reached are reached at some smallest depth. -/
theorem shallowest_iff_of_reached {n : Nat} (hn : AtDepth (ShapeField.LeadsInto d) fields n f)
    (hkey : f.ownKey? = some key) : Shallowest d fields key f ↔
      ∀ m g, AtDepth (ShapeField.LeadsInto d) fields m g → g.ownKey? = some key →
        ∃ k ≤ m, AtDepth (ShapeField.LeadsInto d) fields k f := by
  classical
  constructor
  · rintro ⟨-, k, hk, hmin⟩ m g hg hg'
    exact ⟨k, hmin m g hg hg', hk⟩
  · intro h
    have hex : ∃ n, AtDepth (ShapeField.LeadsInto d) fields n f := ⟨n, hn⟩
    refine ⟨hkey, Nat.find hex, Nat.find_spec hex, fun m g hg hg' ↦ ?_⟩
    obtain ⟨k, hkm, hk⟩ := h m g hg hg'
    exact (Nat.find_min' hex hk).trans hkm

theorem EndsIn.eq_of_struct {q : QualifiedName} {inner inner' : List ShapeField}
    (h : EndsIn d q inner) (hd : d.find? q = some (.record inner')) : inner = inner' := by
  cases h with
  | declared h =>
    rw [hd] at h
    cases h
    rfl
  | written h | chain h =>
    rw [hd] at h
    cases h

theorem ShapeField.leadsInto_embedded {q : QualifiedName} {inner inner' : List ShapeField}
    (hd : d.find? q = some (.record inner)) :
    (embedded q).LeadsInto d inner' ↔ inner' = inner := by
  constructor
  · rintro ⟨_, hq, he⟩
    cases hq
    exact he.eq_of_struct hd
  · rintro rfl
    exact ⟨q, rfl, .declared hd⟩

theorem not_own_twoEmbedded : ∀ g ∈ twoEmbedded, g.ownKey? ≠ some key := by
  simp [twoEmbedded, ShapeField.embedded, ShapeField.ownKey?]

theorem reached_from_twoEmbedded {inner₁ inner₂ : List ShapeField} {n : Nat}
    (hA : d.find? ⟨"m", "A"⟩ = some (.record inner₁))
    (hB : d.find? ⟨"m", "B"⟩ = some (.record inner₂)) :
    AtDepth (ShapeField.LeadsInto d) twoEmbedded (n + 1) f ↔
      AtDepth (ShapeField.LeadsInto d) inner₁ n f ∨
        AtDepth (ShapeField.LeadsInto d) inner₂ n f := by
  simp [AtDepth.succ_iff, twoEmbedded, ShapeField.leadsInto_embedded hA,
    ShapeField.leadsInto_embedded hB]

/-- Each property of a record is made from the first field of its name in depth-first order, an own
one if there is one. All of them are made from fields at the smallest depth exactly when no name
comes first at a place that is deeper than another of the same name. -/
theorem recordSchema_shallowest {n : Nat} {r r' : Registry} {s : Schema}
    (h : (entrance d.find? n).recordSchema fields r = some (s, r')) :
    ∃ ss, Walks d (suppliedFields d fields).types r ss r' ∧
      List.Forall₂ s.Supplied (suppliedFields d fields).fields ss ∧
      (∀ key, key ∈ Dict.keys (s.properties.getD []) ↔ ∃ f, firstField? d fields key = some f) ∧
      (∀ key f, (key, f) ∈ (suppliedFields d fields).fields ↔
        firstField? d fields key = some f) ∧
      (∀ key g, g ∈ fields → g.ownKey? = some key →
        ∃ f ∈ fields, firstField? d fields key = some f ∧ Shallowest d fields key f) ∧
      ((∀ key f, (key, f) ∈ (suppliedFields d fields).fields → Shallowest d fields key f) ↔
        ∀ key f, firstField? d fields key = some f →
          ∀ m g, AtDepth (ShapeField.LeadsInto d) fields m g → g.ownKey? = some key →
            ∃ k ≤ m, AtDepth (ShapeField.LeadsInto d) fields k f) := by
  obtain ⟨ss, hw, hs, hk⟩ := Entrance.recordSchema_supplied h
  refine ⟨ss, hw, hs, fun key ↦ (hk key).trans mem_keys_suppliedFields_iff,
    fun key f ↦ mem_suppliedFields_iff, fun key g hg hkey ↦ ?_, ?_⟩
  · obtain ⟨f, hf, hfirst⟩ := firstField?_of_own (d := d) hg hkey
    exact ⟨f, hf, hfirst, shallowest_of_own hf (ownKey?_of_firstField? hfirst)⟩
  · refine forall₂_congr fun key f ↦ ?_
    rw [mem_suppliedFields_iff]
    refine forall_congr' fun hf ↦ ?_
    obtain ⟨n, hn⟩ := mem_depthFirst_iff.mp (List.mem_of_find?_eq_some hf)
    exact shallowest_iff_of_reached (hn.mono fun _ _ hi ↦ hi.leadsInto) (ownKey?_of_firstField? hf)

/-- Two structs with a field of the same name. -/
def siblings : Table QualifiedName Shape :=
  [(⟨"m", "A"⟩, .record [⟨"X", some "x", false, false, .primitive .string⟩]),
    (⟨"m", "B"⟩, .record [⟨"X", some "x", false, false, .primitive .int⟩])]

theorem siblings_shallowest :
    ∃ s r, (entrance siblings.find? 2).recordSchema twoEmbedded .empty = some (s, r) ∧
      ∀ key f, (key, f) ∈ (suppliedFields siblings twoEmbedded).fields →
        Shallowest siblings twoEmbedded key f := by
  obtain ⟨s, r, h⟩ : ∃ s r, (entrance siblings.find? 2).recordSchema twoEmbedded .empty =
      some (s, r) := ⟨_, _, rfl⟩
  obtain ⟨-, -, -, -, -, -, hall⟩ := recordSchema_shallowest h
  refine ⟨s, r, h, hall.mpr fun key f hf m g hg hkey ↦ ?_⟩
  have hm : 0 < m := hg.pos_of_not_own hkey not_own_twoEmbedded
  obtain ⟨n, hn⟩ := mem_depthFirst_iff.mp (List.mem_of_find?_eq_some hf)
  have hn := hn.mono fun _ _ hi ↦ hi.leadsInto
  refine ⟨n, ?_, hn⟩
  -- neither struct embeds another, so nothing is deeper than their members
  rcases n with _ | _ | n
  · exact Nat.zero_le m
  · exact hm
  · rw [reached_from_twoEmbedded rfl rfl] at hn
    simp [AtDepth.succ_iff, ShapeField.LeadsInto, ShapeField.promoted?] at hn

/-- One embedded struct has a field itself, the other comes first and embeds a struct that has a
field of this name. -/
def deepFirst : Table QualifiedName Shape :=
  [(⟨"m", "A"⟩, .record [.embedded ⟨"m", "C"⟩]),
    (⟨"m", "B"⟩, .record [⟨"X", some "X", false, false, .primitive .string⟩]),
    (⟨"m", "C"⟩, .record [⟨"X", some "X", false, false, .primitive .int⟩])]

/-- The property is made from the deeper field. -/
theorem deepFirst_shadows :
    ∃ s r, (entrance deepFirst.find? 3).recordSchema twoEmbedded .empty = some (s, r) ∧
      (Dict.find? "X" (s.properties.getD [])).map (·.type) = some (some "integer") ∧
      ∀ f, Shallowest deepFirst twoEmbedded "X" f ↔
        f = ⟨"X", some "X", false, false, .primitive .string⟩ := by
  have hreached (f : ShapeField) : AtDepth (ShapeField.LeadsInto deepFirst) twoEmbedded 1 f ↔
      f = .embedded ⟨"m", "C"⟩ ∨ f = ⟨"X", some "X", false, false, .primitive .string⟩ := by
    rw [reached_from_twoEmbedded rfl rfl, AtDepth.zero_iff, AtDepth.zero_iff, List.mem_singleton,
      List.mem_singleton]
  refine ⟨_, _, rfl, by decide, fun f ↦ ⟨?_, ?_⟩⟩
  · rintro ⟨hkey, n, hn, hmin⟩
    have hle : n ≤ 1 := hmin 1 _ ((hreached _).mpr (.inr rfl)) rfl
    obtain rfl : n = 1 := Nat.le_antisymm hle (hn.pos_of_not_own hkey not_own_twoEmbedded)
    rcases (hreached f).mp hn with rfl | rfl
    · cases hkey
    · rfl
  · rintro rfl
    exact ⟨rfl, 1, (hreached _).mpr (.inr rfl), fun m g hg hkey ↦
      hg.pos_of_not_own hkey not_own_twoEmbedded⟩

end GoOpenApi
