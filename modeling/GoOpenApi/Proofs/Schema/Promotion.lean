import GoOpenApi.Proofs.Schema.Containers
import GoOpenApi.Proofs.Schema.Required

/-!
The members of embedded structs. Promotion goes depth first through the structs that embedded
fields name, entering each once, and an earlier field of a name keeps out the later ones. A field
whose type is another name for a struct is not followed, so the members of that struct are lost.
-/

namespace GoOpenApi

variable {d : Table QualifiedName Shape}

/-- An embedded field names a struct, directly or through a pointer. -/
def ShapeField.Embeds (d : Table QualifiedName Shape) (f : ShapeField)
    (inner : List ShapeField) : Prop :=
  ∃ q, f.promoted? = some q ∧ d.find? q = some (.record inner)

/-- A chain of declarations that begins with a name ends in a struct. -/
inductive EndsIn (d : Table QualifiedName Shape) : QualifiedName → List ShapeField → Prop
  | declared {q : QualifiedName} {inner : List ShapeField} :
    d.find? q = some (.record inner) → EndsIn d q inner
  | written {q : QualifiedName} {inner : List ShapeField} :
    d.find? q = some (.alias (.record inner)) → EndsIn d q inner
  | chain {q q' : QualifiedName} {inner : List ShapeField} :
    d.find? q = some (.alias (.named q')) → EndsIn d q' inner → EndsIn d q inner

/-- An embedded field names a chain of declarations that ends in a struct. -/
def ShapeField.LeadsInto (d : Table QualifiedName Shape) (f : ShapeField)
    (inner : List ShapeField) : Prop :=
  ∃ q, f.promoted? = some q ∧ EndsIn d q inner

theorem ShapeField.Embeds.leadsInto {f : ShapeField} {inner : List ShapeField}
    (h : f.Embeds d inner) : f.LeadsInto d inner := by
  obtain ⟨q, hq, hd⟩ := h
  exact ⟨q, hq, .declared hd⟩

/-- A field is reached from a list of fields through a number of embedded ones. -/
inductive AtDepth (into : ShapeField → List ShapeField → Prop) :
    List ShapeField → Nat → ShapeField → Prop
  | own {fields : List ShapeField} {f : ShapeField} : f ∈ fields → AtDepth into fields 0 f
  | promoted {fields inner : List ShapeField} {e f : ShapeField} {n : Nat} :
    e ∈ fields → into e inner → AtDepth into inner n f → AtDepth into fields (n + 1) f

namespace AtDepth

variable {into into' : ShapeField → List ShapeField → Prop} {fields inner : List ShapeField}
  {e f : ShapeField} {n : Nat}

theorem zero_iff : AtDepth into fields 0 f ↔ f ∈ fields := by
  constructor
  · rintro ⟨hf⟩
    exact hf
  · exact .own

theorem succ_iff : AtDepth into fields (n + 1) f ↔
    ∃ e ∈ fields, ∃ inner, into e inner ∧ AtDepth into inner n f := by
  constructor
  · rintro (_ | ⟨he, hi, hf⟩)
    exact ⟨_, he, _, hi, hf⟩
  · rintro ⟨e, he, inner, hi, hf⟩
    exact .promoted he hi hf

theorem mono (h : AtDepth into fields n f) (hi : ∀ e inner, into e inner → into' e inner) :
    AtDepth into' fields n f := by
  induction h with
  | own hf => exact .own hf
  | promoted he hinto _ ih => exact .promoted he (hi _ _ hinto) ih

theorem enter (h : AtDepth into fields n e) (hi : into e inner) (hf : f ∈ inner) :
    AtDepth into fields (n + 1) f := by
  induction h with
  | own he => exact .promoted he hi (.own hf)
  | promoted he hinto _ ih => exact .promoted he hinto (ih hi)

/-- A list that contains the members of all embedded fields in it contains what is reached. -/
theorem mem_of_closed {all : List ShapeField} (h : AtDepth into fields n f)
    (hall : ∀ e ∈ all, ∀ inner, into e inner → inner ⊆ all) (hs : fields ⊆ all) : f ∈ all := by
  induction h with
  | own hf => exact hs hf
  | promoted he hi _ ih => exact ih (hall _ (hs he) _ hi)

end AtDepth

section

variable (d)

/-- The structs among declared types and those embedded in them, each once with its fields. A
struct comes with those embedded in it before the next one. -/
def promotions (entered qs : List QualifiedName) : List (QualifiedName × List ShapeField) :=
  match qs with
  | [] => []
  | q :: qs =>
    if _hq : q ∈ entered then promotions entered qs
    else
      match _h : d.find? q with
      | some (.record inner) =>
        (q, inner) :: promotions (q :: entered) (inner.filterMap ShapeField.promoted? ++ qs)
      | _ => promotions (q :: entered) qs
termination_by (Supply.unpromoted d entered, qs.length)
decreasing_by
  · exact Prod.Lex.right _ (by simp)
  · exact Prod.Lex.left _ _ (Supply.unpromoted_cons_lt _hq _h)
  · exact Prod.Lex.right' _ (Supply.unpromoted_cons_le ..) (by simp)

/-- Own fields and then those of embedded structs, in the order in which they are met. -/
def depthFirst (fields : List ShapeField) : List ShapeField :=
  fields ++ (promotions d [] (fields.filterMap ShapeField.promoted?)).flatMap (·.2)

/-- The field of a name that comes first in depth-first order. -/
def firstField? (fields : List ShapeField) (key : String) : Option ShapeField :=
  (depthFirst d fields).find? (·.ownKey? == some key)

end

section

variable {q : QualifiedName} {entered qs : List QualifiedName} {inner : List ShapeField}

theorem promotions_cons_of_mem (hq : q ∈ entered) :
    promotions d entered (q :: qs) = promotions d entered qs := by
  rw [promotions, dif_pos hq]

theorem promotions_cons_struct (hq : q ∉ entered) (h : d.find? q = some (.record inner)) :
    promotions d entered (q :: qs) =
      (q, inner) :: promotions d (q :: entered) (inner.filterMap ShapeField.promoted? ++ qs) := by
  rw [promotions, dif_neg hq]
  split
  · simp_all
  · rename_i hn
    exact absurd h (hn inner)

theorem promotions_cons_other (hq : q ∉ entered)
    (h : ∀ inner, d.find? q ≠ some (.record inner)) :
    promotions d entered (q :: qs) = promotions d (q :: entered) qs := by
  rw [promotions, dif_neg hq]
  split
  · exact absurd ‹_› (h _)
  · rfl

end

namespace Supply

theorem add_with_embedded (c : Supply) (embedded : List QualifiedName) (f : ShapeField) :
    add { c with embedded := embedded } f = { c.add f with embedded := embedded } := by
  unfold add
  split
  · split
    · rw [if_pos ‹_›]
    · rw [if_neg ‹_›]
  · rfl

theorem direct_with_embedded (fields : List ShapeField) (c : Supply)
    (embedded : List QualifiedName) :
    direct fields { c with embedded := embedded } =
      { direct fields c with embedded := embedded } := by
  induction fields generalizing c with
  | nil => rfl
  | cons f fields ih =>
    change direct fields (add { c with embedded := embedded } f) = _
    rw [add_with_embedded, ih]
    rfl

theorem direct_append (fields fields' : List ShapeField) (c : Supply) :
    direct (fields ++ fields') c = direct fields' (direct fields c) := List.foldl_append

/-- Promotion adds the members of structs as if they were own fields in depth-first order. -/
theorem fields_promote (qs : List QualifiedName) (c : Supply) :
    (promote d qs c).fields =
      (direct ((promotions d c.embedded qs).flatMap (·.2)) c).fields := by
  fun_induction promote d qs c with
  | case1 c =>
    rw [promotions]
    rfl
  | case2 c q qs hq ih => rw [ih, promotions_cons_of_mem hq]
  | case3 c q qs hq inner h ih =>
    rw [ih, promotions_cons_struct hq h, List.flatMap_cons, direct_append, embedded_direct,
      direct_with_embedded inner c, direct_with_embedded _ (direct inner c)]
  | case4 c q qs hq h ih => rw [ih, promotions_cons_other hq h, direct_with_embedded _ c]

theorem mem_fields_add {c : Supply} {key : String} {f g : ShapeField} :
    (key, f) ∈ (c.add g).fields ↔
      (key, f) ∈ c.fields ∨ key ∉ c.keys ∧ g.ownKey? = some key ∧ g = f := by
  cases hg : g.ownKey? with
  | none => simp [add, hg]
  | some k =>
    by_cases hk : k ∈ c.keys
    · have ha : c.add g = c := by simp [add, hg, hk]
      rw [ha]
      refine ⟨.inl, fun h ↦ h.resolve_right ?_⟩
      rintro ⟨hn, hkey, -⟩
      exact hn (Option.some.inj hkey ▸ hk)
    · have ha : (c.add g).fields = c.fields ++ [(k, g)] := by simp [add, hg, hk]
      rw [ha, List.mem_append, List.mem_singleton, Prod.mk.injEq, Option.some.injEq]
      refine or_congr_right ⟨?_, ?_⟩
      · rintro ⟨rfl, rfl⟩
        exact ⟨hk, rfl, rfl⟩
      · rintro ⟨-, rfl, rfl⟩
        exact ⟨rfl, rfl⟩

/-- The first field of a name supplies its property, unless the name was there before. -/
theorem mem_fields_direct {key : String} {f : ShapeField} (fields : List ShapeField)
    (c : Supply) :
    (key, f) ∈ (direct fields c).fields ↔ (key, f) ∈ c.fields ∨
      key ∉ c.keys ∧ fields.find? (·.ownKey? == some key) = some f := by
  induction fields generalizing c with
  | nil => simp [direct]
  | cons g fields ih =>
    change (key, f) ∈ (direct fields (c.add g)).fields ↔ _
    rw [ih, mem_fields_add, mem_keys_add, List.find?_cons]
    by_cases hg : g.ownKey? = some key
    · simp [hg]
    · simp [hg, beq_eq_false_iff_ne.mpr hg]

end Supply

section

variable {fields : List ShapeField} {key : String} {f : ShapeField}

theorem ownKey?_of_firstField? (h : firstField? d fields key = some f) :
    f.ownKey? = some key := by
  simpa using List.find?_some h

theorem mem_suppliedFields_iff :
    (key, f) ∈ (suppliedFields d fields).fields ↔ firstField? d fields key = some f := by
  rw [suppliedFields, Supply.collect, Supply.fields_promote, Supply.embedded_direct,
    ← Supply.direct_append]
  change (key, f) ∈ (Supply.direct (depthFirst d fields) {}).fields ↔ _
  rw [Supply.mem_fields_direct]
  simp [Supply.keys, firstField?]

theorem mem_keys_suppliedFields_iff :
    key ∈ (suppliedFields d fields).keys ↔ ∃ f, firstField? d fields key = some f := by
  rw [Supply.keys, List.mem_map]
  constructor
  · rintro ⟨⟨_, f⟩, hf, rfl⟩
    exact ⟨f, mem_suppliedFields_iff.mp hf⟩
  · rintro ⟨f, hf⟩
    exact ⟨(key, f), mem_suppliedFields_iff.mpr hf, rfl⟩

end

section

variable {entered qs : List QualifiedName} {fields : List ShapeField}

/-- The structs among the declared types were entered before or are listed. -/
def Covered (d : Table QualifiedName Shape) (entered : List QualifiedName)
    (found : List (QualifiedName × List ShapeField)) (qs : List QualifiedName) : Prop :=
  ∀ q ∈ qs, ∀ inner, d.find? q = some (.record inner) → q ∈ entered ∨ (q, inner) ∈ found

theorem Covered.struct {q : QualifiedName} {inner : List ShapeField}
    {found : List (QualifiedName × List ShapeField)} (h : Covered d (q :: entered) found qs)
    (hd : d.find? q = some (.record inner)) : Covered d entered ((q, inner) :: found) qs := by
  intro q' hq' inner' hd'
  rcases h q' hq' inner' hd' with he | hf
  · rcases List.mem_cons.mp he with rfl | he
    · rw [hd] at hd'
      cases hd'
      exact .inr List.mem_cons_self
    · exact .inl he
  · exact .inr (List.mem_cons_of_mem _ hf)

theorem Covered.other {q : QualifiedName} {found : List (QualifiedName × List ShapeField)}
    (h : Covered d (q :: entered) found qs)
    (hd : ∀ inner, d.find? q ≠ some (.record inner)) : Covered d entered found (q :: qs) := by
  intro q' hq' inner' hd'
  have hne : q' ≠ q := by
    rintro rfl
    exact hd inner' hd'
  have hq' := (List.mem_cons.mp hq').resolve_left hne
  exact (h q' hq' inner' hd').imp_left fun he ↦ (List.mem_cons.mp he).resolve_left hne

/-- Promotion leaves out no struct that is named by an embedded field on its way. -/
theorem covered_promotions (entered qs : List QualifiedName) :
    Covered d entered (promotions d entered qs) qs ∧
      ∀ e ∈ promotions d entered qs,
        Covered d entered (promotions d entered qs) (e.2.filterMap ShapeField.promoted?) := by
  fun_induction promotions d entered qs with
  | case1 entered => exact ⟨nofun, nofun⟩
  | case2 entered q qs hq ih =>
    refine ⟨fun q' hq' inner hd ↦ ?_, ih.2⟩
    rcases List.mem_cons.mp hq' with rfl | hq'
    · exact .inl hq
    · exact ih.1 q' hq' inner hd
  | case3 entered q qs hq inner hd ih =>
    obtain ⟨hqs, hfound⟩ := ih
    have hinner : Covered d (q :: entered) _ (inner.filterMap ShapeField.promoted?) :=
      fun q' hq' ↦ hqs q' (List.mem_append_left _ hq')
    have hrest : Covered d (q :: entered) _ qs := fun q' hq' ↦ hqs q' (List.mem_append_right _ hq')
    refine ⟨fun q' hq' inner' hd' ↦ ?_, fun e he ↦ ?_⟩
    · rcases List.mem_cons.mp hq' with rfl | hq'
      · rw [hd] at hd'
        cases hd'
        exact .inr List.mem_cons_self
      · exact hrest.struct hd q' hq' inner' hd'
    · rcases List.mem_cons.mp he with rfl | he
      · exact hinner.struct hd
      · exact (hfound e he).struct hd
  | case4 entered q qs hq hd ih =>
    refine ⟨ih.1.other hd, fun e he ↦ ?_⟩
    exact fun q' hq' ↦ ((ih.2 e he).other hd) q' (List.mem_cons_of_mem _ hq')

theorem find?_of_mem_promotions {e : QualifiedName × List ShapeField}
    (he : e ∈ promotions d entered qs) : d.find? e.1 = some (.record e.2) := by
  fun_induction promotions d entered qs with
  | case1 => cases he
  | case2 entered q qs _ ih => exact ih he
  | case3 entered q qs _ inner hd ih =>
    rcases List.mem_cons.mp he with rfl | he
    · exact hd
    · exact ih he
  | case4 entered q qs _ _ ih => exact ih he

/-- Every struct whose members are promoted is named by an embedded field that is reached. -/
theorem reached_of_mem_promotions
    (hq : ∀ q ∈ qs, ∃ n e, AtDepth (ShapeField.Embeds d) fields n e ∧ e.promoted? = some q) :
    ∀ entry ∈ promotions d entered qs,
      ∃ n e, AtDepth (ShapeField.Embeds d) fields n e ∧ e.promoted? = some entry.1 := by
  fun_induction promotions d entered qs with
  | case1 entered => nofun
  | case2 entered q qs _ ih => exact ih (List.forall_mem_cons.mp hq).2
  | case3 entered q qs _ inner hd ih =>
    rw [List.forall_mem_cons] at hq ⊢
    refine ⟨hq.1, ih fun q' hq' ↦ ?_⟩
    rcases List.mem_append.mp hq' with hq' | hq'
    · obtain ⟨n, e, he, hp⟩ := hq.1
      obtain ⟨f, hf, hp'⟩ := List.mem_filterMap.mp hq'
      exact ⟨n + 1, f, he.enter ⟨q, hp, hd⟩ hf, hp'⟩
    · exact hq.2 q' hq'
  | case4 entered q qs _ _ ih => exact ih (List.forall_mem_cons.mp hq).2

theorem mem_depthFirst_iff {f : ShapeField} :
    f ∈ depthFirst d fields ↔ ∃ n, AtDepth (ShapeField.Embeds d) fields n f := by
  constructor
  · intro hf
    rcases List.mem_append.mp hf with hf | hf
    · exact ⟨0, .own hf⟩
    · obtain ⟨⟨q, inner⟩, he, hf⟩ := List.mem_flatMap.mp hf
      obtain ⟨n, e, hn, hp⟩ := reached_of_mem_promotions (fun q hq ↦ by
        obtain ⟨e, he, hp⟩ := List.mem_filterMap.mp hq
        exact ⟨0, e, .own he, hp⟩) _ he
      exact ⟨n + 1, hn.enter ⟨q, hp, find?_of_mem_promotions he⟩ hf⟩
  · rintro ⟨n, hn⟩
    refine hn.mem_of_closed (fun e he inner hi ↦ ?_) (List.subset_append_left _ _)
    obtain ⟨q, hp, hd⟩ := hi
    obtain ⟨hown, hpromoted⟩ := covered_promotions (d := d) [] (fields.filterMap (·.promoted?))
    have hfound : (q, inner) ∈ promotions d [] (fields.filterMap ShapeField.promoted?) := by
      rcases List.mem_append.mp he with he | he
      · exact (hown q (List.mem_filterMap.mpr ⟨e, he, hp⟩) inner hd).resolve_left
          List.not_mem_nil
      · obtain ⟨entry, hentry, he⟩ := List.mem_flatMap.mp he
        exact (hpromoted entry hentry q (List.mem_filterMap.mpr ⟨e, he, hp⟩) inner hd).resolve_left
          List.not_mem_nil
    exact fun f hf ↦ List.mem_append_right _ (List.mem_flatMap.mpr ⟨_, hfound, hf⟩)

end

/-- There is a first field of a name if one is reached. -/
theorem exists_firstField?_iff {fields : List ShapeField} {key : String} :
    (∃ f, firstField? d fields key = some f) ↔
      ∃ n f, AtDepth (ShapeField.Embeds d) fields n f ∧ f.ownKey? = some key := by
  constructor
  · rintro ⟨f, hf⟩
    obtain ⟨n, hn⟩ := mem_depthFirst_iff.mp (List.mem_of_find?_eq_some hf)
    exact ⟨n, f, hn, ownKey?_of_firstField? hf⟩
  · rintro ⟨n, f, hn, hf⟩
    have hfound : (firstField? d fields key).isSome :=
      List.find?_isSome.mpr ⟨f, mem_depthFirst_iff.mpr ⟨n, hn⟩, beq_iff_eq.mpr hf⟩
    exact Option.isSome_iff_exists.mp hfound

/-- The properties of a record are the names of the fields that are reached through embedded fields
that name structs. These are all names that are reached through chains of declarations as well,
unless one is reached only through an embedded field that names no struct itself. -/
theorem recordSchema_keys {fields : List ShapeField} {n : Nat} {r r' : Registry} {s : Schema}
    (h : (entrance d.find? n).recordSchema fields r = some (s, r')) :
    (∀ key, key ∈ Dict.keys (s.properties.getD []) ↔
      ∃ m f, AtDepth (ShapeField.Embeds d) fields m f ∧ f.ownKey? = some key) ∧
    ((∀ key, key ∈ Dict.keys (s.properties.getD []) ↔
        ∃ m f, AtDepth (ShapeField.LeadsInto d) fields m f ∧ f.ownKey? = some key) ↔
      ∀ key m f, AtDepth (ShapeField.LeadsInto d) fields m f → f.ownKey? = some key →
        ∃ m f, AtDepth (ShapeField.Embeds d) fields m f ∧ f.ownKey? = some key) := by
  obtain ⟨ss, -, -, hk⟩ := Entrance.recordSchema_supplied h
  have hkeys (key : String) : key ∈ Dict.keys (s.properties.getD []) ↔
      ∃ m f, AtDepth (ShapeField.Embeds d) fields m f ∧ f.ownKey? = some key :=
    (hk key).trans (mem_keys_suppliedFields_iff.trans exists_firstField?_iff)
  refine ⟨hkeys, fun hall key m f hf hkey ↦ ?_, fun hall key ↦ ⟨fun hm ↦ ?_, ?_⟩⟩
  · exact (hkeys key).mp ((hall key).mpr ⟨m, f, hf, hkey⟩)
  · obtain ⟨m, f, hf, hkey⟩ := (hkeys key).mp hm
    exact ⟨m, f, hf.mono fun _ _ hi ↦ hi.leadsInto, hkey⟩
  · rintro ⟨m, f, hf, hkey⟩
    exact (hkeys key).mpr (hall key m f hf hkey)

/-- An embedded field without a tag. -/
def ShapeField.embedded (q : QualifiedName) : ShapeField := ⟨q.name, none, true, false, .named q⟩

/-- Fields that embed two structs. -/
def twoEmbedded : List ShapeField := [.embedded ⟨"m", "A"⟩, .embedded ⟨"m", "B"⟩]

/-- Two structs that embed a third, which embeds one of them. -/
def diamond : Table QualifiedName Shape :=
  [(⟨"m", "A"⟩, .record [⟨"C", none, true, false, .pointer (.named ⟨"m", "C"⟩)⟩]),
    (⟨"m", "B"⟩, .record [.embedded ⟨"m", "C"⟩]),
    (⟨"m", "C"⟩, .record [⟨"X", some "x", false, false, .primitive .string⟩,
      ⟨"B", none, true, false, .pointer (.named ⟨"m", "B"⟩)⟩])]

theorem diamond_promotes :
    ∃ s r, (entrance diamond.find? 4).recordSchema twoEmbedded .empty = some (s, r) ∧
      "x" ∈ Dict.keys (s.properties.getD []) := by
  obtain ⟨s, r, h⟩ : ∃ s r, (entrance diamond.find? 4).recordSchema twoEmbedded .empty =
      some (s, r) := ⟨_, _, rfl⟩
  have hx : AtDepth (ShapeField.Embeds diamond) twoEmbedded 2
      ⟨"X", some "x", false, false, .primitive .string⟩ :=
    .promoted (List.mem_cons_self ..) ⟨⟨"m", "A"⟩, rfl, rfl⟩
      (.promoted (List.mem_cons_self ..) ⟨⟨"m", "C"⟩, rfl, rfl⟩ (.own (List.mem_cons_self ..)))
  exact ⟨s, r, h, ((recordSchema_keys h).1 "x").mpr ⟨2, _, hx, rfl⟩⟩

/-- A struct and another name for it. -/
def renamed : Table QualifiedName Shape :=
  [(⟨"m", "Base"⟩, .record [⟨"ID", some "ID", false, false, .primitive .string⟩]),
    (⟨"m", "Audit"⟩, .alias (.named ⟨"m", "Base"⟩))]

/-- The members of a struct that is embedded under another name are no properties. -/
theorem renamed_members_lost :
    ∃ s r, (entrance renamed.find? 2).recordSchema [.embedded ⟨"m", "Audit"⟩] .empty =
        some (s, r) ∧
      "ID" ∉ Dict.keys (s.properties.getD []) ∧
      ∃ f, AtDepth (ShapeField.LeadsInto renamed) [.embedded ⟨"m", "Audit"⟩] 1 f ∧
        f.ownKey? = some "ID" := by
  refine ⟨_, _, rfl, by decide, ⟨"ID", some "ID", false, false, .primitive .string⟩, ?_, rfl⟩
  exact .promoted (List.mem_cons_self ..) ⟨⟨"m", "Audit"⟩, rfl, .chain rfl (.declared rfl)⟩
    (.own (List.mem_cons_self ..))

end GoOpenApi
