import GoOpenApi.Proofs.Schema.Termination
import Mathlib.Tactic.Linarith
import Mathlib.Tactic.Ring

/-!
How many entrances a walk needs. On its way it registers each declared type at most once, meets
no record twice without entering one, and promotes each declared type at most once for a record.
-/

namespace GoOpenApi

open Relation

variable {definitions : Table QualifiedName Shape} {r r' base : Registry}

mutual

/-- The records in a shape. -/
def Shape.recordList : Shape → List Shape
  | .record fields => .record fields :: ShapeField.recordLists fields
  | .alias target | .pointer target => target.recordList
  | .array _ item => item.recordList
  | .map key value => key.recordList ++ value.recordList
  | _ => []

def ShapeField.recordLists : List ShapeField → List Shape
  | [] => []
  | ⟨_, _, _, _, type⟩ :: fields => type.recordList ++ ShapeField.recordLists fields

end

mutual

theorem Shape.length_recordList (shape : Shape) : shape.recordList.length = shape.records := by
  match shape with
  | .record fields =>
    rw [Shape.recordList, Shape.records, List.length_cons, ShapeField.length_recordLists fields]
  | .alias target | .pointer target | .array _ target =>
    simp only [Shape.recordList, Shape.records, Shape.length_recordList target]
  | .map key value =>
    rw [Shape.recordList, Shape.records, List.length_append, Shape.length_recordList key,
      Shape.length_recordList value]
  | .primitive _ | .named _ | .unresolved _ | .interface _ =>
    simp [Shape.recordList, Shape.records]

theorem ShapeField.length_recordLists (fields : List ShapeField) :
    (ShapeField.recordLists fields).length = ShapeField.recordsIn fields := by
  match fields with
  | [] => rfl
  | ⟨_, _, _, _, type⟩ :: fields =>
    rw [ShapeField.recordLists, ShapeField.recordsIn, List.length_append,
      Shape.length_recordList type, ShapeField.length_recordLists fields]

end

theorem ShapeField.recordList_subset {f : ShapeField} {fields : List ShapeField}
    (h : f ∈ fields) : f.type.recordList ⊆ ShapeField.recordLists fields := by
  induction fields with
  | nil => cases h
  | cons first fields ih =>
    obtain ⟨name, jsonName, flatten, omitsEmpty, type⟩ := first
    rw [ShapeField.recordLists]
    rcases List.mem_cons.mp h with rfl | h
    · exact List.subset_append_left _ _
    · exact List.Subset.trans (ih h) (List.subset_append_right _ _)

/-- All records inside the bodies of declared types are listed. -/
def Lists (definitions : Table QualifiedName Shape) (all : List Shape) : Prop :=
  ∀ e ∈ definitions, e.2.recordList ⊆ all

theorem Lists.of_inlines {all : List Shape} (h : Lists definitions all) {t u : Shape}
    (ht : t.recordList ⊆ all) (hu : t.Inlines definitions u) : u.recordList ⊆ all := by
  match hu with
  | .alias _ | .pointer _ | .array _ _ => exact ht
  | .map _ _ => exact List.Subset.trans (List.subset_append_right _ _) ht
  | .field he =>
    rcases mem_suppliedFields he with he | ⟨q, inner, hd, he⟩
    · have hf := ShapeField.recordList_subset he
      exact List.Subset.trans hf (List.Subset.trans (List.subset_cons_self _ _) ht)
    · have hf := ShapeField.recordList_subset he
      exact List.Subset.trans hf (List.Subset.trans (List.subset_cons_self _ _)
        (h _ (Table.mem_of_find? hd)))

/-- The number of declared types without an id. -/
def unregistered (definitions : Table QualifiedName Shape) (r : Registry) : Nat :=
  (definitions.filter fun d ↦ r.idOf? d.1 = none).length

theorem unregistered_lt {q : QualifiedName} {body : Shape} (hr : r.KeepsIds r')
    (hd : definitions.find? q = some body) (hq : r.idOf? q = none) (hq' : r'.idOf? q ≠ none) :
    unregistered definitions r' < unregistered definitions r := by
  have hsub : (definitions.filter fun d ↦ r'.idOf? d.1 = none).Sublist
      (definitions.filter fun d ↦ r.idOf? d.1 = none) :=
    List.monotone_filter_right _ fun d hd ↦ by simpa using hr.none (by simpa using hd)
  refine Nat.lt_of_le_of_ne hsub.length_le fun hlen ↦ ?_
  have hm : (q, body) ∈ definitions.filter fun d ↦ r.idOf? d.1 = none :=
    List.mem_filter.mpr ⟨Table.mem_of_find? hd, by simpa using hq⟩
  rw [← hsub.eq_of_length hlen] at hm
  exact hq' (by simpa using (List.mem_filter.mp hm).2)

section

variable {e : Entrance} {supply : Supply} {c : Collected} {r₀ : Registry}

/-- A walk of the shape ends from every registry that keeps the ids of `base`. -/
def Entrance.EndsOn (e : Entrance) (base : Registry) (shape : Shape) : Prop :=
  ∀ r, base.KeepsIds r → ∃ s r', e.schemaOf shape r = some (s, r')

theorem Entrance.Sound.collectDirect_ends (he : e.Sound definitions) (fields : List ShapeField)
    (hc : Gathers definitions r₀ supply c r) (hr : base.KeepsIds r)
    (ht : ∀ x ∈ (supply.direct fields).fields, e.EndsOn base x.2.type) :
    ∃ c' r', e.collectDirect fields c r = some (c', r') ∧ base.KeepsIds r' := by
  induction fields generalizing supply c r with
  | nil => exact ⟨c, r, rfl, hr⟩
  | cons f fields ih =>
    obtain ⟨name, jsonName, flatten, omitsEmpty, type⟩ := f
    let f : ShapeField := ⟨name, jsonName, flatten, omitsEmpty, type⟩
    change ∀ x ∈ ((supply.add f).direct fields).fields, e.EndsOn base x.2.type at ht
    rw [Entrance.collectDirect]
    cases hk : f.ownKey? with
    | none =>
      have ha : supply.add f = supply := by simp [Supply.add, hk]
      simp only [ShapeField.ownKey?, f] at hk
      simp only [hk]
      exact ih hc hr (ha ▸ ht)
    | some key =>
      have hk' := hk
      simp only [ShapeField.ownKey?, f] at hk'
      simp only [hk']
      by_cases hm : key ∈ supply.keys
      · have ha : supply.add f = supply := by simp [Supply.add, hk, hm]
        rw [if_pos ((hc.contains_iff key).mpr hm)]
        exact ih hc hr (ha ▸ ht)
      · have ha : supply.add f = { supply with fields := supply.fields ++ [(key, f)] } := by
          simp [Supply.add, hk, hm]
        have hf : (key, f) ∈ ((supply.add f).direct fields).fields :=
          Supply.subset_direct fields _ (by simp [ha])
        obtain ⟨s, r₁, hs⟩ := ht _ hf r hr
        have hw := he.schemaOf type hs
        obtain ⟨c', r', h, hr'⟩ := ih (hc.add_of_walk hk hm hw) (hr.trans hw.keepsIds) ht
        rw [if_neg (fun h ↦ hm ((hc.contains_iff key).mp h))]
        exact ⟨c', r', Build.bind_eq_some.mpr ⟨s, r₁, hs, h⟩, hr'⟩

/-- Once a supply has what promoting `qs` adds, all its types end with `m` entrances left. -/
def EndsAfter (definitions : Table QualifiedName Shape) (base : Registry) (m : Nat)
    (qs : List QualifiedName) (supply : Supply) : Prop :=
  ∀ x ∈ (supply.promote definitions qs).fields,
    ∀ k, m ≤ k → (entrance definitions.find? k).EndsOn base x.2.type

/-- Promotions end with `n` entrances, of which those that are not left over for the types of the
fields suffice for the declared types that have not been promoted. -/
def Promotes (definitions : Table QualifiedName Shape) (base : Registry) (m n : Nat) : Prop :=
  ∀ q r₀ r supply c, Gathers definitions r₀ supply c r → base.KeepsIds r →
    EndsAfter definitions base m [q] supply →
    m + Supply.unpromoted definitions supply.embedded ≤ n →
    ∃ c' r', (entrance definitions.find? n).promoted q c r = some (c', r') ∧ base.KeepsIds r'

variable {m n : Nat}

theorem Promotes.collectPromoted (hp : Promotes definitions base m n) (fields : List ShapeField)
    (hc : Gathers definitions r₀ supply c r) (hr : base.KeepsIds r)
    (ht : EndsAfter definitions base m (fields.filterMap ShapeField.promoted?) supply)
    (hn : m + Supply.unpromoted definitions supply.embedded ≤ n) :
    ∃ c' r', (entrance definitions.find? n).collectPromoted fields c r = some (c', r') ∧
      base.KeepsIds r' := by
  induction fields generalizing supply c r with
  | nil => exact ⟨c, r, rfl, hr⟩
  | cons f fields ih =>
    rw [Entrance.collectPromoted]
    cases hq : f.promoted? with
    | none =>
      rw [List.filterMap_cons_none hq] at ht
      rw [ShapeField.promoted?] at hq
      simp only [hq]
      exact ih hc hr ht hn
    | some q =>
      rw [List.filterMap_cons_some hq, ← List.singleton_append, EndsAfter,
        Supply.promote_append] at ht
      rw [ShapeField.promoted?] at hq
      simp only [hq]
      have ht' : EndsAfter definitions base m [q] supply :=
        fun x hx ↦ ht x (Supply.subset_promote definitions _ _ hx)
      obtain ⟨c₁, r₁, h₁, hr₁⟩ := hp q r₀ r supply c hc hr ht' hn
      have hc₁ := (sound_entrance definitions n).promoted hc h₁
      have hle := Supply.unpromoted_promote_le definitions [q] supply
      obtain ⟨c', r', h, hr'⟩ := ih hc₁ hr₁ ht (by omega)
      exact ⟨c', r', Build.bind_eq_some.mpr ⟨c₁, r₁, h₁, h⟩, hr'⟩

theorem promotes (hm : 0 < m) (n : Nat) : Promotes definitions base m n := by
  induction n with
  | zero => intro q r₀ r supply c hc hr ht hn; omega
  | succ n ih =>
    intro q r₀ r supply c hc hr ht hn
    by_cases hq : q ∈ supply.embedded
    · rw [promoted_of_mem _ n q (by rwa [hc.embedded_eq])]
      exact ⟨c, r, rfl, hr⟩
    · have hq' : q ∉ c.embedded := by rwa [hc.embedded_eq]
      by_cases hd : ∃ fields, definitions.find? q = some (.record fields)
      · obtain ⟨fields, hd⟩ := hd
        rw [promoted_of_record _ n q hq' hd]
        rw [EndsAfter, Supply.promote_cons_record hq hd, List.append_nil] at ht
        have hlt := Supply.unpromoted_cons_lt hq hd
        have hle : m + Supply.unpromoted definitions (q :: supply.embedded) ≤ n := by omega
        have hp := hc.promoting q
        have he := sound_entrance definitions n
        obtain ⟨c₁, r₁, h₁, hr₁⟩ := he.collectDirect_ends fields hp hr fun x hx ↦
          ht x (Supply.subset_promote definitions _ _ hx) n (by omega)
        have hc₁ := he.collectDirect fields hp h₁
        obtain ⟨c', r', h, hr'⟩ := ih.collectPromoted fields hc₁ hr₁ ht
          (by rw [Supply.embedded_direct]; exact hle)
        exact ⟨c', r', Build.bind_eq_some.mpr ⟨c₁, r₁, h₁, h⟩, hr'⟩
      · rw [promoted_of_other _ n q hq' (not_exists.mp hd)]
        exact ⟨_, r, rfl, hr⟩

theorem record_ends (hm : 0 < m) {fields : List ShapeField}
    (ht : ∀ x ∈ (suppliedFields definitions fields).fields,
      ∀ k, m ≤ k → (entrance definitions.find? k).EndsOn base x.2.type)
    (hn : m + definitions.length ≤ n) :
    (entrance definitions.find? n).EndsOn base (.record fields) := by
  intro r hr
  have he := sound_entrance definitions n
  have hle : Supply.unpromoted definitions [] ≤ definitions.length := List.length_filter_le ..
  obtain ⟨c₁, r₁, h₁, hr₁⟩ := he.collectDirect_ends fields (.start r) hr fun x hx ↦
    ht x (Supply.subset_promote definitions _ _ hx) n (by omega)
  have hc₁ := he.collectDirect fields (.start r) h₁
  obtain ⟨c', r', h, -⟩ := (promotes hm n).collectPromoted fields hc₁ hr₁ ht
    (by rw [Supply.embedded_direct]; exact (Nat.add_le_add_left hle m).trans hn)
  exact ⟨c'.toSchema, r', Build.bind_eq_some.mpr ⟨c₁, r₁, h₁, Build.bind_eq_some.mpr
    ⟨c', r', h, rfl⟩⟩⟩

end

/-- What the number of entrances rests on: the shape ends, its records are among all those
listed, and on the way to it came the records of `path`. -/
structure Fits (definitions : Table QualifiedName Shape) (all : List Shape) (base : Registry)
    (path : List Shape) (shape : Shape) : Prop where
  ends : Ends definitions base shape
  listed : shape.recordList ⊆ all
  below : ∀ t ∈ path, TransGen (Shape.Inlines definitions) t shape

theorem Fits.of_inlines {all path : List Shape} {t u : Shape} (hl : Lists definitions all)
    (h : Fits definitions all base path t) (hu : t.Inlines definitions u) :
    Fits definitions all base path u where
  ends v hv := h.ends v (Reaches.trans (.inline .refl hu) hv)
  listed := hl.of_inlines h.listed hu
  below v hv := (h.below v hv).tail hu

/-- The entrances that suffice with `k` declared types to register and `p` records to meet. -/
def entrancesFor (definitions : Table QualifiedName Shape) (all : List Shape) (k p : Nat) : Nat :=
  1 + k * (1 + definitions.length * all.length) + definitions.length * p

/-- Walks end that register at most `k` declared types and meet `p` more records before that. -/
def Suffices (definitions : Table QualifiedName Shape) (all : List Shape) (k p : Nat) : Prop :=
  ∀ base path n shape, unregistered definitions base ≤ k → path.Nodup → path ⊆ all →
    all.length ≤ path.length + p → entrancesFor definitions all k p ≤ n →
    Fits definitions all base path shape →
    (entrance definitions.find? n).EndsOn base shape

section

variable {all path : List Shape} {k p n : Nat}

theorem named_ends (hl : Lists definitions all)
    (ih : ∀ j, k = j + 1 → Suffices definitions all j all.length) (q : QualifiedName)
    (hk : unregistered definitions base ≤ k) (hn : entrancesFor definitions all k p ≤ n)
    (hq : Ends definitions base (.named q)) :
    (entrance definitions.find? n).EndsOn base (.named q) := by
  intro r hr
  obtain ⟨n, rfl⟩ : ∃ m, n = m + 1 := ⟨n - 1, by unfold entrancesFor at hn; omega⟩
  change ∃ s r', (entrance definitions.find? (n + 1)).named q r = some (s, r')
  cases hid : r.idOf? q with
  | some id => exact ⟨_, r, named_of_known _ n q hid⟩
  | none =>
    cases hd : definitions.find? q with
    | none => exact ⟨_, r, named_of_undefined n hid hd⟩
    | some body =>
      by_cases hb : body.isComponent
      · have hreg : r.KeepsIds (r.register q).2.2 := fun _ _ ↦ Registry.idOf?_register_of_some
        have hlt := unregistered_lt (hr.trans hreg) hd (hr.none hid)
          (by simp [Registry.idOf?_register_self])
        obtain ⟨k, rfl⟩ : ∃ j, k = j + 1 := ⟨k - 1, by omega⟩
        -- the body is another stretch of the walk, on which no record has been met
        have hfits : Fits definitions all (r.register q).2.2 [] body := by
          refine ⟨fun t ht ↦ hq t ?_, hl _ (Table.mem_of_find? hd), by simp⟩
          exact .trans (.enter .refl (hr.none hid) hd) (ht.mono (hr.trans hreg))
        have hn' : entrancesFor definitions all k all.length ≤ n := by
          unfold entrancesFor at hn ⊢
          rw [Nat.add_mul] at hn
          omega
        obtain ⟨s, r', h⟩ := ih k rfl _ [] n body (by omega) List.nodup_nil
          (List.nil_subset _) (by simp) hn' hfits _ (fun _ _ ↦ id)
        exact ⟨_, _, by rw [named_of_component n hid hd hb, componentOf_eq, h]; rfl⟩
      · obtain ⟨p, rfl⟩ | ⟨methods, rfl⟩ := Shape.eq_of_not_isComponent hb
        · exact ⟨_, r, named_of_scalar n hid hd⟩
        · exact ⟨_, r, named_of_interface n hid hd⟩

theorem fits_ends (hl : Lists definitions all) {e : Entrance}
    (hnamed : ∀ q, Fits definitions all base path (.named q) → e.EndsOn base (.named q))
    (hrecord : ∀ fields, Fits definitions all base path (.record fields) →
      e.EndsOn base (.record fields)) (shape : Shape)
    (h : Fits definitions all base path shape) : e.EndsOn base shape := by
  match shape with
  | .primitive _ | .unresolved _ | .interface _ => exact fun r _ ↦ ⟨_, r, rfl⟩
  | .named q => exact hnamed q h
  | .record fields => exact hrecord fields h
  | .alias target => exact fits_ends hl hnamed hrecord target (h.of_inlines hl (.alias _))
  | .pointer target => exact fits_ends hl hnamed hrecord target (h.of_inlines hl (.pointer _))
  | .array length item =>
    intro r hr
    obtain ⟨s, r', hs⟩ := fits_ends hl hnamed hrecord item (h.of_inlines hl (.array _ _)) r hr
    exact ⟨_, r', Build.bind_eq_some.mpr ⟨s, r', hs, rfl⟩⟩
  | .map key value =>
    intro r hr
    obtain ⟨s, r', hs⟩ := fits_ends hl hnamed hrecord value (h.of_inlines hl (.map _ _)) r hr
    exact ⟨_, r', Build.bind_eq_some.mpr ⟨s, r', hs, rfl⟩⟩

theorem fits_record_ends (hl : Lists definitions all)
    (ih : ∀ j, p = j + 1 → Suffices definitions all k j) (fields : List ShapeField)
    (hk : unregistered definitions base ≤ k) (hnodup : path.Nodup) (hsub : path ⊆ all)
    (hlen : all.length ≤ path.length + p) (hn : entrancesFor definitions all k p ≤ n)
    (h : Fits definitions all base path (.record fields)) :
    (entrance definitions.find? n).EndsOn base (.record fields) := by
  -- met before, the record would stand in place inside itself
  have hnew : Shape.record fields ∉ path := fun hm ↦ h.ends _ .refl (h.below _ hm)
  have hnodup' : (.record fields :: path).Nodup := List.nodup_cons.mpr ⟨hnew, hnodup⟩
  have hsub' : .record fields :: path ⊆ all :=
    List.cons_subset.mpr ⟨h.listed List.mem_cons_self, hsub⟩
  -- a path without repetition is no longer than the list of all records, so one was left
  have hle := (List.subperm_of_subset hnodup' hsub').length_le
  rw [List.length_cons] at hle
  obtain ⟨p, rfl⟩ : ∃ j, p = j + 1 := ⟨p - 1, by omega⟩
  have hstep : entrancesFor definitions all k (p + 1) =
      entrancesFor definitions all k p + definitions.length := by
    unfold entrancesFor
    ring
  have hpos : 0 < entrancesFor definitions all k p := by unfold entrancesFor; omega
  refine record_ends hpos (fun x hx j hj ↦ ?_) (by omega)
  have hx := Shape.Inlines.field hx
  refine ih p rfl base _ j x.2.type hk hnodup' hsub' (by rw [List.length_cons]; omega) hj ?_
  have hf := h.of_inlines hl hx
  exact ⟨hf.ends, hf.listed, List.forall_mem_cons.mpr ⟨.single hx, hf.below⟩⟩

theorem suffices_step (hl : Lists definitions all)
    (ihk : ∀ j, k = j + 1 → Suffices definitions all j all.length)
    (ihp : ∀ j, p = j + 1 → Suffices definitions all k j) : Suffices definitions all k p :=
  fun _ _ _ shape hk hnodup hsub hlen hn h ↦
    fits_ends hl (fun q hq ↦ named_ends hl ihk q hk hn hq.ends)
      (fun fields hf ↦ fits_record_ends hl ihp fields hk hnodup hsub hlen hn hf) shape h

theorem suffices_all (hl : Lists definitions all) (k p : Nat) : Suffices definitions all k p := by
  -- by `k`, and for each `k` by `p`: a type that is registered allows all records anew
  induction k generalizing p with
  | zero =>
    induction p with
    | zero => exact suffices_step hl (fun _ hj ↦ nomatch hj) fun _ hj ↦ nomatch hj
    | succ p ihp =>
      exact suffices_step hl (fun _ hj ↦ nomatch hj) fun _ hj ↦ Nat.succ.inj hj ▸ ihp
  | succ k ihk =>
    have hk (j : Nat) (hj : k + 1 = j + 1) : Suffices definitions all j all.length :=
      Nat.succ.inj hj ▸ ihk all.length
    induction p with
    | zero => exact suffices_step hl hk fun _ hj ↦ nomatch hj
    | succ p ihp => exact suffices_step hl hk fun _ hj ↦ Nat.succ.inj hj ▸ ihp

end

namespace Generator

/-- The records in a shape and in the bodies of all declared types. -/
def allRecords (definitions : Table QualifiedName Shape) (shape : Shape) : List Shape :=
  shape.recordList ++ definitions.flatMap (·.2.recordList)

theorem lists_allRecords (definitions : Table QualifiedName Shape) (shape : Shape) :
    Lists definitions (allRecords definitions shape) :=
  fun e he _ ht ↦ List.mem_append_right _ (List.mem_flatMap.mpr ⟨e, he, ht⟩)

theorem length_allRecords (definitions : Table QualifiedName Shape) (shape : Shape) :
    (allRecords definitions shape).length =
      totalWeight (fun d ↦ d.2.records) definitions + shape.records := by
  have h : (definitions.flatMap (·.2.recordList)).length =
      totalWeight (fun d ↦ d.2.records) definitions := by
    induction definitions with
    | nil => rfl
    | cons d definitions ih =>
      rw [List.flatMap_cons, List.length_append, ih, totalWeight, Shape.length_recordList]
  rw [allRecords, List.length_append, h, Shape.length_recordList]
  omega

/-- The depth that the generator allows is enough. -/
theorem entrancesFor_le_depth (definitions : Table QualifiedName Shape) (shape : Shape) :
    entrancesFor definitions (allRecords definitions shape) definitions.length
      (allRecords definitions shape).length ≤ depth definitions shape.records := by
  unfold entrancesFor depth
  rw [← length_allRecords definitions shape]
  nlinarith [Nat.zero_le definitions.length, Nat.zero_le (allRecords definitions shape).length]

theorem ends_of_entrance {n : Nat} {shape : Shape} {s : Schema}
    (h : (entrance definitions.find? n).schemaOf shape r = some (s, r')) :
    Ends definitions r shape :=
  ((sound_entrance definitions n).schemaOf shape h).ends

theorem entrance_of_ends {shape : Shape} (h : Ends definitions r shape) :
    ∃ s r', (entrance definitions.find? (depth definitions shape.records)).schemaOf shape r =
      some (s, r') := by
  have hl := lists_allRecords definitions shape
  refine suffices_all hl definitions.length (allRecords definitions shape).length r [] _ shape
    (List.length_filter_le ..) List.nodup_nil (List.nil_subset _) (by simp)
    (entrancesFor_le_depth definitions shape) ⟨h, ?_, by simp⟩ r fun _ _ ↦ id
  exact List.subset_append_left _ _

theorem materialize_of_ends {shape : Shape} {g : Generator}
    (h : Ends g.tables.definitions g.registry shape) :
    ∃ s g', materialize shape g = (.ok s, g') := by
  obtain ⟨s, r, hs⟩ := entrance_of_ends h
  exact ⟨s, { g with registry := r }, by rw [materialize, build_eq]; simp only [hs]⟩

/-- The making of a schema ends exactly when no shape that the walk comes to stands in place
inside itself. No greater depth than the one allowed changes that. -/
theorem materialize_ends_iff (shape : Shape) (g : Generator) :
    ((∃ s g', materialize shape g = (.ok s, g')) ↔
      Ends g.tables.definitions g.registry shape) ∧
    ((∃ n s r', (entrance g.tables.definitions.find? n).schemaOf shape g.registry = some (s, r')) ↔
      Ends g.tables.definitions g.registry shape) := by
  refine ⟨⟨?_, materialize_of_ends⟩, ⟨?_, fun h ↦ ⟨_, entrance_of_ends h⟩⟩⟩
  · rintro ⟨s, g', h⟩
    obtain ⟨r, hw, -⟩ := materialize_ok h
    exact hw.ends
  · rintro ⟨n, s, r', h⟩
    exact ends_of_entrance h

/-- A module with a struct whose field is a struct in place that embeds a pointer to the first. -/
def selfPromoting : Project :=
  let source := "package models\n\n" ++
    "type A struct \x7b\n\tX struct \x7b\n\t\t*A\n\t\x7d\n\x7d\n"
  let files := [(⟨"go.mod"⟩, .file (.text "module m\n")), (⟨"models/models.go"⟩, .file (.text source))]
  .of (.ofNodes ["tmp", "w"] files) (.ofGoMod {} ⟨"/tmp/w"⟩ (.parse "module m\n"))

/-- The type resolves, but at no depth does the walk of its shape end. -/
theorem selfPromoting_never_ends :
    let resolved := Tables.resolve selfPromoting (.qualified "m/models" "A") "m" .empty
    ∃ shape, resolved.1 = .ok shape ∧
      ∀ n, (entrance resolved.2.definitions.find? n).schemaOf shape .empty = none := by
  intro resolved
  have h : (match resolved.1 with
      | .ok shape =>
        ((entrance resolved.2.definitions.find?
          (depth resolved.2.definitions shape.records)).schemaOf shape .empty).isNone
      | .error _ => false) = true := by
    decide +kernel
  split at h
  · rename_i shape hshape
    refine ⟨shape, hshape, fun n ↦ Option.eq_none_iff_forall_ne_some.mpr fun (s, r) hs ↦ ?_⟩
    obtain ⟨s', r', hs'⟩ := entrance_of_ends (ends_of_entrance hs)
    simp [hs'] at h
  · cases h

end Generator

end GoOpenApi
