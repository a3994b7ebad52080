import GoOpenApi.Proofs.Schema.Supply
import Mathlib.Tactic.Tauto

/-!
Walks that make schemas, without a bound on their depth. A walk takes the registry in which it
starts to the one in which it ends, and every schema the generator makes comes from one.
-/

namespace GoOpenApi

namespace Collected

/-- A supplied field added with its schema. -/
def addField (c : Collected) (e : (String × ShapeField) × Schema) : Collected :=
  c.add e.1.1 e.1.2.isRequired e.2

/-- What is collected when the fields of a supply have the given schemas. -/
def ofSchemas (supply : Supply) (schemas : List Schema) : Collected :=
  { (supply.fields.zip schemas).foldl addField {} with embedded := supply.embedded }

theorem ofSchemas_snoc (c : Supply) (ss : List Schema) (h : ss.length = c.fields.length)
    (key : String) (f : ShapeField) (s : Schema) :
    ofSchemas { c with fields := c.fields ++ [(key, f)] } (ss ++ [s]) =
      (ofSchemas c ss).add key f.isRequired s := by
  simp only [ofSchemas, List.zip_append h.symm, List.foldl_append]
  rfl

theorem keys_foldl (es : List ((String × ShapeField) × Schema)) (c : Collected) (key : String) :
    key ∈ Dict.keys (es.foldl addField c).properties ↔
      key ∈ es.map (·.1.1) ∨ key ∈ Dict.keys c.properties := by
  induction es generalizing c with
  | nil => simp
  | cons e es ih =>
    rw [List.foldl_cons, ih, addField, add, Dict.mem_keys_insert, List.map_cons, List.mem_cons]
    tauto

/-- The properties that are collected are those of the supply. -/
theorem mem_keys_ofSchemas {c : Supply} {ss : List Schema} (h : ss.length = c.fields.length)
    (key : String) : key ∈ Dict.keys (ofSchemas c ss).properties ↔ key ∈ c.keys := by
  have hz : (c.fields.zip ss).map (·.1.1) = c.keys := by
    have hf : (c.fields.zip ss).map Prod.fst = c.fields :=
      List.map_fst_zip (Nat.le_of_eq h.symm)
    rw [Supply.keys, ← hf, List.map_map, hf]
    rfl
  rw [ofSchemas, keys_foldl, hz]
  simp [Dict.keys]

theorem properties_toSchema (c : Collected) : c.toSchema.properties.getD [] = c.properties := by
  cases hp : c.properties <;> simp [toSchema, hp]

theorem required_toSchema (c : Collected) : c.toSchema.required.getD [] = c.required := by
  cases hr : c.required <;> simp [toSchema, hr]

end Collected

/-- A declared type with this body has a component of its own. -/
def Shape.isComponent : Shape → Bool
  | .alias (.primitive _) => false
  | .interface _ => false
  | _ => true

theorem Shape.eq_of_not_isComponent {body : Shape} (h : ¬body.isComponent) :
    (∃ p, body = .alias (.primitive p)) ∨ ∃ methods, body = .interface methods := by
  unfold isComponent at h
  split at h
  · exact .inl ⟨_, rfl⟩
  · exact .inr ⟨_, rfl⟩
  · exact absurd rfl h

mutual

/-- A walk of a shape from one registry to another, with the schema it makes. -/
inductive Walk (definitions : Table QualifiedName Shape) :
    Shape → Registry → Schema → Registry → Prop where
  | primitive (p : Primitive) (r : Registry) :
    Walk definitions (.primitive p) r (.ofPrimitive p) r
  | unresolved (q : QualifiedName) (r : Registry) :
    Walk definitions (.unresolved q) r .object r
  | interface (methods : List String) (r : Registry) :
    Walk definitions (.interface methods) r .object r
  | alias {target : Shape} {r r' : Registry} {s : Schema} :
    Walk definitions target r s r' → Walk definitions (.alias target) r s r'
  | pointer {target : Shape} {r r' : Registry} {s : Schema} :
    Walk definitions target r s r' → Walk definitions (.pointer target) r s r'
  | array {length : Option UInt64} {item : Shape} {r r' : Registry} {s : Schema} :
    Walk definitions item r s r' → Walk definitions (.array length item) r (.array s) r'
  | map {key value : Shape} {r r' : Registry} {s : Schema} :
    Walk definitions value r s r' → Walk definitions (.map key value) r (.map s) r'
  | record {fields : List ShapeField} {r r' : Registry} {ss : List Schema} :
    Walks definitions (suppliedFields definitions fields).types r ss r' →
    Walk definitions (.record fields) r
      (Collected.ofSchemas (suppliedFields definitions fields) ss).toSchema r'
  | known {q : QualifiedName} {r : Registry} {id : String} :
    r.idOf? q = some id → Walk definitions (.named q) r (.referenceTo id) r
  | undefined {q : QualifiedName} {r : Registry} :
    r.idOf? q = none → definitions.find? q = none → Walk definitions (.named q) r .object r
  | scalar {q : QualifiedName} {p : Primitive} {r : Registry} :
    r.idOf? q = none → definitions.find? q = some (.alias (.primitive p)) →
    Walk definitions (.named q) r (.ofPrimitive p) r
  | namedInterface {q : QualifiedName} {methods : List String} {r : Registry} :
    r.idOf? q = none → definitions.find? q = some (.interface methods) →
    Walk definitions (.named q) r .object r
  | component {q : QualifiedName} {body : Shape} {r r' : Registry} {s : Schema} :
    r.idOf? q = none → definitions.find? q = some body → body.isComponent →
    Walk definitions body (r.register q).2.2 s r' →
    Walk definitions (.named q) r (.referenceTo (r.freeId q.name))
      (r'.setSchema (r.freeId q.name) s)

/-- Walks of several shapes, one after the other. -/
inductive Walks (definitions : Table QualifiedName Shape) :
    List Shape → Registry → List Schema → Registry → Prop where
  | nil (r : Registry) : Walks definitions [] r [] r
  | cons {shape : Shape} {shapes : List Shape} {r r' r'' : Registry} {s : Schema}
    {ss : List Schema} :
    Walk definitions shape r s r' → Walks definitions shapes r' ss r'' →
    Walks definitions (shape :: shapes) r (s :: ss) r''

end

namespace Walks

variable {definitions : Table QualifiedName Shape}

theorem snoc {shapes : List Shape} {shape : Shape} {r r' r'' : Registry} {ss : List Schema}
    {s : Schema} (h : Walks definitions shapes r ss r') (hs : Walk definitions shape r' s r'') :
    Walks definitions (shapes ++ [shape]) r (ss ++ [s]) r'' := by
  match h with
  | .nil r => exact .cons hs (.nil _)
  | .cons hw hws => exact .cons hw (snoc hws hs)

theorem length_eq {shapes : List Shape} {r r' : Registry} {ss : List Schema}
    (h : Walks definitions shapes r ss r') : ss.length = shapes.length := by
  match h with
  | .nil r => rfl
  | .cons _ hws => exact congrArg (· + 1) (length_eq hws)

end Walks

/-- The state of a record's walk that began in registry `r`: what a supply has collected. -/
def Gathers (definitions : Table QualifiedName Shape) (r : Registry) (supply : Supply)
    (c : Collected) (r' : Registry) : Prop :=
  ∃ ss, Walks definitions supply.types r ss r' ∧ c = .ofSchemas supply ss

namespace Gathers

variable {definitions : Table QualifiedName Shape} {r r' r'' : Registry} {supply : Supply}
  {c : Collected}

theorem start (r : Registry) : Gathers definitions r {} {} r := ⟨[], .nil r, rfl⟩

theorem contains_iff (h : Gathers definitions r supply c r') (key : String) :
    c.properties.contains key ↔ key ∈ supply.keys := by
  obtain ⟨ss, hw, rfl⟩ := h
  have hl : ss.length = supply.fields.length := by simpa [Supply.types] using hw.length_eq
  exact Dict.contains_iff.trans (Collected.mem_keys_ofSchemas hl key)

theorem embedded_eq (h : Gathers definitions r supply c r') : c.embedded = supply.embedded := by
  obtain ⟨ss, -, rfl⟩ := h
  rfl

theorem promoting (h : Gathers definitions r supply c r') (q : QualifiedName) :
    Gathers definitions r { supply with embedded := q :: supply.embedded }
      { c with embedded := q :: c.embedded } r' := by
  obtain ⟨ss, hw, rfl⟩ := h
  exact ⟨ss, hw, rfl⟩

theorem add_of_walk (h : Gathers definitions r supply c r') {f : ShapeField} {key : String}
    {s : Schema} (hk : f.ownKey? = some key) (hn : key ∉ supply.keys)
    (hs : Walk definitions f.type r' s r'') :
    Gathers definitions r (supply.add f) (c.add key f.isRequired s) r'' := by
  obtain ⟨ss, hw, rfl⟩ := h
  have hl : ss.length = supply.fields.length := by simpa [Supply.types] using hw.length_eq
  have he : supply.add f = { supply with fields := supply.fields ++ [(key, f)] } := by
    simp [Supply.add, hk, hn]
  refine ⟨ss ++ [s], ?_, ?_⟩
  · have ht : (supply.add f).types = supply.types ++ [f.type] := by simp [he, Supply.types]
    exact ht ▸ hw.snoc hs
  · rw [he, Collected.ofSchemas_snoc supply ss hl]

end Gathers

namespace Build

variable {α β : Type}

theorem bind_eq_some {a : Build α} {f : α → Build β} {r r' : Registry} {y : β} :
    (a >>= f) r = some (y, r') ↔ ∃ x r₁, a r = some (x, r₁) ∧ f x r₁ = some (y, r') := by
  simp only [bind, StateT.bind, Option.bind_eq_some_iff, Prod.exists]

theorem get_bind (f : Registry → Build β) (r : Registry) :
    ((get : Build Registry) >>= f) r = f r r := rfl

theorem pure_eq_some {x y : α} {r r' : Registry} :
    (pure x : Build α) r = some (y, r') ↔ x = y ∧ r = r' := by
  change some (x, r) = some (y, r') ↔ x = y ∧ r = r'
  simp

end Build

namespace Entrance

/-- What a walk is given to enter declared types makes schemas by walks itself. -/
structure Sound (definitions : Table QualifiedName Shape) (e : Entrance) : Prop where
  named {q : QualifiedName} {r r' : Registry} {s : Schema} :
    e.named q r = some (s, r') → Walk definitions (.named q) r s r'
  promoted {q : QualifiedName} {r₀ r r' : Registry} {supply : Supply} {c c' : Collected} :
    Gathers definitions r₀ supply c r → e.promoted q c r = some (c', r') →
    Gathers definitions r₀ (supply.promote definitions [q]) c' r'

namespace Sound

variable {definitions : Table QualifiedName Shape} {e : Entrance}

theorem collectPromoted (he : e.Sound definitions) {fields : List ShapeField}
    {r₀ r r' : Registry} {supply : Supply} {c c' : Collected}
    (hc : Gathers definitions r₀ supply c r)
    (h : e.collectPromoted fields c r = some (c', r')) :
    Gathers definitions r₀
      (supply.promote definitions (fields.filterMap ShapeField.promoted?)) c' r' := by
  induction fields generalizing supply c r with
  | nil =>
    obtain ⟨rfl, rfl⟩ := Build.pure_eq_some.mp h
    rwa [List.filterMap_nil, Supply.promote_nil]
  | cons f fields ih =>
    rw [Entrance.collectPromoted] at h
    cases hq : f.promoted? with
    | none =>
      rw [List.filterMap_cons_none hq]
      rw [ShapeField.promoted?] at hq
      simp only [hq] at h
      exact ih hc h
    | some q =>
      rw [List.filterMap_cons_some hq, ← List.singleton_append, Supply.promote_append]
      rw [ShapeField.promoted?] at hq
      simp only [hq] at h
      obtain ⟨c₁, r₁, h₁, h⟩ := Build.bind_eq_some.mp h
      exact ih (he.promoted hc h₁) h

mutual

theorem schemaOf (he : e.Sound definitions) (shape : Shape) {r r' : Registry} {s : Schema}
    (h : e.schemaOf shape r = some (s, r')) : Walk definitions shape r s r' := by
  match shape with
  | .primitive p =>
    obtain ⟨rfl, rfl⟩ := Build.pure_eq_some.mp h
    exact .primitive p r
  | .named q => exact he.named h
  | .unresolved q =>
    obtain ⟨rfl, rfl⟩ := Build.pure_eq_some.mp h
    exact .unresolved q r
  | .interface methods =>
    obtain ⟨rfl, rfl⟩ := Build.pure_eq_some.mp h
    exact .interface methods r
  | .alias target => exact .alias (schemaOf he target h)
  | .pointer target => exact .pointer (schemaOf he target h)
  | .array length item =>
    obtain ⟨s, r₁, hs, h⟩ := Build.bind_eq_some.mp h
    obtain ⟨rfl, rfl⟩ := Build.pure_eq_some.mp h
    exact .array (schemaOf he item hs)
  | .map key value =>
    obtain ⟨s, r₁, hs, h⟩ := Build.bind_eq_some.mp h
    obtain ⟨rfl, rfl⟩ := Build.pure_eq_some.mp h
    exact .map (schemaOf he value hs)
  | .record fields =>
    obtain ⟨c₁, r₁, hd, h⟩ := Build.bind_eq_some.mp h
    obtain ⟨c₂, r₂, hp, h⟩ := Build.bind_eq_some.mp h
    obtain ⟨rfl, rfl⟩ := Build.pure_eq_some.mp h
    obtain ⟨ss, hw, rfl⟩ := he.collectPromoted (collectDirect he fields (.start r) hd) hp
    exact .record hw

theorem collectDirect (he : e.Sound definitions) (fields : List ShapeField)
    {r₀ r r' : Registry} {supply : Supply} {c c' : Collected}
    (hc : Gathers definitions r₀ supply c r)
    (h : e.collectDirect fields c r = some (c', r')) :
    Gathers definitions r₀ (supply.direct fields) c' r' := by
  match fields with
  | [] =>
    obtain ⟨rfl, rfl⟩ := Build.pure_eq_some.mp h
    exact hc
  | ⟨name, jsonName, flatten, omitsEmpty, type⟩ :: fields =>
    let f : ShapeField := ⟨name, jsonName, flatten, omitsEmpty, type⟩
    rw [Entrance.collectDirect] at h
    change Gathers definitions r₀ ((supply.add f).direct fields) c' r'
    cases hk : f.ownKey? with
    | none =>
      have ha : supply.add f = supply := by simp [Supply.add, hk]
      rw [ha]
      simp only [ShapeField.ownKey?, f] at hk
      simp only [hk] at h
      exact collectDirect he fields hc h
    | some key =>
      have hk' := hk
      simp only [ShapeField.ownKey?, f] at hk'
      simp only [hk'] at h
      split at h
      · have hm := (hc.contains_iff key).mp ‹_›
        have ha : supply.add f = supply := by simp [Supply.add, hk, hm]
        rw [ha]
        exact collectDirect he fields hc h
      · have hm : key ∉ supply.keys := fun hm ↦ absurd ((hc.contains_iff key).mpr hm) ‹_›
        obtain ⟨s, r₁, hs, h⟩ := Build.bind_eq_some.mp h
        exact collectDirect he fields (hc.add_of_walk hk hm (schemaOf he type hs)) h

end

theorem collect (he : e.Sound definitions) {fields : List ShapeField} {r₀ r r' : Registry}
    {supply : Supply} {c c' : Collected} (hc : Gathers definitions r₀ supply c r)
    (h : e.collect fields c r = some (c', r')) :
    Gathers definitions r₀ (supply.collect definitions fields) c' r' := by
  obtain ⟨c₁, r₁, hd, h⟩ := Build.bind_eq_some.mp h
  exact he.collectPromoted (he.collectDirect fields hc hd) h

end Sound

end Entrance

theorem Registry.register_of_none {r : Registry} {q : QualifiedName} (h : r.idOf? q = none) :
    r.register q = (r.freeId q.name, true,
      { r with
        ids := r.ids.insert q (r.freeId q.name)
        owners := r.owners.insert (r.freeId q.name) q }) := by
  simp [register, h]

theorem componentOf_eq (q : QualifiedName) (make : Build Schema) (r : Registry) :
    componentOf q make r = (make (r.register q).2.2).map fun out ↦
      (.referenceTo (r.register q).1, out.2.setSchema (r.register q).1 out.1) := by
  cases h : make (r.register q).2.2 with
  | none =>
    change (make (r.register q).2.2).bind _ = _
    rw [h]
    rfl
  | some out =>
    change (make (r.register q).2.2).bind _ = _
    rw [h]
    rfl

theorem componentOf_eq_some {q : QualifiedName} {make : Build Schema} {r r' : Registry}
    {s : Schema} (h : componentOf q make r = some (s, r')) :
    ∃ body r₁, make (r.register q).2.2 = some (body, r₁) ∧
      s = .referenceTo (r.register q).1 ∧ r' = r₁.setSchema (r.register q).1 body := by
  rw [componentOf_eq] at h
  obtain ⟨⟨body, r₁⟩, hm, h⟩ := Option.map_eq_some_iff.mp h
  obtain ⟨rfl, rfl⟩ := Prod.mk.inj h
  exact ⟨body, r₁, hm, rfl, rfl⟩

theorem Entrance.recordSchema_eq (e : Entrance) (fields : List ShapeField) :
    e.recordSchema fields = e.schemaOf (.record fields) :=
  bind_assoc (m := Build) _ _ _

theorem walk_component {definitions : Table QualifiedName Shape} {q : QualifiedName}
    {body : Shape} {make : Build Schema} {r r' : Registry} {s : Schema} (hq : r.idOf? q = none)
    (hd : definitions.find? q = some body) (hb : body.isComponent)
    (hm : ∀ {r r' s}, make r = some (s, r') → Walk definitions body r s r')
    (h : componentOf q make r = some (s, r')) : Walk definitions (.named q) r s r' := by
  obtain ⟨s', r₁, h₁, rfl, rfl⟩ := componentOf_eq_some h
  have hid : (r.register q).1 = r.freeId q.name := by rw [Registry.register_of_none hq]
  rw [hid]
  exact .component hq hd hb (hm h₁)

section

variable (d : QualifiedName → Option Shape) (n : Nat) (q : QualifiedName)

theorem named_of_known {r : Registry} {id : String} (h : r.idOf? q = some id) :
    (entrance d (n + 1)).named q r = some (.referenceTo id, r) := by
  refine (Build.get_bind _ r).trans ?_
  simp only [h]
  rfl

variable {d q} {r : Registry}

theorem named_of_undefined (h : r.idOf? q = none) (hd : d q = none) :
    (entrance d (n + 1)).named q r = some (.object, r) := by
  refine (Build.get_bind _ r).trans ?_
  simp only [h, hd]
  rfl

theorem named_of_scalar {p : Primitive} (h : r.idOf? q = none)
    (hd : d q = some (.alias (.primitive p))) :
    (entrance d (n + 1)).named q r = some (.ofPrimitive p, r) := by
  refine (Build.get_bind _ r).trans ?_
  simp only [h, hd]
  rfl

theorem named_of_interface {methods : List String} (h : r.idOf? q = none)
    (hd : d q = some (.interface methods)) :
    (entrance d (n + 1)).named q r = some (.object, r) := by
  refine (Build.get_bind _ r).trans ?_
  simp only [h, hd]
  rfl

theorem named_of_component {body : Shape} (h : r.idOf? q = none) (hd : d q = some body)
    (hb : body.isComponent) :
    (entrance d (n + 1)).named q r = componentOf q ((entrance d n).schemaOf body) r := by
  refine (Build.get_bind _ r).trans ?_
  simp only [h, hd]
  rcases body with _ | _ | _ | _ | target | _ | _ | _ | _
  case «alias» => cases target <;> first | rfl | cases hb
  case interface => cases hb
  all_goals rfl

variable (d q)

theorem promoted_of_mem {c : Collected} (h : q ∈ c.embedded) :
    (entrance d (n + 1)).promoted q c = pure c :=
  if_pos (by simpa using h)

theorem promoted_of_record {c : Collected} {fields : List ShapeField} (h : q ∉ c.embedded)
    (hd : d q = some (.record fields)) :
    (entrance d (n + 1)).promoted q c =
      (entrance d n).collect fields { c with embedded := q :: c.embedded } := by
  refine (if_neg (by simpa using h)).trans ?_
  simp only [hd]

theorem promoted_of_other {c : Collected} (h : q ∉ c.embedded)
    (hd : ∀ fields, d q ≠ some (.record fields)) :
    (entrance d (n + 1)).promoted q c = pure { c with embedded := q :: c.embedded } := by
  refine (if_neg (by simpa using h)).trans ?_
  split
  · exact absurd ‹_› (hd _)
  · rfl

end

/-- Walks that a bound on their depth does not stop are walks. -/
theorem sound_entrance (definitions : Table QualifiedName Shape) (n : Nat) :
    (entrance definitions.find? n).Sound definitions := by
  induction n with
  | zero => exact ⟨fun h ↦ (nomatch h), fun _ h ↦ (nomatch h)⟩
  | succ n ih =>
    refine ⟨fun {q r r' s} h ↦ ?_, fun {q r₀ r r' supply c c'} hc h ↦ ?_⟩
    · cases hq : r.idOf? q with
      | some id =>
        rw [named_of_known _ n q hq] at h
        obtain ⟨rfl, rfl⟩ := Prod.mk.inj (Option.some.inj h)
        exact .known hq
      | none =>
        cases hd : definitions.find? q with
        | none =>
          rw [named_of_undefined n hq hd] at h
          obtain ⟨rfl, rfl⟩ := Prod.mk.inj (Option.some.inj h)
          exact .undefined hq hd
        | some body =>
          by_cases hb : body.isComponent
          · rw [named_of_component n hq hd hb] at h
            exact walk_component hq hd hb (ih.schemaOf body) h
          · obtain ⟨p, rfl⟩ | ⟨methods, rfl⟩ := Shape.eq_of_not_isComponent hb
            · rw [named_of_scalar n hq hd] at h
              obtain ⟨rfl, rfl⟩ := Prod.mk.inj (Option.some.inj h)
              exact .scalar hq hd
            · rw [named_of_interface n hq hd] at h
              obtain ⟨rfl, rfl⟩ := Prod.mk.inj (Option.some.inj h)
              exact .namedInterface hq hd
    · have hp := hc.promoting q
      rw [hc.embedded_eq] at hp
      by_cases hm : q ∈ supply.embedded
      · rw [promoted_of_mem _ n q (by rwa [hc.embedded_eq])] at h
        obtain ⟨rfl, rfl⟩ := Build.pure_eq_some.mp h
        rwa [Supply.promote_cons_of_mem hm, Supply.promote_nil]
      · have hm' : q ∉ c.embedded := by rwa [hc.embedded_eq]
        by_cases hd : ∃ fields, definitions.find? q = some (.record fields)
        · obtain ⟨fields, hd⟩ := hd
          rw [promoted_of_record _ n q hm' hd, hc.embedded_eq] at h
          rw [Supply.promote_cons_record hm hd, List.append_nil]
          exact ih.collect hp h
        · have hd := not_exists.mp hd
          rw [promoted_of_other _ n q hm' hd, hc.embedded_eq] at h
          obtain ⟨rfl, rfl⟩ := Build.pure_eq_some.mp h
          rwa [Supply.promote_cons_other hm hd, Supply.promote_nil]

end GoOpenApi
