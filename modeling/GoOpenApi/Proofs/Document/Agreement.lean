import GoOpenApi.Proofs.Document.Operation
import GoOpenApi.Proofs.Document.Renaming
import GoOpenApi.Proofs.Schema.Histories

/-!
Operations of one method after different histories. What can be made after one history can be made
after another, and is the same up to the ids of components.
-/

namespace GoOpenApi

open GoOpenApi.Generator (containerKey)

/-- A generator between calls that are answered. -/
structure Generator.Stands (p : Project) (g : Generator) : Prop where
  knows : Tables.Knows p ∅ [] [] g.tables
  built : g.registry.Built p

/-- Generators with different histories, in which some containers have properties of the same
names. -/
structure Generator.Matches (p : Project) (containers : Set QualifiedName) (g g' : Generator) :
    Prop where
  left : g.Stands p
  right : g'.Stands p
  stores : ∀ q ∈ containers, ∃ names id id',
    g.registry.Stores q names id ∧ g'.registry.Stores q names id'

/-- The relation holds between all registries that come after those of the generators. -/
def Later (p : Project) (T : Registry → Registry → Prop) (g g' : Generator) : Prop :=
  ∀ k k' : Registry, g.registry.KeepsIds k → g'.registry.KeepsIds k' → k.Built p → k'.Built p →
    T k k'

/-- Two generators that match, and whose registries come after two others. -/
structure Advances (p : Project) (containers : Set QualifiedName) (r r' : Registry)
    (g g' : Generator) : Prop where
  matched : g.Matches p containers g'
  left : r.KeepsIds g.registry
  right : r'.KeepsIds g'.registry

/-- Where the first action answers, the second does, and the answers are related by `R` in all
later registries. Before them `P` is known in this way, and afterwards more containers match. -/
def Agrees {α β : Type} (p : Project) (before after : Set QualifiedName)
    (P : Registry → Registry → Prop) (a : Action Generator α)
    (R : α → β → Registry → Registry → Prop) (a' : Action Generator β) : Prop :=
  ∀ g g' x g₁, g.Matches p before g' → Later p P g g' → a g = (.ok x, g₁) →
    ∃ y g₁', a' g' = (.ok y, g₁') ∧ Advances p after g.registry g'.registry g₁ g₁' ∧
      Later p (R x y) g₁ g₁'

variable {p : Project} {before between after containers : Set QualifiedName}
  {P : Registry → Registry → Prop} {g g' g₁ g₁' : Generator} {α β γ δ : Type}

theorem Registry.KeepsIds.refl (r : Registry) : r.KeepsIds r := fun _ _ h ↦ h

namespace Later

theorem here {T : Registry → Registry → Prop} (h : Later p T g g')
    (hm : g.Matches p containers g') : T g.registry g'.registry :=
  h _ _ (.refl _) (.refl _) hm.left.built hm.right.built

theorem advance {T : Registry → Registry → Prop} (h : Later p T g g')
    (ha : Advances p containers g.registry g'.registry g₁ g₁') : Later p T g₁ g₁' :=
  fun k k' hk hk' ↦ h k k' (ha.left.trans hk) (ha.right.trans hk')

end Later

namespace Agrees

variable {a : Action Generator α} {a' : Action Generator β}
  {R : α → β → Registry → Registry → Prop}

theorem pure {x : α} {y : β} (h : ∀ k k', k.Built p → k'.Built p → P k k' → R x y k k') :
    Agrees p before before P (Pure.pure x) R (Pure.pure y) := by
  rintro g g' _ _ hm hP ⟨⟩
  exact ⟨y, g', rfl, ⟨hm, .refl _, .refl _⟩,
    fun k k' hk hk' hb hb' ↦ h k k' hb hb' (hP k k' hk hk' hb hb')⟩

theorem bind {f : α → Action Generator γ} {f' : β → Action Generator δ}
    {S : γ → δ → Registry → Registry → Prop} (ha : Agrees p before between P a R a')
    (hf : ∀ x y, Agrees p between after (fun k k' ↦ P k k' ∧ R x y k k') (f x) S (f' y)) :
    Agrees p before after P (a >>= f) S (a' >>= f') := by
  intro g g' z g₂ hm hP h
  obtain ⟨x, g₁, h₁, h⟩ := Action.bind_ok h
  obtain ⟨y, g₁', h₁', hadv, hR⟩ := ha g g' x g₁ hm hP h₁
  have hboth : Later p (fun k k' ↦ P k k' ∧ R x y k k') g₁ g₁' := fun k k' hk hk' hb hb' ↦
    ⟨hP.advance hadv k k' hk hk' hb hb', hR k k' hk hk' hb hb'⟩
  obtain ⟨w, g₂', h₂', hadv', hS⟩ := hf x y g₁ g₁' z g₂ hadv.matched hboth h
  refine ⟨w, g₂', ?_, ⟨hadv'.matched, hadv.left.trans hadv'.left,
    hadv.right.trans hadv'.right⟩, hS⟩
  rw [Action.run_bind, h₁']
  exact h₂'

theorem map {S : γ → δ → Registry → Registry → Prop} {f : α → γ} {f' : β → δ}
    (ha : Agrees p before after P a R a')
    (hS : ∀ x y k k', k.Built p → k'.Built p → P k k' → R x y k k' → S (f x) (f' y) k k') :
    Agrees p before after P (do return f (← a)) S (do return f' (← a')) :=
  ha.bind fun x y ↦ .pure fun k k' hb hb' h ↦ hS x y k k' hb hb' h.1 h.2

/-- What is known before may be used to find out what the actions are. -/
theorem assume {T : Prop} (hT : ∀ k k', k.Built p → k'.Built p → P k k' → T)
    (h : T → Agrees p before after P a R a') : Agrees p before after P a R a' :=
  fun g g' x g₁ hm hP ↦
    h (hT _ _ hm.left.built hm.right.built (hP.here hm)) g g' x g₁ hm hP

theorem forget (ha : Agrees p before after P a R a') : Agrees p before ∅ P a R a' := by
  intro g g' x g₁ hm hP h
  obtain ⟨y, g₁', h', hadv, hR⟩ := ha g g' x g₁ hm hP h
  exact ⟨y, g₁', h', ⟨⟨hadv.matched.left, hadv.matched.right, nofun⟩, hadv.left, hadv.right⟩, hR⟩

end Agrees

namespace Generator

theorem Matches.grows {changed : Set QualifiedName} (h : g.Matches p containers g')
    (hs : g₁.Stands p) (hs' : g₁'.Stands p) (hg : g.registry.Grows changed g₁.registry)
    (hg' : g'.registry.Grows changed g₁'.registry) (hd : ∀ q ∈ containers, q ∉ changed) :
    g₁.Matches p containers g₁' where
  left := hs
  right := hs'
  stores q hq := by
    obtain ⟨names, id, id', hstores, hstores'⟩ := h.stores q hq
    exact ⟨names, id, id', hstores.grows hg (hd q hq), hstores'.grows hg' (hd q hq)⟩

theorem Matches.with_tables {t t' : Tables} (h : g.Matches p containers g')
    (ht : Tables.Knows p ∅ [] [] t) (ht' : Tables.Knows p ∅ [] [] t') :
    Matches p containers { g with tables := t } { g' with tables := t' } where
  left := ⟨ht, h.left.built⟩
  right := ⟨ht', h.right.built⟩
  stores := h.stores

theorem materialize_agrees {shape : Shape} {s : Schema} (hm : g.Matches p containers g')
    (hn : shape.DefinedIn g.tables.definitions) (hn' : shape.DefinedIn g'.tables.definitions)
    (h : materialize shape g = (.ok s, g₁)) :
    ∃ u g₁', materialize shape g' = (.ok u, g₁') ∧
      Advances p containers g.registry g'.registry g₁ g₁' ∧
      Later p (SameUpToIds id s u) g₁ g₁' := by
  obtain ⟨r, hw, rfl⟩ := materialize_ok h
  have hd := hm.left.knows.defines
  have hd' := hm.right.knows.defines
  have hb := hm.left.built.walk hd hw
  have hends := hb.ends hd' (hw.walked.1.transfer hd hd' hn hn') hn' g'.registry
  obtain ⟨u, g₁', h'⟩ := materialize_of_ends hends
  obtain ⟨r', hw', rfl⟩ := materialize_ok h'
  have hb' := hm.right.built.walk hd' hw'
  refine ⟨u, _, h', ⟨?_, hw.keepsIds, hw'.keepsIds⟩, fun k k' hk hk' hkb hkb' label ↦ ?_⟩
  · exact hm.grows ⟨hm.left.knows, hb⟩ ⟨hm.right.knows, hb'⟩ (hw.grows hm.left.built.coherent)
      (hw'.grows hm.right.built.coherent) fun q _ ↦ Set.notMem_empty q
  · exact hw.byOwner_eq_of_built hw' hd hd' hn hn' hkb hkb' hk hk' label

theorem schema_agrees (type : GoType) (package : String) :
    Agrees p containers containers P (schema p type package) (SameUpToIds id)
      (schema p type package) := by
  intro g g' s g₁ hm hP h
  rw [schema_eq] at h
  split at h
  · rename_i shape t ht
    obtain ⟨hshape, hk, t', ht', hk'⟩ :=
      (Tables.resolve_settles type package).transfer hm.left.knows hm.right.knows ht
    have hm' := hm.with_tables hk.forget hk'.forget
    have hn := hk.definedIn (List.Subset.refl (type.names package))
    have hn' := hk'.definedIn (List.Subset.refl (type.names package))
    rw [schema_eq, ht']
    rw [← hshape] at hn hn'
    obtain ⟨u, g₁', hu, hadv, hR⟩ := materialize_agrees hm' hn hn' h
    exact ⟨u, g₁', hu, hadv, hR⟩
  · cases h

theorem payload_agrees (q : QualifiedName) :
    Agrees p containers containers P (payload p q)
      (SameUpToIds fun f ↦ Option.map (Dict.mapValues (MediaType.mapSchemas f))) (payload p q) := by
  intro g g' content g₁ hm hP h
  obtain ⟨shape, g₂, hs, h⟩ := Action.bind_ok h
  obtain ⟨t, ht, rfl⟩ := onTables_ok hs
  obtain ⟨hshape, hk, t', ht', hk'⟩ :=
    (Tables.resolve_settles _ _).transfer hm.left.knows hm.right.knows ht
  have hm' := hm.with_tables hk.forget hk'.forget
  have hn := hk.definedIn (List.Subset.refl
    (GoType.names (.qualified q.package q.name) q.package))
  have hn' := hk'.definedIn (List.Subset.refl
    (GoType.names (.qualified q.package q.name) q.package))
  rw [← hshape] at hn hn'
  rw [payload, onTables, Action.run_focus_bind, ht']
  dsimp only
  split at h
  · cases h
    exact ⟨none, _, rfl, ⟨hm', .refl _, .refl _⟩, fun _ _ _ _ _ _ _ ↦ rfl⟩
  · obtain ⟨s, g₂, hs, h⟩ := Action.bind_ok h
    cases h
    obtain ⟨u, g₁', hu, hadv, hR⟩ := materialize_agrees hm' hn hn' hs
    refine ⟨some (jsonContent u), g₁', ?_, hadv, fun k k' hk hk' hb hb' ↦ ?_⟩
    · rw [Action.run_bind, hu]
      rfl
    · exact (hR k k' hk hk' hb hb').lift (fun s ↦ some (jsonContent s)) fun _ _ ↦ rfl

def Refers (q : QualifiedName) (s u : Schema) (r r' : Registry) : Prop :=
  ∃ id id', s = .referenceTo id ∧ u = .referenceTo id' ∧ r.idOf? q = some id ∧
    r'.idOf? q = some id'

theorem Contains.stores {d : Table QualifiedName Shape} {q : QualifiedName}
    {fields : List ShapeField} {r r' : Registry} {s : Schema} (h : Contains d q fields r s r')
    (hr : r.Coherent) :
    r'.Stores q (suppliedFields d fields).keys (r.register q).1 := by
  have hid := h.idOf? hr
  obtain ⟨-, body, r₁, hw, rfl⟩ := h
  refine ⟨hid, body, ?_, hw.hasKeys⟩
  rw [Registry.schemas_setSchema, Dict.find?_insert, if_pos rfl]

/-- A container that could be built from one registry can be built from any other. -/
theorem Contains.exists_componentOf {d d' : Table QualifiedName Shape} {q : QualifiedName}
    {fields : List ShapeField} {r r' : Registry} {s : Schema} (h : Contains d q fields r s r')
    (hb : r.Built p) (hq : p.body? q = none) (hd : p.Defines d) (hd' : p.Defines d')
    (hn : Shape.DefinedIn d (.record fields)) (hn' : Shape.DefinedIn d' (.record fields))
    (k : Registry) :
    ∃ u k', componentOf q ((entrance d'.find? (depth d'
      (ShapeField.recordsIn fields + 1))).recordSchema fields) k = some (u, k') := by
  obtain ⟨-, body, r₁, hw, -⟩ := h
  -- the walk of the record after the other history
  have hends := ((hb.register hq).walk hd hw).ends hd' (hw.walked.1.transfer hd hd' hn hn') hn'
    (k.register q).2.2
  obtain ⟨body', k₁, hw'⟩ := entrance_of_ends hends
  refine ⟨.referenceTo (k.register q).1, k₁.setSchema (k.register q).1 body', ?_⟩
  rw [componentOf_eq, Entrance.recordSchema_eq]
  exact congrArg (Option.map _) hw'

theorem Matches.contains {t t' : Tables} {q : QualifiedName} {fields : List ShapeField}
    {r r' : Registry} {s s' : Schema} (hm : g.Matches p containers g') (hq : p.body? q = none)
    (ht : Tables.Knows p ∅ [] [] t) (ht' : Tables.Knows p ∅ [] [] t')
    (hn : Shape.DefinedIn t.definitions (.record fields))
    (hn' : Shape.DefinedIn t'.definitions (.record fields))
    (hc : Contains t.definitions q fields g.registry s r)
    (hc' : Contains t'.definitions q fields g'.registry s' r') :
    Matches p (insert q containers) ⟨t, r⟩ ⟨t', r'⟩ where
  left := ⟨ht, hm.left.built.contains ht.defines hq hc⟩
  right := ⟨ht', hm.right.built.contains ht'.defines hq hc'⟩
  stores k hk := by
    by_cases hkey : k = q
    · subst hkey
      have hstores' := hc'.stores hm.right.built.coherent
      rw [suppliedFields_eq ht.defines ht'.defines hn hn'] at hstores'
      exact ⟨_, _, _, hc.stores hm.left.built.coherent, hstores'⟩
    · obtain ⟨names, id, id', hstores, hstores'⟩ :=
        hm.stores k (Set.mem_of_mem_insert_of_ne hk hkey)
      exact ⟨names, id, id', hstores.grows (hc.grows hm.left.built.coherent) hkey,
        hstores'.grows (hc'.grows hm.right.built.coherent) hkey⟩

theorem container_agrees (name package : String) (fields : List Field)
    (hq : p.body? (containerKey package name) = none) :
    Agrees p containers (insert (containerKey package name) containers) P
      (container p name package fields) (Refers (containerKey package name))
      (container p name package fields) := by
  intro g g' s g₁ hm hP h
  rw [container_eq] at h
  split at h
  · rename_i shapes t ht
    obtain ⟨hshapes, hk, t', ht', hk'⟩ :=
      (Tables.resolveFields_settles fields package).transfer hm.left.knows hm.right.knows ht
    have hn := hk.definedIn_record (List.Subset.refl (Field.names fields package))
    have hn' := hk'.definedIn_record (List.Subset.refl (Field.names fields package))
    rw [← hshapes] at hn hn'
    obtain ⟨r, hbuild, rfl⟩ := build_ok h
    have hc := componentOf_ok hbuild
    obtain ⟨u, r', hbuild'⟩ :=
      hc.exists_componentOf hm.left.built hq hk.defines hk'.defines hn hn' g'.registry
    have hc' := componentOf_ok hbuild'
    refine ⟨u, ⟨t', r'⟩, ?_, ⟨hm.contains hq hk.forget hk'.forget hn hn' hc hc',
      fun _ _ ↦ (hc.grows hm.left.built.coherent).ids,
      fun _ _ ↦ (hc'.grows hm.right.built.coherent).ids⟩, fun k k' hk hk' hb hb' ↦ ?_⟩
    · rw [container_eq, ht']
      dsimp only
      rw [build_eq]
      dsimp only
      rw [hbuild']
    · exact ⟨_, _, hc.reference, hc'.reference, hk _ _ (hc.idOf? hm.left.built.coherent),
        hk' _ _ (hc'.idOf? hm.right.built.coherent)⟩
  · cases h

section

variable {q : QualifiedName} {s u : Schema}

theorem Refers.sameUpToIds {r r' : Registry} (h : Refers q s u r r') (hr : r.Coherent)
    (hr' : r'.Coherent) : SameUpToIds id s u r r' := by
  obtain ⟨id, id', rfl, rfl, hid, hid'⟩ := h
  intro label
  exact (Schema.byOwner_referenceTo ((hr q id).mp hid) label).trans
    (Schema.byOwner_referenceTo ((hr' q id').mp hid') label).symm

/-- The containers that two references lead to have properties of the same names. -/
theorem Matches.storesIn (hm : g.Matches p containers g') (hq : q ∈ containers)
    (h : Refers q s u g.registry g'.registry) : ∃ names id id', s = .referenceTo id ∧
      u = .referenceTo id' ∧ g.registry.Stores q names id ∧ g'.registry.Stores q names id' := by
  obtain ⟨names, i, i', hs, hs'⟩ := hm.stores q hq
  obtain ⟨id, id', rfl, rfl, hid, hid'⟩ := h
  cases hs.1.symm.trans hid
  cases hs'.1.symm.trans hid'
  exact ⟨names, _, _, rfl, rfl, hs, hs'⟩

theorem unlessEmpty_agrees (hq : q ∈ containers) (hP : ∀ k k', P k k' → Refers q s u k k') :
    Agrees p containers containers P (unlessEmpty s) (SameUpToIds fun f ↦ Option.map f)
      (unlessEmpty u) := by
  intro g g' s? g₁ hm hlater h
  obtain ⟨names, id, id', rfl, rfl, hs, hs'⟩ := hm.storesIn hq (hP _ _ (hlater.here hm))
  obtain ⟨u?, hu⟩ : ∃ u?, unlessEmpty (.referenceTo id') g' = (.ok u?, g') := ⟨_, rfl⟩
  obtain rfl : g = g₁ := congrArg Prod.snd h
  refine ⟨u?, g', hu, ⟨hm, .refl _, .refl _⟩, fun k k' hk hk' hb hb' label ↦ ?_⟩
  rw [unlessEmpty_ok hs h, unlessEmpty_ok hs' hu]
  split
  · rfl
  · have hr := hP _ _ (hlater k k' hk hk' hb hb')
    exact congrArg some (hr.sameUpToIds hb.coherent hb'.coherent label)

theorem cleared_agrees (hq : q ∈ containers) (hP : ∀ k k', P k k' → Refers q s u k k') :
    Agrees p containers containers P (cleared (jsonContent s))
      (SameUpToIds fun f ↦ Option.map (Dict.mapValues (MediaType.mapSchemas f)))
      (cleared (jsonContent u)) := by
  intro g g' content g₁ hm hlater h
  obtain ⟨names, id, id', rfl, rfl, hs, hs'⟩ := hm.storesIn hq (hP _ _ (hlater.here hm))
  obtain ⟨content', hu⟩ : ∃ content', cleared (jsonContent (.referenceTo id')) g' =
    (.ok content', g') := ⟨_, rfl⟩
  obtain rfl : g = g₁ := congrArg Prod.snd h
  refine ⟨content', g', hu, ⟨hm, .refl _, .refl _⟩, fun k k' hk hk' hb hb' label ↦ ?_⟩
  rw [cleared_ok hs h, cleared_ok hs' hu]
  split
  · rfl
  · have hr := hP _ _ (hlater k k' hk hk' hb hb')
    exact congrArg (fun s ↦ some (jsonContent s)) (hr.sameUpToIds hb.coherent hb'.coherent label)

end

theorem parameter_agrees (b : Binding) :
    Agrees p containers containers P (parameter p b) (SameUpToIds Parameter.mapSchemas)
      (parameter p b) :=
  (schema_agrees b.type b.package).map fun _ _ _ _ _ _ _ h label ↦
    congrArg (Parameter.mk _ _ _ · none) (h label)

theorem parameters_agrees (bs : List Binding) :
    Agrees p containers containers P (parameters p bs)
      (SameUpToIds fun f ↦ List.map (Parameter.mapSchemas f)) (parameters p bs) := by
  induction bs generalizing P with
  | nil => exact .pure fun _ _ _ _ _ _ ↦ rfl
  | cons b bs ih =>
    exact (parameter_agrees b).bind fun _ _ ↦ ih.map fun _ _ _ _ _ _ h hqs ↦ h.2.cons hqs

theorem headerOf_agrees (b : Binding) {s u : Schema} {r r' : Registry}
    (h : SameUpToIds id s u r r') :
    (headerOf b s).1 = (headerOf b u).1 ∧
      SameUpToIds Header.mapSchemas (headerOf b s).2 (headerOf b u).2 r r' := by
  unfold headerOf
  split
  · exact ⟨rfl, h.lift (Header.mk (some b.key)) fun _ _ ↦ rfl⟩
  · exact ⟨rfl, h.lift (Header.mk none) fun _ _ ↦ rfl⟩

theorem headersOnto_agrees {d d' : Dict Header} (package : String) (bs : List Binding)
    (hd : ∀ k k', P k k' → SameUpToIds (fun f ↦ Dict.mapValues (Header.mapSchemas f)) d d' k k') :
    Agrees p containers containers P (headersOnto p package d bs)
      (SameUpToIds fun f ↦ Dict.mapValues (Header.mapSchemas f)) (headersOnto p package d' bs) := by
  induction bs generalizing P d d' with
  | nil => exact .pure fun k k' _ _ h ↦ hd k k' h
  | cons b bs ih =>
    refine (schema_agrees b.type _).bind fun s u ↦ ih fun k k' h ↦ ?_
    obtain ⟨hkey, hheader⟩ := headerOf_agrees b h.2
    exact (hd k k' h.1).insert hkey hheader

theorem headers_agrees (package : String) (bs : List Binding) :
    Agrees p containers containers P (headers p package bs)
      (SameUpToIds fun f ↦ Option.map (Dict.mapValues (Header.mapSchemas f)))
      (headers p package bs) := by
  refine (headersOnto_agrees package bs fun _ _ _ _ ↦ rfl).bind fun d d' ↦ ?_
  -- either both are empty, or neither is
  refine .assume (T := d = [] ↔ d' = []) (fun k k' _ _ h ↦ ?_) fun hnil ↦ ?_
  · have hd := h.2 fun _ ↦ ""
    rw [← List.map_eq_nil_iff, ← List.map_eq_nil_iff (l := d')]
    exact Iff.of_eq (congrArg (· = []) hd)
  · cases d with
    | nil =>
      rw [hnil.mp rfl]
      exact .pure fun _ _ _ _ _ _ ↦ rfl
    | cons e d =>
      cases d' with
      | nil => exact absurd (hnil.mpr rfl) (List.cons_ne_nil e d)
      | cons e' d' => exact .pure fun _ _ _ _ h label ↦ congrArg some (h.2 label)

theorem propertiesOnto_agrees {d d' : Dict Schema} (package : String) (fields : List Field)
    (hd : ∀ k k', P k k' → SameUpToIds (fun f ↦ Dict.mapValues f) d d' k k') :
    Agrees p containers containers P (propertiesOnto p package d fields)
      (SameUpToIds fun f ↦ Dict.mapValues f) (propertiesOnto p package d' fields) := by
  induction fields generalizing P d d' with
  | nil => exact .pure fun k k' _ _ h ↦ hd k k' h
  | cons f fields ih =>
    unfold propertiesOnto
    split
    · refine (schema_agrees f.type package).bind fun _ _ ↦ ih fun k k' h ↦ ?_
      have hd : SameUpToIds (fun f ↦ Dict.mapValues (id f)) d d' k k' := hd k k' h.1
      exact hd.insert rfl h.2
    · exact ih hd

theorem form_agrees (package : String) (m : Endpoint) :
    Agrees p containers containers P (form p package m)
      (SameUpToIds fun f ↦ Dict.mapValues (MediaType.mapSchemas f)) (form p package m) := by
  refine (propertiesOnto_agrees package m.bodyFields fun k k' _ label ↦ ?_).map
    fun d d' k k' _ _ _ h ↦ ?_
  · dsimp only
    rw [Dict.mapValues_ofList, Dict.mapValues_ofList, List.map_map, List.map_map]
    rfl
  · refine h.lift (fun d ↦ [(formType,
      MediaType.mk { type := some "object", properties := some d })]) fun f d ↦ ?_
    rw [Dict.mapValues.eq_def _ d, ← Schema.mapProperties_eq]
    rfl

theorem overridesOnto_agrees {d d' : Dict Response} (os : List (Nat × ResponseOverride))
    (hd : ∀ k k', P k k' → SameUpToIds (fun f ↦ Dict.mapValues (Response.mapSchemas f)) d d' k k') :
    Agrees p containers containers P (overridesOnto p d os)
      (SameUpToIds fun f ↦ Dict.mapValues (Response.mapSchemas f)) (overridesOnto p d' os) := by
  induction os generalizing P d d' with
  | nil => exact .pure fun k k' _ _ h ↦ hd k k' h
  | cons e os ih =>
    obtain ⟨code, o⟩ := e
    unfold overridesOnto
    split
    · exact (payload_agrees _).bind fun _ _ ↦ ih fun k k' h ↦
        (hd k k' h.1).insert rfl (h.2.lift (Response.mk _ none) fun _ _ ↦ rfl)
    · exact ih fun k k' h ↦ (hd k k' h).insert rfl fun _ ↦ rfl
    · exact ih hd

theorem withErrors_agrees {d d' : Dict Response} (m : Endpoint)
    (hd : ∀ k k', P k k' → SameUpToIds (fun f ↦ Dict.mapValues (Response.mapSchemas f)) d d' k k') :
    Agrees p containers containers P (withErrors p m d)
      (SameUpToIds fun f ↦ Dict.mapValues (Response.mapSchemas f)) (withErrors p m d') := by
  refine (overridesOnto_agrees _ hd).bind fun d d' ↦ ?_
  split
  · exact .pure fun _ _ _ _ h ↦ h.2
  · exact (payload_agrees _).map fun _ _ _ _ _ _ h hc ↦
      h.2.insert rfl (hc.lift (Response.mk _ none) fun _ _ ↦ rfl)
  · exact .pure fun _ _ _ _ h ↦ h.2.insert rfl fun _ ↦ rfl

theorem operation_agrees (s : Service) (m : Endpoint) :
    Agrees p containers containers P (operation p s m) (SameUpToIds Operation.mapSchemas)
      (operation p s m) := by
  refine (parameters_agrees m.bindings).map fun ps ps' k k' _ _ _ h ↦ ?_
  refine h.lift (fun ps ↦
    Operation.mk _ _ _ _ _ (if ps.isEmpty then none else some ps) none []) fun f ps ↦ ?_
  cases ps <;> rfl

section

variable {s : Service} {m : Endpoint}

theorem requestContent_agrees (hk : ∀ q ∈ m.containers s.package, p.body? q = none) :
    Agrees p ∅ ∅ P (requestContent p s m)
      (SameUpToIds fun f ↦ Option.map (Dict.mapValues (MediaType.mapSchemas f)))
      (requestContent p s m) := by
  unfold requestContent
  split
  · rename_i hu
    have hq : p.body? (containerKey s.package m.requestName) = none :=
      hk _ (by simp [Endpoint.containers, hu])
    exact ((container_agrees m.requestName s.package m.bodyFields hq).bind fun _ _ ↦
      cleared_agrees (Set.mem_insert _ ∅) fun _ _ h ↦ h.2).forget
  · exact (form_agrees s.package m).map fun _ _ _ _ _ _ _ h label ↦ congrArg some (h label)

theorem httpSuccess_agrees (hk : ∀ q ∈ m.containers s.package, p.body? q = none) :
    Agrees p ∅ ∅ P (httpSuccess p s m) (SameUpToIds Response.mapSchemas) (httpSuccess p s m) := by
  have hq : p.body? (containerKey s.package m.responseName) = none :=
    hk _ (List.mem_append_right _ (List.mem_singleton.mpr rfl))
  exact ((container_agrees m.responseName s.package m.responseBodyFields hq).bind fun _ _ ↦
    (headers_agrees s.package m.resultBindings).bind fun _ _ ↦
      (cleared_agrees (Set.mem_insert _ ∅) fun _ _ h ↦ h.1.2).map fun _ _ _ _ _ _ h hc label ↦
        congrArg₂ (Response.mk _) (h.2 label) (hc label)).forget

theorem httpOperation_agrees (hk : ∀ q ∈ m.containers s.package, p.body? q = none) :
    Agrees p ∅ ∅ P (httpOperation p s m) (SameUpToIds Operation.mapSchemas)
      (httpOperation p s m) := by
  rw [httpOperation_eq]
  refine (requestContent_agrees hk).bind fun request request' ↦
    (httpSuccess_agrees hk).bind fun success success' ↦
      (withErrors_agrees m fun k k' h ↦ ?_).bind fun responses responses' ↦
        (operation_agrees s m).map fun o o' k k' _ _ h ho ↦ ho.operation ?_ h.2
  · have hnil : SameUpToIds (fun f ↦ Dict.mapValues (Response.mapSchemas f)) [] [] k k' :=
      fun _ ↦ rfl
    exact hnil.insert rfl h.2
  · refine h.1.1.2.lift (Option.map (RequestBody.mk none true)) fun f content ↦ ?_
    cases content <;> rfl

theorem rpcOperation_agrees (hk : ∀ q ∈ m.containers s.package, p.body? q = none)
    (hm : ¬m.isHttp) :
    Agrees p ∅ ∅ P (rpcOperation p s m) (SameUpToIds Operation.mapSchemas)
      (rpcOperation p s m) := by
  have hrequest : p.body? (containerKey s.package m.requestName) = none :=
    hk _ (by simp [Endpoint.containers, hm])
  have hresponse : p.body? (containerKey s.package m.responseName) = none :=
    hk _ (List.mem_append_right _ (List.mem_singleton.mpr rfl))
  refine ((container_agrees m.requestName s.package m.bodyFields hrequest).bind fun _ _ ↦
    (container_agrees m.responseName s.package m.responseBodyFields hresponse).bind fun _ _ ↦
      (unlessEmpty_agrees (.inr (.inl rfl)) fun _ _ h ↦ h.1.2).bind fun _ _ ↦
        (unlessEmpty_agrees (.inl rfl) fun _ _ h ↦ h.1.2).bind fun _ _ ↦
          (headers_agrees s.package m.resultBindings).bind fun _ _ ↦
            (operation_agrees s m).map fun _ _ _ _ _ _ h ho ↦ ho.operation ?_ ?_).forget
  · refine h.1.1.2.lift (fun params? ↦
      some (RequestBody.mk none true (jsonContent (envelope "params" params?)))) fun f params? ↦ ?_
    rw [← mapReferences_envelope]
    rfl
  · refine h.2.lift₂ h.1.2 (fun headers result? ↦ [("200",
      Response.mk ((statusText? 200).getD "OK") headers (some (jsonContent
        { oneOf := some [envelope "result" result?, errorEnvelope] })))]) fun f headers result? ↦ ?_
    rw [← mapReferences_answer]
    rfl

/-- An operation that can be made after one history can be made after any other, and is the same up
to the ids of components. -/
theorem operationOf_agrees (hk : ∀ q ∈ m.containers s.package, p.body? q = none) :
    Agrees p ∅ ∅ P (operationOf p s m) (SameUpToIds Operation.mapSchemas) (operationOf p s m) := by
  unfold operationOf
  split
  · rename_i hm
    exact httpOperation_agrees hk
  · rename_i hm
    exact rpcOperation_agrees hk hm

end

end Generator

end GoOpenApi
