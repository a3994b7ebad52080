import GoOpenApi.Proofs.Schema.Renaming
import GoOpenApi.Proofs.Schema.Tables
import GoOpenApi.Proofs.Schema.Termination

/-!
The order in which schemas are requested. It decides which of several types with one name gets
which number behind it, and nothing else.
-/

namespace GoOpenApi

variable {d : Table QualifiedName Shape}

/-- A declared type with its id and its schema, which a walk of its body made. -/
structure Component (d : Table QualifiedName Shape) (r : Registry) (q : QualifiedName)
    (id : String) (body : Shape) (s : Schema) : Prop where
  definition : d.find? q = some body
  isComponent : body.isComponent
  stored : Dict.find? id r.schemas = some s
  made : ∃ before after : Registry, id = before.freeId q.name ∧
    Walk d body (before.register q).2.2 s after ∧ after.KeepsIds r

theorem Component.mono {r r' : Registry} {q : QualifiedName} {id : String} {body : Shape}
    {s : Schema} (h : Component d r q id body s) (hr : r.KeepsIds r')
    (hs : Dict.find? id r'.schemas = Dict.find? id r.schemas) : Component d r' q id body s := by
  obtain ⟨before, after, hid, hw, hk⟩ := h.made
  exact ⟨h.definition, h.isComponent, hs.trans h.stored, before, after, hid, hw, hk.trans hr⟩

/-- All types that are given ids between two registries have components in the end. -/
def Registry.Completes (d : Table QualifiedName Shape) (r r' : Registry) : Prop :=
  ∀ q id, r.idOf? q = none → r'.idOf? q = some id → ∃ body s, Component d r' q id body s

theorem Registry.Completes.refl (r : Registry) : Completes d r r := by
  intro q id hn hs
  rw [hn] at hs
  cases hs

theorem Registry.Completes.trans {r r' r'' : Registry} (h : Completes d r r')
    (h' : Completes d r' r'') (hg : r'.Grows ∅ r'') : Completes d r r'' := by
  intro q id hn hs
  cases hq : r'.idOf? q with
  | none => exact h' q id hq hs
  | some id' =>
    obtain rfl : id' = id := Option.some.inj ((hg.ids hq).symm.trans hs)
    obtain ⟨body, s, hc⟩ := h q id' hn hq
    exact ⟨body, s, hc.mono (fun _ _ ↦ hg.ids) (hg.kept (Set.notMem_empty q) hq)⟩

mutual

theorem Walk.completes {shape : Shape} {r r' : Registry} {s : Schema} (h : Walk d shape r s r')
    (hr : r.Coherent) : r.Completes d r' := by
  match h with
  | .primitive _ _ | .unresolved _ _ | .interface _ _ | .known _ | .undefined _ _ | .scalar _ _
  | .namedInterface _ _ => exact .refl _
  | .alias h | .pointer h | .array h | .map h => exact h.completes hr
  | .record h => exact h.completes hr
  | .component (q := q) (r := r) (s := s) hq hd hb h =>
    intro k id hn hs
    have hg := h.grows (hr.register q)
    have hown := hg.ids (Registry.idOf?_register_self r q)
    rw [Registry.register_of_none hq] at hown
    by_cases hk : k = q
    · subst hk
      obtain rfl : r.freeId k.name = id := Option.some.inj (hown.symm.trans hs)
      refine ⟨_, s, hd, hb, ?_, r, _, rfl, h, fun _ _ h ↦ h⟩
      rw [Registry.schemas_setSchema, Dict.find?_insert, if_pos rfl]
    · obtain ⟨body', s', hc⟩ := h.completes (hr.register q) k id
        (by rwa [Registry.idOf?_register_of_ne hk]) hs
      refine ⟨body', s', hc.mono (fun _ _ h ↦ h) ?_⟩
      have hid : id ≠ r.freeId q.name := fun he ↦ hk (hg.coherent.inj hs (he ▸ hown))
      rw [Registry.schemas_setSchema, Dict.find?_insert, if_neg hid]

theorem Walks.completes {shapes : List Shape} {r r' : Registry} {ss : List Schema}
    (h : Walks d shapes r ss r') (hr : r.Coherent) : r.Completes d r' := by
  match h with
  | .nil _ => exact .refl _
  | .cons h hs =>
    have hc := (h.grows hr).coherent
    exact (h.completes hr).trans (hs.completes hc) (hs.grows hc)

end

/-- A registry in which every type with an id has a component. -/
structure Registry.Complete (d : Table QualifiedName Shape) (r : Registry) : Prop where
  coherent : r.Coherent
  components : ∀ q id, r.idOf? q = some id → ∃ body s, Component d r q id body s

theorem Walks.complete {shapes : List Shape} {r : Registry} {ss : List Schema}
    (h : Walks d shapes .empty ss r) : r.Complete d where
  coherent := (h.grows Registry.coherent_empty).coherent
  components q id hq := h.completes Registry.coherent_empty q id rfl hq

/-- What the name of a declared type becomes, with a text for its component. -/
def namedSchema (d : Table QualifiedName Shape) (label : QualifiedName → String)
    (q : QualifiedName) : Schema :=
  match d.find? q with
  | none | some (.interface _) => .object
  | some (.alias (.primitive p)) => .ofPrimitive p
  | some _ => .referenceTo (label q)

theorem namedSchema_of_component {label : QualifiedName → String} {q : QualifiedName}
    {body : Shape} (hd : d.find? q = some body) (hb : body.isComponent) :
    namedSchema d label q = .referenceTo (label q) := by
  unfold namedSchema
  rw [hd]
  rcases body with _ | _ | _ | _ | target | _ | _ | _ | _
  case «alias» => cases target <;> first | rfl | cases hb
  case interface => cases hb
  all_goals rfl

/-- No name in the shape is foreign. -/
def Shape.Avoids (foreign : Set QualifiedName) (shape : Shape) : Prop :=
  ∀ q ∈ shape.names, q ∉ foreign

/-- Every type with an id that is not foreign has a body that makes a component. -/
structure Registry.Marks (d : Table QualifiedName Shape) (foreign : Set QualifiedName)
    (r : Registry) : Prop where
  coherent : r.Coherent
  components : ∀ q id, r.idOf? q = some id → q ∉ foreign →
    ∃ body, d.find? q = some body ∧ body.isComponent

theorem Registry.Complete.marks {r : Registry} (h : r.Complete d) : r.Marks d ∅ where
  coherent := h.coherent
  components q id hq _ := by
    obtain ⟨body, s, hc⟩ := h.components q id hq
    exact ⟨body, hc.definition, hc.isComponent⟩

section

variable {foreign : Set QualifiedName} {k k' : Registry} {q : QualifiedName} {id : String}

theorem Registry.Marks.byOwner_referenceTo (h : k.Marks d foreign) (hq : k.idOf? q = some id)
    (hf : q ∉ foreign) (label : QualifiedName → String) :
    (Schema.referenceTo id).byOwner k label = namedSchema d label q := by
  obtain ⟨body, hd, hb⟩ := h.components q id hq hf
  rw [Schema.byOwner_referenceTo ((h.coherent q id).mp hq), namedSchema_of_component hd hb]

/-- By its owner a reference does not tell when its component was made. -/
theorem Walk.byOwner_named {r r' : Registry} {s : Schema} (h : Walk d (.named q) r s r')
    (hk : r'.KeepsIds k) (hc : k.Marks d foreign) (hf : q ∉ foreign)
    (label : QualifiedName → String) : s.byOwner k label = namedSchema d label q := by
  cases h with
  | known hq => exact hc.byOwner_referenceTo (hk _ _ hq) hf label
  | undefined _ hd =>
    unfold namedSchema
    rw [hd]
    rfl
  | scalar _ hd =>
    unfold namedSchema
    rw [hd]
    exact Schema.mapReferences_ofPrimitive _ _
  | namedInterface _ hd =>
    unfold namedSchema
    rw [hd]
    rfl
  | component hq _ _ h =>
    rename_i r' _
    have hown := h.ids (Registry.idOf?_register_self r q)
    rw [Registry.register_of_none hq] at hown
    exact hc.byOwner_referenceTo (hk _ _ hown) hf label

variable {label : QualifiedName → String}

theorem Walk.byOwner_eq_named (hk : k.Marks d foreign) (hk' : k'.Marks d foreign)
    {r₁ r₂ r₁' r₂' : Registry} {s u : Schema} (h : Walk d (.named q) r₁ s r₂)
    (h' : Walk d (.named q) r₁' u r₂') (hn : (Shape.named q).Avoids foreign)
    (hr : r₂.KeepsIds k) (hr' : r₂'.KeepsIds k') : s.byOwner k label = u.byOwner k' label := by
  have hf := hn q (List.mem_singleton_self q)
  exact (h.byOwner_named hr hk hf label).trans (h'.byOwner_named hr' hk' hf label).symm

mutual

/-- Two walks of a shape make the same schema by the owners of its references, whatever had been
walked before. -/
theorem Walk.byOwner_eq_of_marks
    (hd : ∀ q body, d.find? q = some body → body.Avoids foreign) (hk : k.Marks d foreign)
    (hk' : k'.Marks d foreign) {shape : Shape} {r₁ r₂ r₁' r₂' : Registry} {s u : Schema}
    (h : Walk d shape r₁ s r₂) (h' : Walk d shape r₁' u r₂') (hn : shape.Avoids foreign)
    (hr : r₂.KeepsIds k) (hr' : r₂'.KeepsIds k') : s.byOwner k label = u.byOwner k' label := by
  match h with
  | .primitive _ _ | .unresolved _ _ | .interface _ _ =>
    cases h'
    simp [Schema.byOwner]
  | .alias h =>
    cases h' with
    | «alias» h' => exact h.byOwner_eq_of_marks hd hk hk' h' hn hr hr'
  | .pointer h =>
    cases h' with
    | pointer h' => exact h.byOwner_eq_of_marks hd hk hk' h' hn hr hr'
  | .array h =>
    cases h' with
    | array h' => exact congrArg Schema.array (h.byOwner_eq_of_marks hd hk hk' h' hn hr hr')
  | .map h =>
    cases h' with
    | map h' =>
      have hv := fun q hq ↦ hn q (List.mem_append_right _ hq)
      exact congrArg Schema.map (h.byOwner_eq_of_marks hd hk hk' h' hv hr hr')
  | .record h =>
    cases h' with
    | record h' =>
      have hs := h.byOwner_eq_of_marks hd hk hk' h' (fun t ht q hq ↦ ?_) hr hr'
      · simp only [Schema.byOwner, Collected.mapReferences_toSchema,
          Collected.mapReferences_ofSchemas]
        exact congrArg (fun ss ↦ (Collected.ofSchemas _ ss).toSchema) hs
      · rcases mem_names_suppliedFields ht hq with hf | ⟨q', inner, hb, hf⟩
        · exact hn q hf
        · exact hd q' _ hb q hf
  | .known hq => exact (Walk.known hq).byOwner_eq_named hk hk' h' hn hr hr'
  | .undefined hq hb => exact (Walk.undefined hq hb).byOwner_eq_named hk hk' h' hn hr hr'
  | .scalar hq hb => exact (Walk.scalar hq hb).byOwner_eq_named hk hk' h' hn hr hr'
  | .namedInterface hq hb =>
    exact (Walk.namedInterface hq hb).byOwner_eq_named hk hk' h' hn hr hr'
  | .component hq hb hc h =>
    exact (Walk.component hq hb hc h).byOwner_eq_named hk hk' h' hn hr hr'

theorem Walks.byOwner_eq_of_marks
    (hd : ∀ q body, d.find? q = some body → body.Avoids foreign) (hk : k.Marks d foreign)
    (hk' : k'.Marks d foreign) {shapes : List Shape} {r₁ r₂ r₁' r₂' : Registry}
    {ss us : List Schema} (h : Walks d shapes r₁ ss r₂) (h' : Walks d shapes r₁' us r₂')
    (hn : ∀ t ∈ shapes, t.Avoids foreign) (hr : r₂.KeepsIds k) (hr' : r₂'.KeepsIds k') :
    ss.map (Schema.byOwner k label) = us.map (Schema.byOwner k' label) := by
  match h with
  | .nil _ =>
    cases h'
    rfl
  | .cons h hs =>
    cases h' with
    | cons h' hs' =>
      obtain ⟨hn, hns⟩ := List.forall_mem_cons.mp hn
      rw [List.map_cons, List.map_cons,
        h.byOwner_eq_of_marks hd hk hk' h' hn (hs.keepsIds.trans hr) (hs'.keepsIds.trans hr'),
        hs.byOwner_eq_of_marks hd hk hk' hs' hns hr hr']

end

theorem Walk.byOwner_eq (hk : k.Complete d) (hk' : k'.Complete d) {shape : Shape}
    {r₁ r₂ r₁' r₂' : Registry} {s u : Schema} (h : Walk d shape r₁ s r₂)
    (h' : Walk d shape r₁' u r₂') (hr : r₂.KeepsIds k) (hr' : r₂'.KeepsIds k') :
    s.byOwner k label = u.byOwner k' label :=
  h.byOwner_eq_of_marks (fun _ _ _ _ _ ↦ Set.notMem_empty _) hk.marks hk'.marks h'
    (fun _ _ ↦ Set.notMem_empty _) hr hr'

end

variable {k k' : Registry}

mutual

/-- A walk gives ids to no other types than a finished one of the same shape. -/
theorem Walk.registers {shape : Shape} {r r' : Registry} {s : Schema} {q : QualifiedName}
    (h : Walk d shape r s r') (hw : Walked d k shape)
    (hk : ∀ q body, k.idOf? q ≠ none → d.find? q = some body → Walked d k body)
    (hq : r'.idOf? q ≠ none) : r.idOf? q ≠ none ∨ k.idOf? q ≠ none := by
  match h with
  | .primitive _ _ | .unresolved _ _ | .interface _ _ | .known _ | .undefined _ _ | .scalar _ _
  | .namedInterface _ _ => exact .inl hq
  | .alias h => exact h.registers (hw.of_inlines (.alias _)) hk hq
  | .pointer h => exact h.registers (hw.of_inlines (.pointer _)) hk hq
  | .array h => exact h.registers (hw.of_inlines (.array _ _)) hk hq
  | .map h => exact h.registers (hw.of_inlines (.map _ _)) hk hq
  | .record h =>
    refine h.registers (fun t ht ↦ ?_) hk hq
    obtain ⟨e, he, rfl⟩ := List.mem_map.mp ht
    exact hw.of_inlines (.field he)
  | .component (q := q₀) hq₀ hd hb h =>
    have hn : k.idOf? q₀ ≠ none := by
      cases hw with
      | intro _ hn => exact hn q₀ _ rfl hd hb
    by_cases he : q = q₀
    · exact .inr (he ▸ hn)
    · rw [← Registry.idOf?_register_of_ne he]
      exact h.registers (hk q₀ _ hn hd) hk hq

theorem Walks.registers {shapes : List Shape} {r r' : Registry} {ss : List Schema}
    {q : QualifiedName} (h : Walks d shapes r ss r') (hw : ∀ t ∈ shapes, Walked d k t)
    (hk : ∀ q body, k.idOf? q ≠ none → d.find? q = some body → Walked d k body)
    (hq : r'.idOf? q ≠ none) : r.idOf? q ≠ none ∨ k.idOf? q ≠ none := by
  match h with
  | .nil _ => exact .inl hq
  | .cons h hs =>
    rw [List.forall_mem_cons] at hw
    rcases hs.registers hw.2 hk hq with hq | hq
    · exact h.registers hw.1 hk hq
    · exact .inr hq

end

/-- What one sequence of walks gives ids, another one over the same shapes does. -/
theorem Walks.registers_of_subset {shapes shapes' : List Shape} {ss us : List Schema}
    {q : QualifiedName} (h : Walks d shapes .empty ss k) (h' : Walks d shapes' .empty us k')
    (hs : shapes ⊆ shapes') (hq : k.idOf? q ≠ none) : k'.idOf? q ≠ none := by
  obtain ⟨hw, he⟩ := h'.walked
  refine (h.registers (fun t ht ↦ hw t (hs ht)) (fun q' body hq' hd ↦ ?_) hq).resolve_left
    fun hn ↦ hn rfl
  obtain ⟨body', hd', hwalked⟩ := he q' rfl hq'
  obtain rfl : body' = body := Option.some.inj (hd'.symm.trans hd)
  exact hwalked

theorem Walks.walk_of_mem_zip {shapes : List Shape} {r k : Registry} {ss : List Schema}
    {shape : Shape} {s : Schema} (h : Walks d shapes r ss k) (hs : (shape, s) ∈ shapes.zip ss) :
    ∃ r₁ r₂, Walk d shape r₁ s r₂ ∧ r₂.KeepsIds k := by
  match h with
  | .nil _ => cases hs
  | .cons hw hws =>
    rw [List.zip_cons_cons] at hs
    rcases List.mem_cons.mp hs with he | hs
    · obtain ⟨rfl, rfl⟩ := Prod.mk.inj he
      exact ⟨_, _, hw, hws.keepsIds⟩
    · exact hws.walk_of_mem_zip hs

/-- An id is the name of the type or that name with a number behind it. -/
def Numbered (name id : String) : Prop := id = name ∨ ∃ n, 2 ≤ n ∧ id = name ++ toString n

theorem Registry.numbered_freeId (r : Registry) (name : String) :
    Numbered name (r.freeId name) := by
  unfold freeId
  split
  · obtain ⟨i, -, he, -⟩ := freeFrom_eq r name 2 r.owners.length
    exact .inr ⟨2 + i, by omega, he⟩
  · exact .inl rfl

namespace Generator

variable (p : Project)

/-- Schemas requested one after the other, each for a type that is written in a package. -/
def schemas : List (GoType × String) → Action Generator (List Schema)
  | [] => return []
  | (type, package) :: requests => do
    let s ← schema p type package
    return s :: (← schemas requests)

variable {p}

theorem schemas_walks {requests : List (GoType × String)} {answers : List Schema}
    {g g' : Generator} {known : List QualifiedName} (hk : Tables.Knows p ∅ [] known g.tables)
    (h : schemas p requests g = (.ok answers, g')) :
    ∃ d, p.Defines d ∧
      (∀ t ∈ requests.map fun request ↦ request.1.shape p.named request.2, t.DefinedIn d) ∧
      Walks d (requests.map fun request ↦ request.1.shape p.named request.2) g.registry answers
        g'.registry := by
  induction requests generalizing g known answers with
  | nil =>
    cases h
    exact ⟨[], .nil p, nofun, .nil _⟩
  | cons request requests ih =>
    obtain ⟨type, package⟩ := request
    obtain ⟨s, g₁, hs, h⟩ := Action.bind_ok h
    obtain ⟨ss, g₂, hss, h⟩ := Action.bind_ok h
    cases h
    rw [schema_eq] at hs
    split at hs
    · rename_i shape t hr
      obtain ⟨hk', rfl⟩ := (Tables.resolve_settles type package known).ok hk hr
      obtain ⟨r, hw, rfl⟩ := materialize_ok hs
      obtain ⟨d, hd, hn, hws⟩ := ih hk' hss
      -- both tables say of a type what the files say, so the walks are walks over their union
      have hd' := hk'.defines
      have hn' := hk'.definedIn (List.subset_append_left (type.names package) known)
      refine ⟨t.definitions ++ d, hd'.append hd, ?_, ?_⟩
      · rw [List.map_cons, List.forall_mem_cons]
        exact ⟨hn'.mono (Table.within_append_left _ d),
          fun t ht ↦ (hn t ht).mono (hd'.within_append_right hd)⟩
      · exact .cons (hw.over (Table.within_append_left _ d) hd' hn')
          (hws.over (hd'.within_append_right hd) hd hn)
    · cases hs

/-- Two orders of the same requests, all of them answered, give ids to the same types. With the
owners in place of the ids each type has the same schema in both, and so has each request. An id
is the name of its type, with or without a number. -/
theorem schemas_independent_of_order {requests requests' : List (GoType × String)}
    {answers answers' : List Schema} {g g' : Generator} (hp : requests.Perm requests')
    (h : schemas p requests .empty = (.ok answers, g))
    (h' : schemas p requests' .empty = (.ok answers', g')) (label : QualifiedName → String) :
    (∀ q, g.registry.idOf? q = none ↔ g'.registry.idOf? q = none) ∧
    (∀ q id id', g.registry.idOf? q = some id → g'.registry.idOf? q = some id' →
      Numbered q.name id ∧ Numbered q.name id' ∧
      ∃ s s', Dict.find? id g.registry.schemas = some s ∧
        Dict.find? id' g'.registry.schemas = some s' ∧
        s.byOwner g.registry label = s'.byOwner g'.registry label) ∧
    answers.length = requests.length ∧ answers'.length = requests'.length ∧
    ∀ request s s', (request, s) ∈ requests.zip answers → (request, s') ∈ requests'.zip answers' →
      s.byOwner g.registry label = s'.byOwner g'.registry label := by
  obtain ⟨d₁, hd₁, hn₁, hw₁⟩ := schemas_walks (.empty p) h
  obtain ⟨d₂, hd₂, hn₂, hw₂⟩ := schemas_walks (.empty p) h'
  -- Both runs are walks over the bodies that either of them has resolved.
  have hw := hw₁.over (Table.within_append_left d₁ d₂) hd₁ hn₁
  have hw' := hw₂.over (hd₁.within_append_right hd₂) hd₂ hn₂
  have hshapes := hp.map fun request ↦ request.1.shape p.named request.2
  have hc := hw.complete
  have hc' := hw'.complete
  refine ⟨fun q ↦ ?_, fun q id id' hq hq' ↦ ?_, by simpa using hw.length_eq,
    by simpa using hw'.length_eq, fun request s s' hs hs' ↦ ?_⟩
  · rw [← not_iff_not]
    exact ⟨hw.registers_of_subset hw' hshapes.subset,
      hw'.registers_of_subset hw hshapes.symm.subset⟩
  · obtain ⟨body, s, hs⟩ := hc.components q id hq
    obtain ⟨body', s', hs'⟩ := hc'.components q id' hq'
    obtain rfl : body = body' := Option.some.inj (hs.definition.symm.trans hs'.definition)
    obtain ⟨r, r₁, rfl, hwalk, hr⟩ := hs.made
    obtain ⟨r', r₁', rfl, hwalk', hr'⟩ := hs'.made
    exact ⟨r.numbered_freeId _, r'.numbered_freeId _, s, s', hs.stored, hs'.stored,
      hwalk.byOwner_eq hc hc' hwalk' hr hr'⟩
  · have hz {requests : List (GoType × String)} {answers : List Schema} {s : Schema}
        (hs : (request, s) ∈ requests.zip answers) :
        (request.1.shape p.named request.2, s) ∈
          (requests.map fun request ↦ request.1.shape p.named request.2).zip answers := by
      rw [List.zip_map_left]
      exact List.mem_map_of_mem hs
    obtain ⟨r, r₁, hwalk, hr⟩ := hw.walk_of_mem_zip (hz hs)
    obtain ⟨r', r₁', hwalk', hr'⟩ := hw'.walk_of_mem_zip (hz hs')
    exact hwalk.byOwner_eq hc hc' hwalk' hr hr'

/-- Two types of one name that refer to themselves, the first also to the second. -/
def sameNames : Project :=
  let a := "package a\n\nimport \"m/b\"\n\n" ++
    "type Node struct \x7b\n\tNext *Node\n\tOther b.Node\n\x7d\n"
  let b := "package b\n\ntype Node struct \x7b\n\tItems []Node\n\x7d\n"
  let files := [(⟨"go.mod"⟩, .file (.text "module m\n")), (⟨"a/a.go"⟩, .file (.text a)),
    (⟨"b/b.go"⟩, .file (.text b))]
  .of (.ofNodes ["tmp", "w"] files) (.ofGoMod {} ⟨"/tmp/w"⟩ (.parse "module m\n"))

/-- The answer and the ids that two types have in the end. -/
def idsAfter (p : Project) (requests : List (GoType × String)) (qs : List QualifiedName) :
    Option (List (Option String)) :=
  match schemas p requests .empty with
  | (.ok _, g) => some (qs.map g.registry.idOf?)
  | (.error _, _) => none

theorem idsAfter_eq_some {p : Project} {requests : List (GoType × String)}
    {qs : List QualifiedName} {ids : List (Option String)}
    (h : idsAfter p requests qs = some ids) :
    ∃ answers g, schemas p requests .empty = (.ok answers, g) ∧ qs.map g.registry.idOf? = ids := by
  unfold idsAfter at h
  split at h
  · exact ⟨_, _, ‹_›, Option.some.inj h⟩
  · cases h

/-- The number goes to the type that comes second, and nothing else changes. -/
theorem sameNames_independent_of_order :
    ∃ answers g answers' g',
      schemas sameNames [(.qualified "m/a" "Node", "m"), (.qualified "m/b" "Node", "m")] .empty =
        (.ok answers, g) ∧
      schemas sameNames [(.qualified "m/b" "Node", "m"), (.qualified "m/a" "Node", "m")] .empty =
        (.ok answers', g') ∧
      g.registry.idOf? ⟨"m/a", "Node"⟩ = some "Node" ∧
      g'.registry.idOf? ⟨"m/a", "Node"⟩ = some "Node2" ∧
      ∃ s s', Dict.find? "Node" g.registry.schemas = some s ∧
        Dict.find? "Node2" g'.registry.schemas = some s' ∧
        s.byOwner g.registry QualifiedName.display =
          s'.byOwner g'.registry QualifiedName.display := by
  have hids : idsAfter sameNames [(.qualified "m/a" "Node", "m"), (.qualified "m/b" "Node", "m")]
      [⟨"m/a", "Node"⟩] = some [some "Node"] := by decide +kernel
  have hids' : idsAfter sameNames [(.qualified "m/b" "Node", "m"), (.qualified "m/a" "Node", "m")]
      [⟨"m/a", "Node"⟩] = some [some "Node2"] := by decide +kernel
  obtain ⟨answers, g, h, hg⟩ := idsAfter_eq_some hids
  obtain ⟨answers', g', h', hg'⟩ := idsAfter_eq_some hids'
  have hq : g.registry.idOf? ⟨"m/a", "Node"⟩ = some "Node" := by simpa using hg
  have hq' : g'.registry.idOf? ⟨"m/a", "Node"⟩ = some "Node2" := by simpa using hg'
  obtain ⟨-, -, hs⟩ :=
    (schemas_independent_of_order (.swap _ _ _) h h' QualifiedName.display).2.1 _ _ _ hq hq'
  exact ⟨answers, g, answers', g', h, h', hq, hq', hs⟩

end Generator

end GoOpenApi
