import GoOpenApi.Proofs.Schema.Building
import Mathlib.Logic.Relation

/-!
Where walks end. A declared type is registered before it is entered and a type is promoted once
for each record, so the one way to walk without end is a record that comes up again among its own
promoted members with no declared type entered on the way.
-/

namespace GoOpenApi

open Relation

/-- The schema of the second shape stands in place inside that of the first. -/
inductive Shape.Inlines (definitions : Table QualifiedName Shape) : Shape → Shape → Prop where
  | alias (target : Shape) : Inlines definitions (.alias target) target
  | pointer (target : Shape) : Inlines definitions (.pointer target) target
  | array (length : Option UInt64) (item : Shape) : Inlines definitions (.array length item) item
  | map (key value : Shape) : Inlines definitions (.map key value) value
  | field {fields : List ShapeField} {e : String × ShapeField} :
    e ∈ (suppliedFields definitions fields).fields → Inlines definitions (.record fields) e.2.type

/-- A walk of `start` comes to a shape, in a registry where it enters types that have no id. -/
inductive Reaches (definitions : Table QualifiedName Shape) (r : Registry) (start : Shape) :
    Shape → Prop where
  | refl : Reaches definitions r start start
  | inline {t u : Shape} :
    Reaches definitions r start t → t.Inlines definitions u → Reaches definitions r start u
  | enter {q : QualifiedName} {body : Shape} :
    Reaches definitions r start (.named q) → r.idOf? q = none →
    definitions.find? q = some body → Reaches definitions r start body

/-- No shape to which a walk comes stands in place inside itself. -/
def Ends (definitions : Table QualifiedName Shape) (r : Registry) (shape : Shape) : Prop :=
  ∀ t, Reaches definitions r shape t → ¬TransGen (Shape.Inlines definitions) t t

variable {definitions : Table QualifiedName Shape} {r r' r'' : Registry}

mutual

theorem Walk.ids {shape : Shape} {r r' : Registry} {s : Schema}
    (h : Walk definitions shape r s r') {q : QualifiedName} {id : String}
    (hq : r.idOf? q = some id) : r'.idOf? q = some id := by
  match h with
  | .primitive _ _ | .unresolved _ _ | .interface _ _ | .known _ | .undefined _ _ | .scalar _ _
  | .namedInterface _ _ => exact hq
  | .alias h | .pointer h | .array h | .map h => exact h.ids hq
  | .record h => exact h.ids hq
  | .component _ _ _ h => exact h.ids (Registry.idOf?_register_of_some hq)

theorem Walks.ids {shapes : List Shape} {r r' : Registry} {ss : List Schema}
    (h : Walks definitions shapes r ss r') {q : QualifiedName} {id : String}
    (hq : r.idOf? q = some id) : r'.idOf? q = some id := by
  match h with
  | .nil _ => exact hq
  | .cons h hs => exact hs.ids (h.ids hq)

end

/-- All ids of the first registry are the same in the second. -/
def Registry.KeepsIds (r r' : Registry) : Prop :=
  ∀ q id, r.idOf? q = some id → r'.idOf? q = some id

theorem Walk.keepsIds {shape : Shape} {s : Schema} (h : Walk definitions shape r s r') :
    r.KeepsIds r' := fun _ _ ↦ h.ids

theorem Walks.keepsIds {shapes : List Shape} {ss : List Schema}
    (h : Walks definitions shapes r ss r') : r.KeepsIds r' := fun _ _ ↦ h.ids

theorem Registry.KeepsIds.trans (h : r.KeepsIds r') (h' : r'.KeepsIds r'') : r.KeepsIds r'' :=
  fun q id hq ↦ h' q id (h q id hq)

theorem Registry.KeepsIds.none (h : r.KeepsIds r') {q : QualifiedName} (hq : r'.idOf? q = none) :
    r.idOf? q = none := by
  cases hr : r.idOf? q with
  | none => rfl
  | some id => simp [h q id hr] at hq

/-- Nothing more is entered from the shape: in place it ends, and the types it names have ids or
have no component. -/
inductive Walked (definitions : Table QualifiedName Shape) (r : Registry) : Shape → Prop where
  | intro {t : Shape} :
    (∀ u, t.Inlines definitions u → Walked definitions r u) →
    (∀ q body, t = .named q → definitions.find? q = some body → body.isComponent →
      r.idOf? q ≠ none) → Walked definitions r t

namespace Walked

theorem mono {t : Shape} (h : Walked definitions r t) (hr : r.KeepsIds r') :
    Walked definitions r' t := by
  induction h with
  | intro _ hq ih => exact .intro ih fun q body ht hd hb hn ↦ hq q body ht hd hb (hr.none hn)

theorem not_cyclic {t : Shape} (h : Walked definitions r t) :
    ¬TransGen (Shape.Inlines definitions) t t := by
  induction h with
  | intro _ _ ih =>
    intro hc
    obtain ⟨u, hu, huc⟩ := TransGen.head'_iff.mp hc
    exact ih u hu (TransGen.tail' huc hu)

theorem of_inlines {t u : Shape} (h : Walked definitions r t) (hu : t.Inlines definitions u) :
    Walked definitions r u := by
  cases h with
  | intro hi _ => exact hi u hu

theorem of_leaf {t : Shape} (hi : ∀ u, ¬t.Inlines definitions u) (hq : ∀ q, t ≠ .named q) :
    Walked definitions r t :=
  .intro (fun u hu ↦ absurd hu (hi u)) fun q _ ht ↦ absurd ht (hq q)

theorem of_inner {t u : Shape} (h : Walked definitions r u)
    (hi : ∀ v, t.Inlines definitions v → v = u) (hq : ∀ q, t ≠ .named q) :
    Walked definitions r t :=
  .intro (fun v hv ↦ hi v hv ▸ h) fun q _ ht ↦ absurd ht (hq q)

theorem of_named {q : QualifiedName}
    (hq : ∀ body, definitions.find? q = some body → body.isComponent → r.idOf? q ≠ none) :
    Walked definitions r (.named q) :=
  .intro (fun _ hu ↦ nomatch hu) fun _ body ht ↦ by
    cases ht
    exact hq body

theorem of_not_isComponent {body : Shape} (h : ¬body.isComponent) :
    Walked definitions r body := by
  obtain ⟨p, rfl⟩ | ⟨methods, rfl⟩ := Shape.eq_of_not_isComponent h
  · have hp : Walked definitions r (.primitive p) :=
      of_leaf (fun _ hu ↦ nomatch hu) fun _ ht ↦ nomatch ht
    exact hp.of_inner (fun _ hu ↦ by cases hu; rfl) fun _ ht ↦ nomatch ht
  · exact of_leaf (fun _ hu ↦ nomatch hu) fun _ ht ↦ nomatch ht

end Walked

/-- The bodies of all types that were given ids between two registries have been walked. -/
def Entered (definitions : Table QualifiedName Shape) (r r' : Registry) : Prop :=
  ∀ q, r.idOf? q = none → r'.idOf? q ≠ none →
    ∃ body, definitions.find? q = some body ∧ Walked definitions r' body

theorem Entered.refl : Entered definitions r r := fun _ hn hs ↦ absurd hn hs

theorem Entered.trans (h : Entered definitions r r') (h' : Entered definitions r' r'')
    (hr : r'.KeepsIds r'') : Entered definitions r r'' := by
  intro q hn hs
  by_cases hq : r'.idOf? q = none
  · exact h' q hq hs
  -- entered by the first of the two walks, and what was walked stays so
  · obtain ⟨body, hd, hw⟩ := h q hn hq
    exact ⟨body, hd, hw.mono hr⟩

mutual

theorem Walk.walked {shape : Shape} {r r' : Registry} {s : Schema}
    (h : Walk definitions shape r s r') :
    Walked definitions r' shape ∧ Entered definitions r r' := by
  match h with
  | .primitive _ _ | .unresolved _ _ | .interface _ _ =>
    exact ⟨.of_leaf (fun _ hu ↦ nomatch hu) (fun _ ht ↦ nomatch ht), .refl⟩
  | .alias h | .pointer h | .array h | .map h =>
    have hw := h.walked
    exact ⟨hw.1.of_inner (fun _ hu ↦ by cases hu; rfl) (fun _ ht ↦ nomatch ht), hw.2⟩
  | .record h =>
    refine ⟨.intro (fun _ hu ↦ ?_) (fun _ _ ht ↦ nomatch ht), h.walked.2⟩
    cases hu with
    | field he => exact h.walked.1 _ (List.mem_map_of_mem he)
  | .known hq => exact ⟨.of_named fun _ _ _ ↦ by simp [hq], .refl⟩
  | .undefined _ hd => exact ⟨.of_named fun _ hb ↦ by simp [hd] at hb, .refl⟩
  | .scalar _ hd | .namedInterface _ hd =>
    refine ⟨.of_named fun _ hb hc ↦ ?_, .refl⟩
    obtain rfl := Option.some.inj (hd.symm.trans hb)
    exact absurd hc Bool.false_ne_true
  | .component (q := q) (r := r) hq hd _ h =>
    have hw := h.walked
    have hown := h.ids (Registry.idOf?_register_self r q)
    refine ⟨.of_named fun _ _ _ ↦ by simp [hown], fun k hn hs ↦ ?_⟩
    by_cases hk : k = q
    · subst hk
      exact ⟨_, hd, hw.1.mono fun _ _ ↦ id⟩
    · obtain ⟨body, hb, hw⟩ := h.walked.2 k (by rwa [Registry.idOf?_register_of_ne hk]) hs
      exact ⟨body, hb, hw.mono fun _ _ ↦ id⟩

theorem Walks.walked {shapes : List Shape} {r r' : Registry} {ss : List Schema}
    (h : Walks definitions shapes r ss r') :
    (∀ t ∈ shapes, Walked definitions r' t) ∧ Entered definitions r r' := by
  match h with
  | .nil _ => exact ⟨fun _ ht ↦ absurd ht List.not_mem_nil, .refl⟩
  | .cons h hs =>
    have hw := h.walked
    have hws := hs.walked
    have hk := hs.keepsIds
    exact ⟨List.forall_mem_cons.mpr ⟨hw.1.mono hk, hws.1⟩, hw.2.trans hws.2 hk⟩

end

/-- A shape that was walked to its end has none inside that would not end. -/
theorem Walk.ends {shape : Shape} {s : Schema} (h : Walk definitions shape r s r') :
    Ends definitions r shape := by
  obtain ⟨hw, he⟩ := h.walked
  -- everything the walk comes to has been walked when it ends
  have hr (t : Shape) (ht : Reaches definitions r shape t) : Walked definitions r' t := by
    induction ht with
    | refl => exact hw
    | inline _ hu ih => exact ih.of_inlines hu
    | enter _ hq hd ih =>
      rename_i q body _
      by_cases hb : body.isComponent
      · cases ih with
        | intro _ hn =>
          obtain ⟨b, hb', hwb⟩ := he q hq (hn q body rfl hd hb)
          obtain rfl := Option.some.inj (hb'.symm.trans hd)
          exact hwb
      · exact .of_not_isComponent hb
  exact fun t ht ↦ (hr t ht).not_cyclic

theorem Reaches.mono {start t : Shape} (h : Reaches definitions r' start t) (hr : r.KeepsIds r') :
    Reaches definitions r start t := by
  induction h with
  | refl => exact .refl
  | inline _ hu ih => exact .inline ih hu
  | enter _ hq hd ih => exact .enter ih (hr.none hq) hd

theorem Reaches.trans {start t u : Shape} (h : Reaches definitions r start t)
    (h' : Reaches definitions r t u) : Reaches definitions r start u := by
  induction h' with
  | refl => exact h
  | inline _ hu ih => exact .inline ih hu
  | enter _ hq hd ih => exact .enter ih hq hd

end GoOpenApi
