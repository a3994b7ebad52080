import GoOpenApi.Proofs.Schema.Depth
import GoOpenApi.Proofs.Schema.Order

/-!
Schemas of one shape in registries with different histories. What could be walked after one history
can be walked after any other, and by the owners of its references the schema is the same.
-/

namespace GoOpenApi

section

variable {p : Project} {d d' : Table QualifiedName Shape} {r r' : Registry}

theorem suppliedFields_eq (hd : p.Defines d) (hd' : p.Defines d') {fields : List ShapeField}
    (hn : Shape.DefinedIn d (.record fields)) (hn' : Shape.DefinedIn d' (.record fields)) :
    suppliedFields d' fields = suppliedFields d fields :=
  calc
    suppliedFields d' fields = suppliedFields (d ++ d') fields :=
      (suppliedFields_congr (hd.within_append_right hd') hd' hn').symm
    _ = suppliedFields d fields := suppliedFields_congr (Table.within_append_left d d') hd hn

theorem Shape.Inlines.definedIn {t u : Shape} (h : t.Inlines d u) (hd : p.Defines d)
    (hn : t.DefinedIn d) : u.DefinedIn d := by
  cases h with
  | «alias» | pointer | array => exact hn
  | map => exact fun q hq ↦ hn q (List.mem_append_right _ hq)
  | field he => exact definedIn_suppliedFields hd hn _ (List.mem_map_of_mem he)

theorem Shape.Inlines.transfer {t u : Shape} (h : t.Inlines d' u) (hd : p.Defines d)
    (hd' : p.Defines d') (hn : t.DefinedIn d) (hn' : t.DefinedIn d') : t.Inlines d u := by
  cases h with
  | «alias» => exact .alias _
  | pointer => exact .pointer _
  | array => exact .array _ _
  | map => exact .map _ _
  | field he =>
    rw [suppliedFields_eq hd hd' hn hn'] at he
    exact .field he

theorem Walked.transfer {t : Shape} (h : Walked d r t) (hd : p.Defines d) (hd' : p.Defines d')
    (hn : t.DefinedIn d) (hn' : t.DefinedIn d') : Walked d' r t := by
  induction h with
  | intro _ hq ih =>
    refine .intro (fun u hu ↦ ?_) fun q body ht hb hc ↦ ?_
    · have hu' := hu.transfer hd hd' hn hn'
      exact ih u hu' (hu'.definedIn hd hn) (hu.definedIn hd' hn')
    · subst ht
      obtain ⟨body', hb'⟩ := hn q (List.mem_singleton_self q)
      obtain rfl : body' = body :=
        Option.some.inj ((hd.bodies hb').symm.trans (hd'.bodies hb))
      exact hq q body' rfl hb' hc

/-- Every declared type with an id has a component, and its body has been walked. -/
structure Registry.Built (p : Project) (r : Registry) : Prop where
  coherent : r.Coherent
  walked {q : QualifiedName} {body : Shape} : r.idOf? q ≠ none → p.body? q = some body →
    body.isComponent ∧ ∃ d, p.Defines d ∧ d.find? q = some body ∧ Walked d r body

namespace Registry.Built

theorem empty (p : Project) : Registry.empty.Built p where
  coherent := coherent_empty
  walked hq := absurd rfl hq

/-- Types that are new need a body that was walked; the others keep theirs. -/
theorem extend (h : r.Built p) (hc : r'.Coherent) (hr : r.KeepsIds r')
    (hnew : ∀ q body, r.idOf? q = none → r'.idOf? q ≠ none → p.body? q = some body →
      body.isComponent ∧ ∃ d, p.Defines d ∧ d.find? q = some body ∧ Walked d r' body) :
    r'.Built p where
  coherent := hc
  walked {q body} hq hb := by
    by_cases hn : r.idOf? q = none
    · exact hnew q body hn hq hb
    · obtain ⟨hcomponent, d, hd, hb', hw⟩ := h.walked hn hb
      exact ⟨hcomponent, d, hd, hb', hw.mono hr⟩

theorem register (h : r.Built p) {q : QualifiedName} (hq : p.body? q = none) :
    (r.register q).2.2.Built p := by
  refine h.extend (h.coherent.register q) (fun _ _ ↦ idOf?_register_of_some) ?_
  intro q' body hn hs hb
  have hne : q' ≠ q := by
    rintro rfl
    rw [hq] at hb
    cases hb
  exact absurd hn (idOf?_register_of_ne hne ▸ hs)

theorem setSchema (h : r.Built p) (id : String) (s : Schema) : (r.setSchema id s).Built p :=
  h.extend h.coherent (fun _ _ hq ↦ hq) fun _ _ hn hs ↦ absurd hn hs

theorem walk (h : r.Built p) (hd : p.Defines d) {shape : Shape} {s : Schema}
    (hw : Walk d shape r s r') : r'.Built p := by
  refine h.extend (hw.grows h.coherent).coherent hw.keepsIds fun q body hn hs hb ↦ ?_
  obtain ⟨body', hb', hwalked⟩ := hw.walked.2 q hn hs
  obtain rfl : body' = body := Option.some.inj ((hd.bodies hb').symm.trans hb)
  obtain ⟨id, hid⟩ := Option.ne_none_iff_exists'.mp hs
  obtain ⟨body'', s', hc⟩ := hw.completes h.coherent q id hn hid
  obtain rfl : body'' = body' := Option.some.inj (hc.definition.symm.trans hb')
  exact ⟨hc.isComponent, d, hd, hb', hwalked⟩

theorem contains (h : r.Built p) (hd : p.Defines d) {q : QualifiedName} (hq : p.body? q = none)
    {fields : List ShapeField} {s : Schema} (hc : Generator.Contains d q fields r s r') :
    r'.Built p := by
  obtain ⟨-, body, r₁, hw, rfl⟩ := hc
  exact ((h.register hq).walk hd hw).setSchema _ body

theorem marks (h : r.Built p) (hd : p.Defines d) : r.Marks d {q | d.find? q = none} where
  coherent := h.coherent
  components q id hq hn := by
    obtain ⟨body, hb⟩ := Option.ne_none_iff_exists'.mp hn
    exact ⟨body, hb, (h.walked (by simp [hq]) (hd.bodies hb)).1⟩

/-- What has been walked once can be walked from every registry: all types that a walk may enter
have bodies that were walked with it or before. -/
theorem ends {shape : Shape} (h : r.Built p) (hd : p.Defines d) (hw : Walked d r shape)
    (hn : shape.DefinedIn d) (r' : Registry) : Ends d r' shape := by
  have hr (t : Shape) (ht : Reaches d r' shape t) : Walked d r t ∧ t.DefinedIn d := by
    induction ht with
    | refl => exact ⟨hw, hn⟩
    | inline _ hu ih => exact ⟨ih.1.of_inlines hu, hu.definedIn hd ih.2⟩
    | @enter q body _ _ hb ih =>
      refine ⟨?_, hd.closed hb⟩
      by_cases hc : body.isComponent
      · obtain ⟨-, hq⟩ := ih.1
        obtain ⟨-, d', hd', hb', hwalked⟩ := h.walked (hq q body rfl hb hc) (hd.bodies hb)
        exact hwalked.transfer hd' hd (hd'.closed hb') (hd.closed hb)
      · exact .of_not_isComponent hc
  exact fun t ht ↦ (hr t ht).1.not_cyclic

end Registry.Built

/-- By the owners of its references a schema does not tell the history before it. -/
theorem Walk.byOwner_eq_of_built {k k' : Registry} {shape : Shape} {r₁ r₂ r₁' r₂' : Registry}
    {s u : Schema} (h : Walk d shape r₁ s r₂) (h' : Walk d' shape r₁' u r₂') (hd : p.Defines d)
    (hd' : p.Defines d') (hn : shape.DefinedIn d) (hn' : shape.DefinedIn d') (hk : k.Built p)
    (hk' : k'.Built p) (hr : r₂.KeepsIds k) (hr' : r₂'.KeepsIds k')
    (label : QualifiedName → String) : s.byOwner k label = u.byOwner k' label := by
  have hall := hd.append hd'
  have havoids {shape : Shape} (h : shape.DefinedIn (d ++ d')) :
      shape.Avoids {q | Table.find? q (d ++ d') = none} := by
    intro q hq hnone
    obtain ⟨body, hb⟩ := h q hq
    cases hb.symm.trans hnone
  have hwithin := Table.within_append_left d d'
  exact (h.over hwithin hd hn).byOwner_eq_of_marks (fun q body hb ↦ havoids (hall.closed hb))
    (hk.marks hall) (hk'.marks hall) (h'.over (hd.within_append_right hd') hd' hn')
    (havoids (hn.mono hwithin)) hr hr'

end

end GoOpenApi
