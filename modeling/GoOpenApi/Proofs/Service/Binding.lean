import GoOpenApi.Proofs.Service.Loading

/-!
What the path and the directives of a method bind. Each name in them stands for an argument, or
else for a result, or for nothing; the bindings are those of the names that stand for something, in
their order.
-/

namespace GoOpenApi

/-- One of the fields has the name, exactly or up to the case of ASCII letters. -/
def Field.isNamed (fields : List Field) (name : String) : Bool :=
  fields.any fun f ↦ f.name == name || Text.equalIgnoringAsciiCase f.name name

theorem Field.isNamed_iff {fields : List Field} {name : String} :
    Field.isNamed fields name ↔
      ∃ f ∈ fields, f.name = name ∨ Text.equalIgnoringAsciiCase f.name name := by
  simp [Field.isNamed]

theorem Field.isSome_find? (fields : List Field) (name : String) :
    (Field.find? fields name).isSome = Field.isNamed fields name := by
  rw [Bool.eq_iff_iff, Field.isNamed_iff, Field.find?]
  cases hf : fields.find? (·.name == name) with
  | some f =>
    have hn : f.name = name := by simpa using List.find?_some hf
    exact ⟨fun _ ↦ ⟨f, List.mem_of_find?_eq_some hf, .inl hn⟩, fun _ ↦ rfl⟩
  | none =>
    rw [List.find?_isSome]
    constructor
    · rintro ⟨f, hm, hc⟩
      exact ⟨f, hm, .inr hc⟩
    · rintro ⟨f, hm, hn | hc⟩
      · exact absurd (beq_iff_eq.mpr hn) (List.find?_eq_none.mp hf f hm)
      · exact ⟨f, hm, hc⟩

namespace Endpoint

/-- The name that stands in a target before the first dot. -/
def rootName (target : String) : String := (Text.split '.' target).headD ""

variable {p : Project} {m : Endpoint} {service package : String} {d : Directives} {sig : Method}
  {specs : List BindingSpec} {spec : BindingSpec} {t t' : Tables}

/-- A binding is made of what stands in the path or a directive, for an argument or a result. -/
structure Binds (m : Endpoint) (isResult : Bool) (spec : BindingSpec) (b : Binding) : Prop where
  location : b.location = spec.location
  key : b.key = spec.key
  arg : ∃ f, m.target? (rootName spec.target) = some (f, isResult) ∧ b.arg = f.name
  path : b.path = (Text.split '.' spec.target).drop 1

/-- Those that stand for arguments, or those that stand for results. -/
def standing (m : Endpoint) (isResult : Bool) (specs : List BindingSpec) : List BindingSpec :=
  specs.filter fun spec ↦ (m.target? (rootName spec.target)).map (·.2) == some isResult

/-- Arguments come before results. -/
theorem map_target? (m : Endpoint) (name : String) :
    (m.target? name).map (·.2) =
      if Field.isNamed m.requestFields name then some false
      else if Field.isNamed m.responseFields name then some true else none := by
  rw [← Field.isSome_find?, ← Field.isSome_find?, target?]
  cases Field.find? m.requestFields name with
  | some f => rfl
  | none => cases Field.find? m.responseFields name <;> rfl

theorem standing_false (m : Endpoint) (specs : List BindingSpec) :
    m.standing false specs =
      specs.filter fun spec ↦ Field.isNamed m.requestFields (rootName spec.target) := by
  apply List.filter_congr
  intro spec _
  rw [map_target?]
  cases Field.isNamed m.requestFields (rootName spec.target) <;>
    cases Field.isNamed m.responseFields (rootName spec.target) <;> rfl

theorem mem_standing_true : spec ∈ m.standing true specs ↔
    spec ∈ specs ∧ Field.isNamed m.requestFields (rootName spec.target) = false ∧
      Field.isNamed m.responseFields (rootName spec.target) := by
  rw [standing, List.mem_filter, map_target?]
  cases Field.isNamed m.requestFields (rootName spec.target) <;>
    cases Field.isNamed m.responseFields (rootName spec.target) <;> simp

theorem bind_binds {bindings : List Binding × List Binding}
    (h : m.bind p package specs t = (.ok bindings, t')) :
    List.Forall₂ (m.Binds false) (m.standing false specs) bindings.1 ∧
      List.Forall₂ (m.Binds true) (m.standing true specs) bindings.2 := by
  induction specs generalizing t bindings with
  | nil =>
    cases h
    exact ⟨.nil, .nil⟩
  | cons spec specs ih =>
    have hroot : (Text.split '.' spec.target).headD "" = rootName spec.target := rfl
    rw [bind, hroot] at h
    cases ht : m.target? (rootName spec.target) with
    | none =>
      rw [ht] at h
      have hs (isResult : Bool) : m.standing isResult (spec :: specs) = m.standing isResult specs :=
        List.filter_cons_of_neg (by simp [ht])
      rw [hs, hs]
      exact ih h
    | some target =>
      obtain ⟨f, isResult⟩ := target
      rw [ht] at h
      obtain ⟨nested, t₁, -, h⟩ := Action.bind_ok h
      obtain ⟨rest, t₂, hr, h⟩ := Action.bind_ok h
      cases h
      obtain ⟨hargs, hresults⟩ := ih hr
      have hb : m.Binds isResult spec ⟨spec.location, spec.key, f.name,
          (Text.split '.' spec.target).drop 1, nested.type, nested.package⟩ :=
        ⟨rfl, rfl, ⟨f, ht, rfl⟩, rfl⟩
      have hs : m.standing isResult (spec :: specs) = spec :: m.standing isResult specs :=
        List.filter_cons_of_pos (by simp [ht])
      have hs' : m.standing (!isResult) (spec :: specs) = m.standing (!isResult) specs :=
        List.filter_cons_of_neg (by simp [ht])
      -- the binding goes in front on its own side, and the other side is that of the rest
      cases isResult with
      | false =>
        rw [hs]
        exact ⟨.cons hb hargs, hs' ▸ hresults⟩
      | true =>
        rw [hs]
        exact ⟨hs' ▸ hargs, .cons hb hresults⟩

structure BindsNames (m : Endpoint) : Prop where
  bindings : List.Forall₂ (m.Binds false) (m.standing false m.bindingSpecs) m.bindings
  resultBindings : List.Forall₂ (m.Binds true) (m.standing true m.bindingSpecs) m.resultBindings

theorem build_ok (h : build p service d package sig t = (.ok m, t')) :
    MadeOf service d sig m ∧ m.BindsNames := by
  obtain ⟨bindings, t₁, hb, h⟩ := Action.bind_ok h
  cases h
  obtain ⟨hargs, hresults⟩ := bind_binds hb
  -- what the names stand for does not depend on the bindings
  exact ⟨⟨bindings.1, bindings.2, rfl⟩, hargs.imp fun _ _ hb ↦ ⟨hb.1, hb.2, hb.3, hb.4⟩,
    hresults.imp fun _ _ hb ↦ ⟨hb.1, hb.2, hb.3, hb.4⟩⟩

end Endpoint

namespace Service

variable {p : Project} {s : Service} {d : InterfaceDecl} {package : String} {t t' : Tables}

theorem buildMethods_ok {service : String} {directives : Directives} {sigs : List Method}
    {ms : List Endpoint} (h : buildMethods p service directives package sigs t = (.ok ms, t')) :
    List.Forall₂ (Endpoint.MadeOf service directives) sigs ms := by
  induction sigs generalizing t ms with
  | nil =>
    cases h
    exact .nil
  | cons sig sigs ih =>
    obtain ⟨m, t₁, hm, h⟩ := Action.bind_ok h
    obtain ⟨ms', t₂, hms, h⟩ := Action.bind_ok h
    cases h
    exact .cons (Endpoint.build_ok hm).1 (ih hms)

theorem build_ok (h : build p d package t = (.ok s, t')) :
    s.name = d.name ∧ s.directives = Directives.parse d.docs ∧
      ∃ sigs, List.Forall₂ (Endpoint.MadeOf s.name s.directives) sigs s.methods := by
  obtain ⟨sigs, t₁, -, h⟩ := Action.bind_ok h
  obtain ⟨ms, t₂, hms, h⟩ := Action.bind_ok h
  cases h
  exact ⟨rfl, rfl, sigs, buildMethods_ok hms⟩

end Service

/-- A project without files, for methods whose types are not looked up. -/
def noFiles : Project := .of (.ofNodes ["tmp", "w"] []) (.bare {} ⟨"/tmp/w"⟩)

end GoOpenApi
