import GoOpenApi.Proofs.Resolve.Repeating

/-!
Searches find what the files declare, whatever was resolved before and whether or not it ended with
a fault. A walk through declared types needs no more room than it is given.
-/

namespace GoOpenApi.Tables

variable {p : Project} {packages : List String} {inside : List QualifiedName} {n : Nat}
  {q : QualifiedName} {t t' : Tables} {α β : Type} {endless : Prop}

/-- The results of searches in the tables are those that the files give. -/
structure Found (p : Project) (t : Tables) : Prop where
  sources : t.sources.Faithful p.files
  declarations : ∀ q found, t.declarations.find? q = some found → p.declared? q = some found

theorem Found.empty (p : Project) : empty.Found p := ⟨.empty _, nofun⟩

/-- A search for the name was answered. -/
def Asked (t : Tables) (q : QualifiedName) : Prop := ∃ found, t.declarations.find? q = some found

theorem Found.declaration_ok {found : Option Declaration} (ht : t.Found p)
    (h : declaration p q t = (.ok found, t')) : t'.Found p ∧ p.declared? q = some found := by
  cases hq : t.declarations.find? q with
  | some known =>
    rw [declaration_of_known hq] at h
    cases h
    exact ⟨ht, ht.declarations q _ hq⟩
  | none =>
    rw [declaration_of_new hq] at h
    rcases hl : Sources.locate p.files p.layout q.name q.package t.sources with
      ⟨fault | located, s⟩ <;> rw [hl] at h
    · cases h
    · cases h
      obtain ⟨hs, -, hfirst⟩ := (Sources.locate_spec p q).ok ht.sources hl
      have hd : p.declared? q = some (located.map (·.declaration)) := by
        rw [Project.declared_eq, hfirst, Option.map_some, Option.map_map]
        rfl
      refine ⟨⟨hs, fun q' found h ↦ ?_⟩, hd⟩
      rw [Table.find?_insert] at h
      split at h
      · rename_i hq
        cases h
        exact hq ▸ hd
      · exact ht.declarations _ _ h

theorem Found.declaration_error {fault : Fault} (ht : t.Found p)
    (h : declaration p q t = (.error fault, t')) :
    t'.Found p ∧ p.declared? q = none ∧ fault ≠ .endless := by
  cases hq : t.declarations.find? q with
  | some known =>
    rw [declaration_of_known hq] at h
    cases h
  | none =>
    rw [declaration_of_new hq] at h
    rcases hl : Sources.locate p.files p.layout q.name q.package t.sources with
      ⟨fault | located, s⟩ <;> rw [hl] at h
    · cases h
      obtain ⟨hs, ⟨cause, rfl⟩, hfirst⟩ := (Sources.locate_spec p q).error ht.sources hl
      exact ⟨⟨hs, ht.declarations⟩, by rw [Project.declared_eq, hfirst]; rfl, nofun⟩
    · cases h

/-- Actions that keep what was found and find more. They run out of room only if `endless` holds. -/
def finding (p : Project) (endless : Prop) : Action.Relation Tables Tables where
  Holds P a _ := ∀ t, t.Found p → match a t with
    | (.ok x, t') => P x ∧ t'.Found p ∧ ∀ q, t.Asked q → t'.Asked q
    | (.error fault, t') => t'.Found p ∧ (fault = .endless → endless)
  pure hx t ht := ⟨hx, ht, fun _ h ↦ h⟩
  bind {α β P Q a a' f f'} ha hf := by
    intro t ht
    rw [Action.run_bind]
    have h := ha t ht
    rcases hr : a t with ⟨fault | x, t₁⟩ <;> rw [hr] at h
    · exact h
    · obtain ⟨hp, ht₁, hasked⟩ := h
      have h := hf x hp t₁ ht₁
      simp only
      rcases hr' : f x t₁ with ⟨fault | y, t₂⟩ <;> rw [hr'] at h
      · exact h
      · exact ⟨h.1, h.2.1, fun q hq ↦ h.2.2 q (hasked q hq)⟩

section

variable {P : α → Prop} {a : Action Tables α} {x : α}

theorem finding_ok (h : (finding p endless).Holds P a a) (ht : t.Found p)
    (hr : a t = (.ok x, t')) : P x ∧ t'.Found p ∧ ∀ q, t.Asked q → t'.Asked q := by
  have := h t ht
  rwa [hr] at this

theorem finding_error {fault : Fault} (h : (finding p endless).Holds P a a) (ht : t.Found p)
    (hr : a t = (.error fault, t')) : t'.Found p ∧ (fault = .endless → endless) := by
  have := h t ht
  rwa [hr] at this

theorem finding_found (h : (finding p endless).Holds P a a) (ht : t.Found p) :
    (a t).2.Found p := by
  rcases hr : a t with ⟨fault | x, t'⟩
  · exact (finding_error h ht hr).1
  · exact (finding_ok h ht hr).2.1

theorem finding_get {f : Tables → Action Tables α}
    (h : ∀ t, (finding p endless).Holds P (f t) (f t)) :
    (finding p endless).Holds P (MonadState.get >>= f) (MonadState.get >>= f) :=
  fun t ht ↦ h t t ht

theorem finding_onSources {a : Action Sources α}
    (h : Action.Triple (Sources.Faithful p.files) a (fun x s ↦ s.Faithful p.files ∧ P x)
      fun _ s ↦ s.Faithful p.files) : (finding p True).Holds P (onSources a) (onSources a) := by
  intro t ht
  rw [onSources, Action.run_focus]
  rcases hr : a t.sources with ⟨fault | x, s⟩
  · exact ⟨⟨h.error ht.sources hr, ht.declarations⟩, fun _ ↦ trivial⟩
  · obtain ⟨hs, hx⟩ := h.ok ht.sources hr
    exact ⟨hx, ⟨hs, ht.declarations⟩, fun _ hq ↦ hq⟩

theorem finding_endless (h : endless) :
    (finding p endless).Holds P (throw .endless : Action Tables α) (throw .endless) :=
  fun _ ht ↦ ⟨ht, fun _ ↦ h⟩

end

theorem declaration_finding (q : QualifiedName) :
    (finding p endless).Holds (fun found ↦ p.declared? q = some found) (declaration p q)
      (declaration p q) := by
  intro t ht
  rcases hr : declaration p q t with ⟨fault | found, t'⟩
  · obtain ⟨ht', -, hf⟩ := ht.declaration_error hr
    exact ⟨ht', fun he ↦ absurd he hf⟩
  · obtain ⟨ht', hd⟩ := ht.declaration_ok hr
    obtain ⟨-, -, hk⟩ := declaration_ok [] hr
    exact ⟨hd, ht', fun q ⟨found, hq⟩ ↦ ⟨found, hk.declarations hq⟩⟩

theorem definitionWith_finding {named : QualifiedName → Action Tables Shape}
    (h : ∀ q', p.Leads q q' → (finding p endless).Relates (named q') (named q')) :
    (finding p endless).Relates (definitionWith p named q) (definitionWith p named q) := by
  apply finding_get
  intro t
  split
  · exact (finding p endless).pure trivial
  · refine (finding p endless).bind (declaration_finding q) fun found hf ↦ ?_
    cases found with
    | none => exact (finding p endless).pure trivial
    | some d =>
      refine (bodyOf_relates d fun q' hq ↦ h q' ⟨d, hf, hq⟩).bind fun body ↦ ?_
      exact fun t ht ↦ ⟨trivial, ⟨ht.sources, ht.declarations⟩, fun _ h ↦ h⟩

theorem namedWithin_finding (packages : List String)
    (h : ¬endless → Room p packages inside n ∧ q.package ∈ p.packagesWith packages) :
    (finding p endless).Relates (namedWithin p n inside q) (namedWithin p n inside q) := by
  induction n generalizing inside q with
  | zero =>
    apply finding_endless
    by_contra he
    exact (h he).1.ne_zero rfl
  | succ n ih =>
    apply finding_get
    intro t
    split
    · exact (finding p endless).pure trivial
    · rename_i hc
      have hi : q ∉ inside := by
        intro hm
        simp [hm] at hc
      refine (definitionWith_finding fun q' hl ↦ ih fun he ↦ ?_).bind fun body? ↦ ?_
      · obtain ⟨hr, hq⟩ := h he
        exact ⟨hr.enter hi (Project.mem_range_of_leads hl hq), Project.package_of_leads hl hq⟩
      · cases body? <;> exact (finding p endless).pure trivial

theorem named_finding (tables : Tables) (packages : List String) {weight : Nat}
    (h : packages.length ≤ weight + 1) (hq : q.package ∈ packages) :
    (finding p endless).Relates (namedWithin p (budget p tables weight) [] q)
      (namedWithin p (budget p tables weight) [] q) :=
  namedWithin_finding packages fun _ ↦ ⟨room_budget tables h, List.mem_append_left _ hq⟩

theorem resolve_finding (type : GoType) (package : String) :
    (finding p endless).Relates (resolve p type package) (resolve p type package) := by
  apply finding_get
  intro t
  exact shapeOf_relates type package fun q hq ↦ named_finding t (package :: type.packages)
    (Nat.succ_le_succ type.length_packages_le) (type.package_of_mem_names package hq)

theorem resolveFields_finding (fields : List Field) (package : String) :
    (finding p endless).Relates (resolveFields p fields package)
      (resolveFields p fields package) := by
  apply finding_get
  intro t
  exact fieldsOf_relates fields package fun q hq ↦ named_finding t
    (package :: Field.packages fields) (Nat.succ_le_succ (Field.length_packages_le fields))
    (Field.package_of_mem_names fields package hq)

theorem resolveDeclared_finding (q : QualifiedName) :
    (finding p endless).Relates (resolveDeclared p q) (resolveDeclared p q) := by
  apply finding_get
  intro t
  apply definitionWith_finding
  intro q' hl
  have hq : q.package ∈ p.packagesWith [q.package] := List.mem_append_left _ List.mem_cons_self
  exact namedWithin_finding [q.package] fun _ ↦ ⟨room_of_leads t hl, Project.package_of_leads hl hq⟩

theorem followWithin_finding (packages : List String) {entered : List QualifiedName}
    {type : GoType} {package : String}
    (h : ¬endless → Room p packages entered n ∧
      package :: type.packages ⊆ p.packagesWith packages) (path : List String) :
    (finding p endless).Relates (followWithin p n entered type package path)
      (followWithin p n entered type package path) := by
  induction n generalizing entered type package path with
  | zero =>
    apply finding_endless
    by_contra he
    exact (h he).1.ne_zero rfl
  | succ n ih =>
    refine follow_relates type package path fun q here path hq ↦ ?_
    split
    · exact (finding p endless).pure trivial
    · rename_i hc
      rw [List.contains_iff_mem] at hc
      refine (finding p endless).bind (declaration_finding q) fun found hf ↦ ?_
      cases found with
      | none => exact (finding p endless).pure trivial
      | some d =>
        refine ih (fun he ↦ ?_) path
        obtain ⟨hr, hs⟩ := h he
        have hd := Project.subset_packagesWith hf (hs hq)
        exact ⟨hr.enter hc (Project.mem_range_of_declared hf (hs hq)),
          List.Subset.trans (List.cons_subset_cons _ d.packages_toType) hd⟩

theorem nestedType_finding (type : GoType) (package : String) (path : List String) :
    (finding p endless).Relates (nestedType p type package path)
      (nestedType p type package path) := by
  apply finding_get
  intro t
  exact followWithin_finding (package :: type.packages) (fun _ ↦
    ⟨room_budget t (Nat.succ_le_succ type.length_packages_le), List.subset_append_left _ _⟩) path

end GoOpenApi.Tables
