import GoOpenApi.Proofs.Resolve.Related

/-!
Resolving again. An answer leaves in the tables all that the same question needs, so the question
asked again has the same answer and leaves the tables as they are. This holds of any tables.
-/

namespace GoOpenApi.Tables

variable {p : Project} {inside : List QualifiedName} {q : QualifiedName} {t t' t'' u : Tables}
  {α β : Type}

/-- What the second tables keep of the first. A name that was searched in vain stays without a body,
and the bodies of `inside` are as they were. -/
structure Keeps (inside : List QualifiedName) (t t' : Tables) : Prop where
  definitions {q : QualifiedName} {body : Shape} :
    t.definitions.find? q = some body → t'.definitions.find? q = some body
  declarations {q : QualifiedName} {found : Option Declaration} :
    t.declarations.find? q = some found → t'.declarations.find? q = some found
  undeclared {q : QualifiedName} : t.declarations.find? q = some none →
    t.definitions.find? q = none → t'.definitions.find? q = none
  inside {q : QualifiedName} : q ∈ inside → t'.definitions.find? q = t.definitions.find? q

namespace Keeps

theorem refl (t : Tables) : t.Keeps inside t := ⟨id, id, fun _ h ↦ h, fun _ ↦ rfl⟩

theorem trans (h : t.Keeps inside t') (h' : t'.Keeps inside t'') : t.Keeps inside t'' where
  definitions hq := h'.definitions (h.definitions hq)
  declarations hq := h'.declarations (h.declarations hq)
  undeclared hq hd := h'.undeclared (h.declarations hq) (h.undeclared hq hd)
  inside hq := (h'.inside hq).trans (h.inside hq)

theorem weaken (h : t.Keeps (q :: inside) t') : t.Keeps inside t' :=
  { h with inside := fun hq ↦ h.inside (List.mem_cons_of_mem q hq) }

theorem define {d : Declaration} (hd : t.declarations.find? q = some (some d))
    (hn : t.definitions.find? q = none) (hi : q ∉ inside) (body : Shape) :
    t.Keeps inside { t with definitions := t.definitions.insert q body } where
  definitions {q'} _ h := by
    have hq : q' ≠ q := by
      rintro rfl
      cases hn.symm.trans h
    exact (Table.find?_insert ..).trans ((if_neg hq).trans h)
  declarations := id
  undeclared {q'} hq h := by
    have hq : q' ≠ q := by
      rintro rfl
      cases hd.symm.trans hq
    exact (Table.find?_insert ..).trans ((if_neg hq).trans h)
  inside {q'} hq := by
    have hq : q' ≠ q := fun h ↦ hi (h ▸ hq)
    exact (Table.find?_insert ..).trans (if_neg hq)

end Keeps

/-- Actions whose answers leave the tables as `Keeps` says. -/
def keeping (inside : List QualifiedName) : Action.Relation Tables Tables where
  Holds P a _ := ∀ t x t', a t = (.ok x, t') → P x ∧ t.Keeps inside t'
  pure hx := by
    rintro t _ _ ⟨⟩
    exact ⟨hx, .refl t⟩
  bind ha hf := by
    intro t y t'' h
    obtain ⟨x, t', hx, h⟩ := Action.bind_ok h
    obtain ⟨hp, hk⟩ := ha t x t' hx
    obtain ⟨hq, hk'⟩ := hf x hp t' y t'' h
    exact ⟨hq, hk.trans hk'⟩

/-- Actions where the second repeats the answer of the first from all tables that keep what the
first left, and leaves them as they are. -/
def repeating : Action.Relation Tables Tables where
  Holds P a a' := ∀ t x t', a t = (.ok x, t') →
    P x ∧ t.Keeps [] t' ∧ ∀ u, t'.Keeps [] u → a' u = (.ok x, u)
  pure hx := by
    rintro t _ _ ⟨⟩
    exact ⟨hx, .refl t, fun u _ ↦ rfl⟩
  bind ha hf := by
    intro t y t'' h
    obtain ⟨x, t', hx, h⟩ := Action.bind_ok h
    obtain ⟨hp, hk, hr⟩ := ha t x t' hx
    obtain ⟨hq, hk', hr'⟩ := hf x hp t' y t'' h
    refine ⟨hq, hk.trans hk', fun u hu ↦ ?_⟩
    rw [Action.run_bind, hr u (hk'.trans hu)]
    exact hr' u hu

theorem declaration_of_known {found : Option Declaration}
    (h : t.declarations.find? q = some found) : declaration p q t = (.ok found, t) := by
  rw [declaration, Action.run_get_bind]
  simp only [h]
  rfl

theorem declaration_of_new (h : t.declarations.find? q = none) :
    declaration p q t =
      match Sources.locate p.files p.layout q.name q.package t.sources with
      | (.ok located, s) =>
        (.ok (located.map (·.declaration)), { t with
          sources := s
          declarations := t.declarations.insert q (located.map (·.declaration)) })
      | (.error fault, s) => (.error fault, { t with sources := s }) := by
  rw [declaration, Action.run_get_bind]
  simp only [h, onSources]
  rw [Action.run_focus_bind]
  cases Sources.locate p.files p.layout q.name q.package t.sources with
  | mk r s => cases r <;> rfl

theorem definitions_declaration (p : Project) (q : QualifiedName) (t : Tables) :
    (declaration p q t).2.definitions = t.definitions := by
  cases hq : t.declarations.find? q with
  | some found => rw [declaration_of_known hq]
  | none =>
    rw [declaration_of_new hq]
    split <;> rfl

theorem declaration_ok {found : Option Declaration} (inside : List QualifiedName)
    (h : declaration p q t = (.ok found, t')) :
    t'.definitions = t.definitions ∧ t'.declarations.find? q = some found ∧
      t.Keeps inside t' := by
  cases hq : t.declarations.find? q with
  | some known =>
    rw [declaration_of_known hq] at h
    cases h
    exact ⟨rfl, hq, .refl t⟩
  | none =>
    rw [declaration_of_new hq] at h
    split at h <;> cases h
    refine ⟨rfl, (Table.find?_insert ..).trans (if_pos rfl), id, fun {q'} found h ↦ ?_,
      fun _ h ↦ h, fun _ ↦ rfl⟩
    have hne : q' ≠ q := by
      rintro rfl
      cases hq.symm.trans h
    exact (Table.find?_insert ..).trans ((if_neg hne).trans h)

/-- A body is in the table after it was resolved; there is none for a name that was searched in
vain. -/
theorem definitionWith_ok {named : QualifiedName → Action Tables Shape} {body? : Option Shape}
    (hn : t.definitions.find? q = none) (hi : q ∉ inside)
    (h : ∀ q', (keeping (q :: inside)).Relates (named q') (named q'))
    (hr : definitionWith p named q t = (.ok body?, t')) :
    t.Keeps inside t' ∧ t'.definitions.find? q = body? ∧
      (body? = none → t'.declarations.find? q = some none) := by
  rw [definitionWith, Action.run_get_bind] at hr
  simp only [hn] at hr
  obtain ⟨found, t₁, hd, hr⟩ := Action.bind_ok hr
  obtain ⟨hdef, hfound, hk⟩ := declaration_ok (q :: inside) hd
  cases found with
  | none =>
    cases hr
    exact ⟨hk.weaken, hdef ▸ hn, fun _ ↦ hfound⟩
  | some d =>
    obtain ⟨body, t₂, hb, hr⟩ := Action.bind_ok hr
    cases hr
    have hk' := (bodyOf_relates d (fun q' _ ↦ h q') _ _ _ hb).2
    have hn' : t₂.definitions.find? q = none :=
      (hk'.inside List.mem_cons_self).trans (hdef ▸ hn)
    exact ⟨(hk.trans hk').weaken.trans (.define (hk'.declarations hfound) hn' hi body),
      (Table.find?_insert ..).trans (if_pos rfl), nofun⟩

/-- What a name was answered with, and why it is so again. -/
theorem namedWithin_ok {n : Nat} {shape : Shape}
    (h : namedWithin p n inside q t = (.ok shape, t')) :
    t.Keeps inside t' ∧
      ((shape = .named q ∧ (t'.definitions.contains q || inside.contains q)) ∨
        (shape = .unresolved q ∧ t'.definitions.find? q = none ∧
          t'.declarations.find? q = some none)) := by
  induction n generalizing inside q t t' shape with
  | zero => cases h
  | succ n ih =>
    rw [namedWithin, Action.run_get_bind] at h
    split at h
    · rename_i hc
      cases h
      exact ⟨.refl t, .inl ⟨rfl, hc⟩⟩
    · rename_i hc
      rw [Bool.not_eq_true, Bool.or_eq_false_iff] at hc
      have hn : t.definitions.find? q = none := by simpa [Table.contains] using hc.1
      obtain ⟨body?, t₁, hb, h⟩ := Action.bind_ok h
      obtain ⟨hk, hd, hu⟩ := definitionWith_ok hn (by simpa using hc.2)
        (fun q' t x t' h ↦ ⟨trivial, (ih h).1⟩) hb
      cases body? with
      | some body =>
        cases h
        exact ⟨hk, .inl ⟨rfl, by simp [Table.contains, hd]⟩⟩
      | none =>
        cases h
        exact ⟨hk, .inr ⟨rfl, hd, hu rfl⟩⟩

theorem namedWithin_of_defined {n : Nat} (h : t.definitions.contains q) :
    namedWithin p (n + 1) [] q t = (.ok (.named q), t) := by
  rw [namedWithin, Action.run_get_bind]
  simp only [h, Bool.true_or, if_true]
  rfl

theorem namedWithin_of_undeclared {n : Nat} (hn : t.definitions.find? q = none)
    (hu : t.declarations.find? q = some none) :
    namedWithin p (n + 1) [] q t = (.ok (.unresolved q), t) := by
  have hd : definitionWith p (namedWithin p n [q]) q t = (.ok none, t) := by
    rw [definitionWith, Action.run_get_bind]
    simp only [hn]
    rw [Action.run_bind, declaration_of_known hu]
    rfl
  have hc : (t.definitions.contains q || [].contains q) = false := by simp [Table.contains, hn]
  rw [namedWithin, Action.run_get_bind]
  simp only [hc]
  refine (Action.run_bind ..).trans ?_
  rw [hd]
  rfl

/-- With any room for it, a declared type is resolved as before. -/
theorem namedWithin_repeats (n m : Nat) (q : QualifiedName) :
    repeating.Relates (namedWithin p n [] q) (namedWithin p (m + 1) [] q) := by
  intro t shape t' h
  obtain ⟨hk, hs⟩ := namedWithin_ok h
  refine ⟨trivial, hk, fun u hu ↦ ?_⟩
  obtain ⟨rfl, hq⟩ | ⟨rfl, hn, hq⟩ := hs
  · obtain ⟨body, hb⟩ := Table.contains_iff.mp (by simpa using hq)
    exact namedWithin_of_defined (Table.contains_iff.mpr ⟨body, hu.definitions hb⟩)
  · exact namedWithin_of_undeclared (hu.undeclared hq hn) (hu.declarations hq)

theorem budget_pos (p : Project) (t : Tables) (weight : Nat) :
    ∃ n, budget p t weight = n + 1 :=
  ⟨_, (Nat.succ_pred_eq_of_pos (Nat.mul_pos (Nat.succ_pos _) (Nat.succ_pos _))).symm⟩

/-- A type that was resolved is resolved again in the same way, and nothing is found that was not
there. -/
theorem resolve_again {type : GoType} {package : String} {shape : Shape}
    (h : resolve p type package t = (.ok shape, t')) :
    resolve p type package t' = (.ok shape, t') := by
  obtain ⟨m, hm⟩ := budget_pos p t' type.weight
  change shapeOf (namedWithin p (budget p t type.weight) []) type package t = _ at h
  change shapeOf (namedWithin p (budget p t' type.weight) []) type package t' = _
  rw [hm]
  exact (shapeOf_relates type package (fun q _ ↦ namedWithin_repeats _ m q) t shape t' h).2.2 t'
    (.refl t')

end GoOpenApi.Tables
