import GoOpenApi.Proofs.Resolve.Finding

/-!
Two runs of the same walk. What one of them finds the other finds as well if the files say the same
about all names that the first asks for, whatever else there is and whatever was found before.
-/

namespace GoOpenApi.Tables

variable {p p' : Project} {same endless : Prop} {q : QualifiedName} {t t' u : Tables}
  {inside : List QualifiedName} {n n' : Nat} {α β : Type}

/-- The second run, in another project, answers as the first does where the projects say the same
about the names that the first asks for. If `same` holds, both have the same bodies in their tables.
The second runs out of room only if `endless` holds. -/
def lockstep (p p' : Project) (same endless : Prop) : Action.Relation Tables Tables where
  Holds P a a' := ∀ t x u, t.Found p → a t = (.ok x, u) →
    (P x ∧ u.Found p ∧ ∀ q, t.Asked q → u.Asked q) ∧
      ∀ t', t'.Found p' → (same → t'.definitions = t.definitions) →
        (∀ q, u.Asked q → p'.declared? q = p.declared? q) →
        (∃ u', a' t' = (.ok x, u') ∧ u'.Found p' ∧ (same → u'.definitions = u.definitions)) ∨
          endless ∧ ∃ u', a' t' = (.error .endless, u')
  pure hx t _ u ht h := by
    cases h
    exact ⟨⟨hx, ht, fun _ h ↦ h⟩, fun t' ht' hd _ ↦ .inl ⟨t', rfl, ht', hd⟩⟩
  bind ha hf := by
    intro t y v ht h
    obtain ⟨x, u, hx, h⟩ := Action.bind_ok h
    obtain ⟨⟨hp, hu, hasked⟩, hright⟩ := ha t x u ht hx
    obtain ⟨⟨hq, hv, hasked'⟩, hright'⟩ := hf x hp u y v hu h
    refine ⟨⟨hq, hv, fun q hm ↦ hasked' q (hasked q hm)⟩, fun t' ht' hd hsame ↦ ?_⟩
    rw [Action.run_bind]
    rcases hright t' ht' hd fun q hm ↦ hsame q (hasked' q hm) with
      ⟨u', hx', hu', hd'⟩ | ⟨he, u', hx'⟩
    · rw [hx']
      exact hright' u' hu' hd' hsame
    · rw [hx']
      exact .inr ⟨he, u', rfl⟩

section

variable {P : α → Prop} {a a' : Action Tables α}

theorem lockstep_get {f f' : Tables → Action Tables α}
    (h : ∀ t t', (same → t'.definitions = t.definitions) →
      (lockstep p p' same endless).Holds P (f t) (f' t')) :
    (lockstep p p' same endless).Holds P (MonadState.get >>= f) (MonadState.get >>= f') := by
  intro t x u ht hr
  refine ⟨(h t t (fun _ ↦ rfl) t x u ht hr).1, fun t' ht' hd hsame ↦ ?_⟩
  exact (h t t' hd t x u ht hr).2 t' ht' hd hsame

theorem lockstep_endless (he : endless) (h : (finding p True).Holds P a a) :
    (lockstep p p' same endless).Holds P a (throw .endless) :=
  fun _ _ _ ht hr ↦ ⟨finding_ok h ht hr, fun t' _ _ _ ↦ .inr ⟨he, t', rfl⟩⟩

/-- The second run may leave out steps if the bodies in the tables do not matter. -/
theorem lockstep_skip (hs : ¬same) {Q : β → Prop} {f : α → Action Tables β}
    {b : Action Tables β} (ha : (finding p True).Holds P a a)
    (hf : ∀ x, P x → (lockstep p p' same endless).Holds Q (f x) b) :
    (lockstep p p' same endless).Holds Q (a >>= f) b := by
  intro t y v ht h
  obtain ⟨x, u, hx, h⟩ := Action.bind_ok h
  obtain ⟨hp, hu, hasked⟩ := finding_ok ha ht hx
  obtain ⟨⟨hq, hv, hasked'⟩, hright⟩ := hf x hp u y v hu h
  exact ⟨⟨hq, hv, fun q hm ↦ hasked' q (hasked q hm)⟩,
    fun t' ht' _ hsame ↦ hright t' ht' (fun h ↦ absurd h hs) hsame⟩

theorem lockstep_throw (fault : Fault) : (lockstep p p' same endless).Holds P (throw fault) a' :=
  fun _ _ _ _ h ↦ nomatch h

/-- The second run has an answer where it has room. -/
theorem lockstep_of_finding {Q : α → Prop} (h : (lockstep p p' same True).Holds P a a')
    (h' : (finding p' False).Holds Q a' a') : (lockstep p p' same False).Holds P a a' := by
  intro t x u ht hr
  obtain ⟨hleft, hright⟩ := h t x u ht hr
  refine ⟨hleft, fun t' ht' hd hsame ↦ .inl ?_⟩
  rcases hright t' ht' hd hsame with hu | ⟨-, u', hu⟩
  · exact hu
  · exact ((finding_error h' ht' hu).2 rfl).elim

end

theorem declaration_lockstep (q : QualifiedName) :
    (lockstep p p' same endless).Holds (fun found ↦ p.declared? q = some found)
      (declaration p q) (declaration p' q) := by
  intro t found u ht h
  obtain ⟨hdef, hasked, -⟩ := declaration_ok [] h
  have hf : (finding p True).Holds _ (declaration p q) (declaration p q) := declaration_finding q
  obtain ⟨hfound, hu, hmono⟩ := finding_ok hf ht h
  refine ⟨⟨hfound, hu, hmono⟩, fun t' ht' hd hsame ↦ .inl ?_⟩
  have hsame : p'.declared? q = some found := (hsame q ⟨found, hasked⟩).trans hfound
  rcases hr : declaration p' q t' with ⟨fault | found', u'⟩
  · have hnone := (ht'.declaration_error hr).2.1
    cases hnone.symm.trans hsame
  · obtain ⟨hu', hfound'⟩ := ht'.declaration_ok hr
    obtain rfl : found' = found := Option.some.inj (hfound'.symm.trans hsame)
    exact ⟨u', rfl, hu', fun hs ↦ (declaration_ok [] hr).1.trans ((hd hs).trans hdef.symm)⟩

theorem definitionWith_lockstep (hs : same) {named named' : QualifiedName → Action Tables Shape}
    (h : ∀ q', (lockstep p p' same endless).Relates (named q') (named' q')) :
    (lockstep p p' same endless).Relates (definitionWith p named q)
      (definitionWith p' named' q) := by
  apply lockstep_get
  intro t t' hd
  rw [hd hs]
  split
  · exact (lockstep p p' same endless).pure trivial
  · refine (lockstep p p' same endless).bind (declaration_lockstep q) fun found _ ↦ ?_
    cases found with
    | none => exact (lockstep p p' same endless).pure trivial
    | some d =>
      refine (bodyOf_relates d fun q' _ ↦ h q').bind fun body ↦ ?_
      rintro t _ _ ht ⟨⟩
      refine ⟨⟨trivial, ⟨ht.sources, ht.declarations⟩, fun _ h ↦ h⟩, fun t' ht' hd _ ↦ .inl ?_⟩
      exact ⟨_, rfl, ⟨ht'.sources, ht'.declarations⟩, fun hs ↦ by simp [hd hs]⟩

theorem namedWithin_lockstep (hs : same) (he : endless) (q : QualifiedName) :
    (lockstep p p' same endless).Relates (namedWithin p n inside q)
      (namedWithin p' n' inside q) := by
  induction n' generalizing n inside q with
  | zero => exact lockstep_endless he (namedWithin_finding [] fun h ↦ (h trivial).elim)
  | succ n' ih =>
    cases n with
    | zero => exact lockstep_throw _
    | succ n =>
      apply lockstep_get
      intro t t' hd
      rw [hd hs]
      split
      · exact (lockstep p p' same endless).pure trivial
      · refine (definitionWith_lockstep hs fun q' ↦ ih q').bind fun body? ↦ ?_
        cases body? <;> exact (lockstep p p' same endless).pure trivial

theorem resolve_lockstep (hs : same) (type : GoType) (package : String) :
    (lockstep p p' same False).Relates (resolve p type package) (resolve p' type package) := by
  refine lockstep_of_finding ?_ (resolve_finding type package)
  apply lockstep_get
  intro t t' _
  exact shapeOf_relates type package fun q _ ↦ namedWithin_lockstep hs trivial q

theorem resolveFields_lockstep (hs : same) (fields : List Field) (package : String) :
    (lockstep p p' same False).Relates (resolveFields p fields package)
      (resolveFields p' fields package) := by
  refine lockstep_of_finding ?_ (resolveFields_finding fields package)
  apply lockstep_get
  intro t t' _
  exact fieldsOf_relates fields package fun q _ ↦ namedWithin_lockstep hs trivial q

theorem followWithin_lockstep (he : endless) (entered : List QualifiedName) (type : GoType)
    (package : String) (path : List String) :
    (lockstep p p' same endless).Relates (followWithin p n entered type package path)
      (followWithin p' n' entered type package path) := by
  induction n' generalizing n entered type package path with
  | zero => exact lockstep_endless he (followWithin_finding [] (fun h ↦ (h trivial).elim) path)
  | succ n' ih =>
    cases n with
    | zero => exact lockstep_throw _
    | succ n =>
      refine follow_relates type package path fun q here path _ ↦ ?_
      split
      · exact (lockstep p p' same endless).pure trivial
      · refine (lockstep p p' same endless).bind (declaration_lockstep q) fun found _ ↦ ?_
        cases found with
        | none => exact (lockstep p p' same endless).pure trivial
        | some d => exact ih _ _ _ _

theorem nestedType_lockstep (type : GoType) (package : String) (path : List String) :
    (lockstep p p' same False).Relates (nestedType p type package path)
      (nestedType p' type package path) := by
  refine lockstep_of_finding ?_ (nestedType_finding type package path)
  apply lockstep_get
  intro t t' _
  exact followWithin_lockstep trivial [] type package path

end GoOpenApi.Tables
