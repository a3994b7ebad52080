import GoOpenApi.Proofs.Resolve.Finding
import Mathlib.Data.List.Nodup
import Mathlib.Data.Set.Basic

/-!
Resolving gives what the files say, in whatever order types are resolved. What a body in the
table still names has been met, so that an answer from the table is as good as a walk. After a
fault there are names in the table that nothing has met; they all lead to a fault.
-/

namespace GoOpenApi.Tables

variable {p : Project} {excused : Set QualifiedName}
  {inside inside' names names' known : List QualifiedName} {q q' : QualifiedName} {t : Tables}
  {α β : Type}

/-- What stands in the tables stands in the files. -/
structure Faithful (p : Project) (t : Tables) : Prop where
  sources : t.sources.Faithful p.files
  declarations : ∀ q found, t.declarations.find? q = some found → p.declared? q = some found
  definitions : ∀ q body, t.definitions.find? q = some body → p.body? q = some body

/-- Nothing is left to do for a name inside the bodies of `inside`. -/
def Met (p : Project) (inside : List QualifiedName) (t : Tables) (q : QualifiedName) : Prop :=
  q ∈ inside ∨ (∃ body, t.definitions.find? q = some body) ∨ p.declared? q = some none

/-- The tables after the names `known` have been met. What bodies name has been met as well, apart
from what is excused. -/
structure Knows (p : Project) (excused : Set QualifiedName) (inside known : List QualifiedName)
    (t : Tables) : Prop where
  faithful : t.Faithful p
  closed : ∀ q body q', t.definitions.find? q = some body → p.Leads q q' →
    t.Met p inside q' ∨ q' ∈ excused
  met : ∀ q ∈ known, t.Met p inside q

theorem Met.mono (h : t.Met p inside q) (hi : inside ⊆ inside') : t.Met p inside' q :=
  h.imp_left (hi ·)

theorem Faithful.empty (p : Project) : empty.Faithful p := ⟨.empty _, nofun, nofun⟩

theorem Faithful.found (h : t.Faithful p) : t.Found p := ⟨h.sources, h.declarations⟩

theorem Found.faithful {t' : Tables} (h : t'.Found p) (hd : t'.definitions = t.definitions)
    (ht : t.Faithful p) : t'.Faithful p :=
  ⟨h.sources, h.declarations, hd ▸ ht.definitions⟩

namespace Knows

theorem empty (p : Project) : Knows p excused [] [] empty where
  faithful := .empty p
  closed := nofun
  met := nofun

theorem mono (h : Knows p excused inside known t) (hi : inside ⊆ inside') :
    Knows p excused inside' known t where
  faithful := h.faithful
  closed q body q' hd hl := (h.closed q body q' hd hl).imp_left (·.mono hi)
  met q hq := (h.met q hq).mono hi

theorem with_met (h : Knows p excused inside known t) (hq : ∀ q ∈ names, t.Met p inside q) :
    Knows p excused inside (names ++ known) t where
  faithful := h.faithful
  closed := h.closed
  met q hm := (List.mem_append.mp hm).elim (hq q) (h.met q)

theorem forget (h : Knows p excused inside known t) : Knows p excused inside [] t where
  faithful := h.faithful
  closed := h.closed
  met := nofun

/-- A body that is given up leaves the names in others that are excused. -/
theorem leave (h : Knows p excused (q :: inside) known t) (hq : q ∈ excused) :
    Knows p excused inside [] t where
  faithful := h.faithful
  closed q' body q'' hd hl := by
    rcases h.closed q' body q'' hd hl with (hi | hm) | he
    · rcases List.mem_cons.mp hi with rfl | hi
      · exact .inr hq
      · exact .inl (.inl hi)
    · exact .inl (.inr hm)
    · exact .inr he
  met := nofun

/-- What has been met outside all bodies leads to no fault. -/
theorem not_faulty (h : Knows p ∅ [] known t) (hq : q ∈ known) : ¬p.Faulty q := by
  rintro ⟨q', hr, hn⟩
  have hm : t.Met p [] q' := by
    clear hn
    induction hr with
    | refl => exact h.met q hq
    | tail _ hl ih =>
      rcases ih with hi | ⟨body, hd⟩ | hu
      · cases hi
      · exact (h.closed _ _ _ hd hl).resolve_right (Set.notMem_empty _)
      · obtain ⟨d, hd, -⟩ := hl
        rw [hu] at hd
        cases hd
  rcases hm with hi | ⟨body, hd⟩ | hu
  · cases hi
  · have hb := h.faithful.definitions _ _ hd
    simp [Project.body?, hn] at hb
  · rw [hn] at hu
    cases hu

end Knows

/-- The state after a fault. It comes from one of the names; bodies that were given up are missing
in the table, and others name them. -/
structure GivesUp (p : Project) (excused : Set QualifiedName) (inside names : List QualifiedName)
    (t : Tables) : Prop where
  faulty : ∃ q ∈ names, p.Faulty q
  knows : p.failing ⊆ excused → Knows p excused inside [] t

theorem GivesUp.mono (h : GivesUp p excused inside names t) (hn : names ⊆ names') :
    GivesUp p excused inside names' t :=
  ⟨h.faulty.imp fun _ hq ↦ ⟨hn hq.1, hq.2⟩, h.knows⟩

/-- From faithful tables an action answers with `value`, and then all `names` have been met; a
fault comes from one of them. -/
def Settles (p : Project) (excused : Set QualifiedName) (inside names : List QualifiedName)
    (value : α) (a : Action Tables α) : Prop :=
  ∀ known, Action.Triple (Knows p excused inside known) a
    (fun x t ↦ Knows p excused inside (names ++ known) t ∧ x = value)
    fun _ t ↦ GivesUp p excused inside names t

namespace Settles

variable {value : α} {a : Action Tables α} {value' : β}

theorem pure (x : α) : Settles p excused inside [] x (pure x) :=
  fun _ ↦ .pure fun _ h ↦ ⟨h, rfl⟩

theorem bind {f : α → Action Tables β} (ha : Settles p excused inside names value a)
    (hf : Settles p excused inside names' value' (f value)) :
    Settles p excused inside (names ++ names') value' (a >>= f) := by
  intro known
  refine .bind ((ha known).mono (fun _ h ↦ h) (fun _ _ h ↦ h) fun _ _ h ↦
    h.mono (List.subset_append_left _ _)) fun x ↦ .assume fun hx ↦ ?_
  subst hx
  refine (hf (names ++ known)).mono (fun _ h ↦ h) (fun _ _ ⟨h, hy⟩ ↦ ⟨?_, hy⟩)
    fun _ _ h ↦ h.mono (List.subset_append_right _ _)
  refine ⟨h.faithful, h.closed, fun q hq ↦ h.met q ?_⟩
  simp only [List.mem_append] at hq ⊢
  tauto

theorem map (ha : Settles p excused inside names value a) (f : α → β) :
    Settles p excused inside names (f value) (do return f (← a)) := by
  have h := ha.bind (f := fun x ↦ Pure.pure (f x)) (.pure (f value))
  rwa [List.append_nil] at h

end Settles

section

variable {named : QualifiedName → Action Tables Shape}

mutual

theorem shapeOf_settles : ∀ (type : GoType) (package : String),
    (∀ q ∈ type.names package, Settles p excused inside [q] (p.named q) (named q)) →
    Settles p excused inside (type.names package) (type.shape p.named package)
      (shapeOf named type package)
  | .named name (some origin), package, h => by
    rw [GoType.names] at h ⊢
    rw [GoType.shape, shapeOf]
    cases hw : Primitive.wellKnown? origin name with
    | some primitive => exact .pure _
    | none =>
      rw [hw] at h
      exact h _ (List.mem_singleton_self _)
  | .named name none, package, h => by
    rw [GoType.names] at h ⊢
    rw [GoType.shape, shapeOf]
    cases hn : Primitive.ofName? name with
    | some primitive => exact .pure _
    | none =>
      rw [hn] at h
      exact h _ (List.mem_singleton_self _)
  | .imported origin next, _, h => shapeOf_settles next origin h
  | .pointer next, package, h => (shapeOf_settles next package h).map Shape.pointer
  | .ellipsis next, package, h => (shapeOf_settles next package h).map (Shape.array none)
  | .array length next, package, h =>
    (shapeOf_settles next package h).map (Shape.array (some length))
  | .slice next, package, h => by
    rw [GoType.names] at h
    rw [GoType.names, GoType.shape, shapeOf]
    split
    · exact .pure _
    · rename_i hb
      rw [if_neg hb] at h
      exact (shapeOf_settles next package h).map (Shape.array none)
  | .map key value, package, h =>
    (shapeOf_settles key package fun q hq ↦ h q (List.mem_append_left _ hq)).bind
      ((shapeOf_settles value package fun q hq ↦ h q (List.mem_append_right _ hq)).map
        (Shape.map (key.shape p.named package)))
  | .interface [], _, _ => .pure _
  | .interface (_ :: _), _, _ => .pure _
  | .struct fields, package, h => (fieldsOf_settles fields package h).map Shape.record

theorem fieldsOf_settles : ∀ (fields : List Field) (package : String),
    (∀ q ∈ Field.names fields package, Settles p excused inside [q] (p.named q) (named q)) →
    Settles p excused inside (Field.names fields package) (Field.shapes p.named fields package)
      (fieldsOf named fields package)
  | [], _, _ => .pure _
  | ⟨_, type, _, _⟩ :: fields, package, h =>
    (shapeOf_settles type package fun q hq ↦ h q (List.mem_append_left _ hq)).bind
      ((fieldsOf_settles fields package fun q hq ↦ h q (List.mem_append_right _ hq)).map
        (List.cons _))

end

theorem bodyOf_settles {package : String} (d : Declaration)
    (h : ∀ q ∈ d.names package, Settles p excused inside [q] (p.named q) (named q)) :
    Settles p excused inside (d.names package) (d.body p.named package)
      (bodyOf named package d) := by
  cases d with
  | struct d => exact (fieldsOf_settles d.fields package h).map Shape.record
  | interface d => exact .pure _
  | «alias» d => exact (shapeOf_settles d.target package h).map Shape.alias

end

/-- A declaration is what the files say, whatever has been found before. -/
theorem declaration_spec (p : Project) (q : QualifiedName)
    (definitions : Table QualifiedName Shape) :
    Action.Triple (fun t ↦ t.Faithful p ∧ t.definitions = definitions) (declaration p q)
      (fun found t ↦ (t.Faithful p ∧ t.definitions = definitions) ∧ p.declared? q = some found)
      fun _ t ↦ (t.Faithful p ∧ t.definitions = definitions) ∧ p.declared? q = none := by
  rintro t ⟨ht, rfl⟩
  have hd := definitions_declaration p q t
  rcases hr : declaration p q t with ⟨fault | found, t'⟩ <;> rw [hr] at hd
  · obtain ⟨hf, hn, -⟩ := ht.found.declaration_error hr
    exact ⟨⟨hf.faithful hd ht, hd⟩, hn⟩
  · obtain ⟨hf, hq⟩ := ht.found.declaration_ok hr
    exact ⟨⟨hf.faithful hd ht, hd⟩, hq⟩

theorem Knows.of_definitions (h : Knows p excused inside known t) {t' : Tables}
    (ht : t'.Faithful p) (hd : t'.definitions = t.definitions) :
    Knows p excused inside known t' := by
  refine ⟨ht, ?_, ?_⟩
  · simpa only [Met, hd] using h.closed
  · simpa only [Met, hd] using h.met

/-- A name with its body in the table needs no place among those inside. -/
theorem Knows.define {d : Declaration} (hd : p.declared? q = some (some d))
    (h : Knows p excused (q :: inside) (d.names q.package ++ known) t) :
    Knows p excused inside (q :: known)
      { t with definitions := t.definitions.insert q (d.body p.named q.package) } := by
  -- what was met as being inside the body of `q` has that body in the table now
  have hm (q' : QualifiedName) (h : t.Met p (q :: inside) q') :
      Met p inside
        { t with definitions := t.definitions.insert q (d.body p.named q.package) } q' := by
    by_cases hq : q' = q
    · exact .inr (.inl ⟨_, by rw [Table.find?_insert, if_pos hq]⟩)
    · rcases h with hi | ⟨body, hb⟩ | hu
      · exact .inl ((List.mem_cons.mp hi).resolve_left hq)
      · exact .inr (.inl ⟨body, by rw [Table.find?_insert, if_neg hq, hb]⟩)
      · exact .inr (.inr hu)
  refine ⟨⟨h.faithful.sources, h.faithful.declarations, fun q' body hb ↦ ?_⟩,
    fun q' body q'' hb hl ↦ ?_, fun q' hq ↦ ?_⟩
  · rw [Table.find?_insert] at hb
    split at hb
    · rename_i hq
      cases hb
      rw [hq, Project.body?_of_declared hd]
    · exact h.faithful.definitions _ _ hb
  · rw [Table.find?_insert] at hb
    split at hb
    · rename_i hq
      obtain ⟨d', hd', hn⟩ := hl
      rw [hq, hd] at hd'
      cases hd'
      exact .inl (hm _ (h.met _ (List.mem_append_left _ (hq ▸ hn))))
    · exact (h.closed _ _ _ hb hl).imp_left (hm _)
  · rcases List.mem_cons.mp hq with rfl | hq
    · exact hm _ (.inl List.mem_cons_self)
    · exact hm _ (h.met _ (List.mem_append_right _ hq))

/-- A fault inside a body is one of its name, which is met in no other way then. -/
theorem GivesUp.leave {d : Declaration} (hd : p.declared? q = some (some d))
    (h : GivesUp p excused (q :: inside) (d.names q.package) t) :
    GivesUp p excused inside [q] t := by
  obtain ⟨q', hq, hf⟩ := h.faulty
  have hq : p.Faulty q := hf.of_leads ⟨d, hd, hq⟩
  refine ⟨⟨q, List.mem_singleton_self q, hq⟩, fun he ↦ (h.knows he).leave (he ⟨?_, hq⟩)⟩
  simp [Project.body?_of_declared hd]

theorem definitionWith_settles {named : QualifiedName → Action Tables Shape}
    (h : ∀ q', p.Leads q q' → Settles p excused (q :: inside) [q'] (p.named q') (named q')) :
    Settles p excused inside [q] (p.body? q) (definitionWith p named q) := by
  intro known
  refine .get fun t ht ↦ ?_
  split
  · rename_i body hb
    refine .pure fun _ h ↦ ⟨h ▸ ht.with_met fun q' hq ↦ ?_, (ht.faithful.definitions _ _ hb).symm⟩
    exact List.mem_singleton.mp hq ▸ .inr (.inl ⟨body, hb⟩)
  · refine .bind (((declaration_spec p q t.definitions).mono
      (fun _ h ↦ ⟨h ▸ ht.faithful, by rw [h]⟩) (fun _ _ h ↦ h) fun _ _ ⟨⟨hg, hd⟩, h⟩ ↦
        ⟨⟨q, List.mem_singleton_self q, q, .refl, h⟩, fun _ ↦ (ht.of_definitions hg hd).forget⟩))
      fun found ↦ .assume fun hf ↦ ?_
    cases found with
    | none =>
      refine .pure fun _ ⟨hg, hd⟩ ↦ ⟨(ht.of_definitions hg hd).with_met fun q' hq ↦ ?_,
        (Project.body?_of_undeclared hf).symm⟩
      exact List.mem_singleton.mp hq ▸ .inr (.inr hf)
    | some d =>
      have hs : Settles p excused (q :: inside) (d.names q.package) (d.body p.named q.package)
          (bodyOf named q.package d) := bodyOf_settles d fun q' hq ↦ h q' ⟨d, hf, hq⟩
      refine .bind ((hs known).mono
        (fun _ ⟨hg, hd⟩ ↦ (ht.of_definitions hg hd).mono (List.subset_cons_self _ _))
        (fun _ _ h ↦ h) fun _ _ h ↦ h.leave hf) fun body ↦ .assume fun hb ↦ ?_
      subst hb
      exact .bind (Q := fun _ t ↦ Knows p excused inside (q :: known) t)
        (.modify fun _ h ↦ h.define hf)
        fun _ ↦ .pure fun _ h ↦ ⟨h, (Project.body?_of_declared hf).symm⟩

/-- While there is room a name settles, in the table or inside the bodies of others. -/
theorem namedWithin_settles {packages : List String} {n : Nat} (h : Room p packages inside n)
    (hi : ∀ q ∈ inside, p.body? q ≠ none) (hq : q.package ∈ p.packagesWith packages) :
    Settles p excused inside [q] (p.named q) (namedWithin p n inside q) := by
  induction n generalizing inside q with
  | zero => exact absurd rfl h.ne_zero
  | succ n ih =>
    intro known
    refine .get fun t ht ↦ ?_
    split
    -- a name stays a name once its body is in the table, and inside that body before
    · rename_i hc
      rw [Bool.or_eq_true, Table.contains_iff, List.contains_iff_mem] at hc
      have hb : p.body? q ≠ none := by
        rcases hc with ⟨body, hd⟩ | hq
        · simp [ht.faithful.definitions _ _ hd]
        · exact hi q hq
      refine .pure fun _ h ↦ ⟨h ▸ ht.with_met fun q' hq ↦ ?_, (Project.named_of_body? hb).symm⟩
      exact List.mem_singleton.mp hq ▸ hc.elim (.inr ∘ .inl) .inl
    · rename_i hc
      have hn : q ∉ inside := fun hm ↦ hc (by simp [hm])
      have hs : Settles p excused inside [q] (p.body? q)
          (definitionWith p (namedWithin p n (q :: inside)) q) := by
        refine definitionWith_settles fun q' hl ↦ ?_
        have hi' : ∀ q' ∈ q :: inside, p.body? q' ≠ none :=
          List.forall_mem_cons.mpr ⟨Project.body?_of_leads hl, hi⟩
        have hr := h.enter hn (Project.mem_range_of_leads hl hq)
        exact ih hr hi' (Project.package_of_leads hl hq)
      refine .bind ((hs known).mono (fun _ h ↦ h ▸ ht) (fun _ _ h ↦ h) fun _ _ h ↦ h)
        fun body ↦ .assume fun hb ↦ ?_
      subst hb
      cases hb : p.body? q with
      | some body => exact .pure fun _ h ↦ ⟨h, (Project.named_of_body? (by simp [hb])).symm⟩
      | none => exact .pure fun _ h ↦ ⟨h, (Project.named_of_no_body hb).symm⟩

theorem named_settles (tables : Tables) {packages : List String} {weight : Nat}
    (h : packages.length ≤ weight + 1) (hq : q.package ∈ packages) :
    Settles p excused [] [q] (p.named q) (namedWithin p (budget p tables weight) [] q) := by
  exact namedWithin_settles (room_budget tables h) nofun (List.mem_append_left _ hq)

theorem resolve_settles (type : GoType) (package : String) :
    Settles p excused [] (type.names package) (type.shape p.named package)
      (resolve p type package) := by
  intro known
  refine .get fun t ht ↦ ?_
  refine (shapeOf_settles type package (fun q hq ↦ named_settles t
    (Nat.succ_le_succ type.length_packages_le) (type.package_of_mem_names package hq)) known).mono
    (fun _ h ↦ h ▸ ht) (fun _ _ h ↦ h) fun _ _ h ↦ h

theorem resolveFields_settles (fields : List Field) (package : String) :
    Settles p excused [] (Field.names fields package) (Field.shapes p.named fields package)
      (resolveFields p fields package) := by
  intro known
  refine .get fun t ht ↦ ?_
  refine (fieldsOf_settles fields package (fun q hq ↦ named_settles t
    (Nat.succ_le_succ (Field.length_packages_le fields))
    (Field.package_of_mem_names fields package hq)) known).mono
    (fun _ h ↦ h ▸ ht) (fun _ _ h ↦ h) fun _ _ h ↦ h

theorem resolveDeclared_settles (q : QualifiedName) :
    Settles p excused [] [q] (p.body? q) (resolveDeclared p q) := by
  intro known
  refine .get fun t ht ↦ ?_
  refine (definitionWith_settles (fun q' hl ↦ ?_) known).mono (fun _ h ↦ h ▸ ht) (fun _ _ h ↦ h)
    fun _ _ h ↦ h
  have hq : q.package ∈ p.packagesWith [q.package] := List.mem_append_left _ List.mem_cons_self
  have hi : ∀ q' ∈ [q], p.body? q' ≠ none := by
    simpa using Project.body?_of_leads hl
  exact namedWithin_settles (room_of_leads t hl) hi (Project.package_of_leads hl hq)

theorem Settles.fresh {value : α} {a : Action Tables α} (ha : Settles p ∅ [] names value a)
    (h : ∀ q ∈ names, ¬p.Faulty q) : (a .empty).1 = .ok value := by
  have hk := ha [] .empty (.empty p)
  revert hk
  rcases a .empty with ⟨x | fault, t⟩
  · exact fun ⟨⟨q, hq, hf⟩, _⟩ ↦ absurd hf (h q hq)
  · exact fun ⟨_, hx⟩ ↦ congrArg _ hx

/-- What is answered once is answered again from other tables that agree with the files. -/
theorem Settles.transfer {x value : α} {a : Action Tables α} {t₁ t' : Tables}
    (ha : Settles p ∅ [] names value a) (ht : Knows p ∅ [] [] t) (ht' : Knows p ∅ [] [] t')
    (h : a t = (.ok x, t₁)) : x = value ∧ Knows p ∅ [] names t₁ ∧
      ∃ t₁', a t' = (.ok x, t₁') ∧ Knows p ∅ [] names t₁' := by
  obtain ⟨hk, hx⟩ := (ha []).ok ht h
  rw [List.append_nil] at hk
  refine ⟨hx, hk, ?_⟩
  have hk' := ha [] t' ht'
  revert hk'
  rcases a t' with ⟨fault | x', t₁'⟩
  · exact fun ⟨⟨q, hq, hf⟩, _⟩ ↦ absurd hf (hk.not_faulty hq)
  · rintro ⟨hk', rfl⟩
    rw [List.append_nil] at hk'
    exact ⟨t₁', by rw [hx], hk'⟩

end GoOpenApi.Tables
