import GoOpenApi.Proofs.Resolve.Order

/-!
Calls end, whatever is in the tables. The declarations that can be found stand in the files, in
those that were read, or in the table of declarations, and there are finitely many packages that
they or the type name. Once there is room for each name with one of these packages, more room
changes nothing.
-/

namespace GoOpenApi

variable {α β : Type} {p : Project} {ds : List (String × Declaration)} {given : List String}
  {inside : List QualifiedName} {q : QualifiedName} {n n' : Nat}

namespace Sources

/-- Whatever was read is declared in the list. -/
def Among (ds : List (String × Declaration)) (s : Sources) : Prop :=
  ∀ place read, s.files.find? place = some read → Declaration.entries read.2.declarations ⊆ ds

variable {t : FileTree} (ht : Declaration.entries t.declarations ⊆ ds)

include ht

theorem file_among (path : Path) :
    Action.Triple (Among ds) (file t path)
      (fun read s ↦ s.Among ds ∧ Declaration.entries read.2.declarations ⊆ ds)
      fun _ s ↦ s.Among ds := by
  refine .get fun s hs ↦ ?_
  split
  · rename_i read hr
    exact .pure fun _ h ↦ ⟨h ▸ hs, hs _ _ hr⟩
  · split
    · exact .throw fun _ h ↦ h ▸ hs
    · rename_i file hf
      have hd : Declaration.entries file.declarations ⊆ ds :=
        List.Subset.trans (List.map_subset _ (FileTree.declarations_of_source hf)) ht
      refine .bind (Q := fun _ s ↦ s.Among ds) (.modify fun s' h place read hr ↦ ?_)
        fun _ ↦ .pure fun _ h ↦ ⟨h, hd⟩
      subst h
      rw [Table.find?_insert] at hr
      split at hr
      · cases hr
        exact hd
      · exact hs _ _ hr

omit ht in
theorem listing_among (dir : Path) :
    Action.Triple (Among ds) (listing t dir) (fun _ s ↦ s.Among ds) fun _ s ↦ s.Among ds := by
  refine .get fun s hs ↦ ?_
  split
  · exact .pure fun _ h ↦ h ▸ hs
  · cases t.packageFiles dir with
    | error fault => exact fun _ h ↦ h ▸ hs
    | ok paths =>
      refine .bind (Q := fun _ s' ↦ s' = s) (.pure fun _ h ↦ h) fun _ ↦ ?_
      refine .bind (Q := fun _ s ↦ s.Among ds) (.modify fun _ h ↦ ?_) fun _ ↦ .pure fun _ h ↦ h
      subst h
      exact hs

theorem searchFiles_among (name : String) (paths : List Path) :
    Action.Triple (Among ds) (searchFiles t name paths)
      (fun found s ↦ s.Among ds ∧ ∀ f ∈ found, (name, f.1) ∈ ds) fun _ s ↦ s.Among ds := by
  induction paths with
  | nil => exact .pure fun _ h ↦ ⟨h, nofun⟩
  | cons path paths ih =>
    refine .bind (file_among ht path) fun read ↦ .assume fun hr ↦ ?_
    split
    · rename_i d hd
      refine .pure fun _ h ↦ ⟨h, fun f hf ↦ ?_⟩
      cases hf
      have hn : d.name = name := by simpa using List.find?_some hd
      exact hn ▸ hr (Declaration.mem_entries (List.mem_of_find?_eq_some hd))
    · exact ih

theorem searchDir_among (dir : Path) (name : String) :
    Action.Triple (Among ds) (searchDir t dir name)
      (fun found s ↦ s.Among ds ∧ ∀ f ∈ found, (name, f.1) ∈ ds) fun _ s ↦ s.Among ds := by
  unfold searchDir
  split
  · exact .bind (listing_among dir) fun paths ↦ searchFiles_among ht name paths
  · exact .pure fun _ h ↦ ⟨h, nofun⟩

theorem searchSteps_among (l : Layout) (name package : String) (tried steps : List SearchStep) :
    Action.Triple (Among ds) (searchSteps t l name package tried steps)
      (fun found s ↦ s.Among ds ∧ ∀ f ∈ found, (name, f.declaration) ∈ ds)
      fun fault s ↦ s.Among ds ∧ fault ≠ .endless := by
  induction steps generalizing tried with
  | nil => exact .pure fun _ h ↦ ⟨h, by simp⟩
  | cons step steps ih =>
    rw [searchSteps]
    cases l.candidate? step package with
    | none => exact ih _
    | some dir =>
      refine .bind (.tryCatch (searchDir_among ht dir name) fun fault ↦
        .throw fun _ h ↦ ⟨h, by simp⟩) fun found ↦ .assume fun hf ↦ ?_
      cases found with
      | none => exact ih _
      | some found =>
        refine .pure fun _ h ↦ ⟨h, fun f hm ↦ ?_⟩
        cases hm
        exact hf found rfl

theorem locate_among (l : Layout) (name package : String) :
    Action.Triple (Among ds) (locate t l name package)
      (fun found s ↦ s.Among ds ∧ ∀ f ∈ found, (name, f.declaration) ∈ ds)
      fun fault s ↦ s.Among ds ∧ fault ≠ .endless :=
  searchSteps_among ht l name package [] SearchStep.all

end Sources

namespace Tables

/-- Whatever was read or found is declared in the list. -/
structure Among (ds : List (String × Declaration)) (t : Tables) : Prop where
  sources : t.sources.Among ds
  declarations : ∀ q d, t.declarations.find? q = some (some d) → (q.name, d) ∈ ds

/-- What can be found from the tables. -/
def reachable (p : Project) (t : Tables) : List (String × Declaration) :=
  Declaration.entries p.files.declarations ++
    (Declaration.entries (t.sources.files.flatMap (·.2.2.declarations)) ++
      t.declarations.flatMap fun (q, found?) ↦ found?.toList.map (q.name, ·))

theorem among_reachable (p : Project) (t : Tables) : t.Among (reachable p t) where
  sources _ _ hr := by
    refine List.Subset.trans (List.map_subset _ fun d hd ↦ ?_)
      (List.subset_append_of_subset_right _ (List.subset_append_left _ _))
    exact List.mem_flatMap.mpr ⟨_, Table.mem_of_find? hr, hd⟩
  declarations _ d hf := List.mem_append_right _ (List.mem_append_right _
    (List.mem_flatMap.mpr ⟨_, Table.mem_of_find? hf,
      List.mem_map.mpr ⟨d, Option.mem_toList.mpr rfl, rfl⟩⟩))

/-- Actions that answer the same from tables whose declarations are in the list, and have room. -/
def ending (ds : List (String × Declaration)) : Action.Relation Tables Tables where
  Holds P a a' := ∀ t, t.Among ds → a' t = a t ∧ match a t with
    | (.ok x, t') => P x ∧ t'.Among ds
    | (.error fault, _) => fault ≠ .endless
  pure hx t ht := ⟨rfl, hx, ht⟩
  bind {α β P Q a a' f f'} ha hf := by
    intro t ht
    obtain ⟨he, h⟩ := ha t ht
    rw [Action.run_bind, Action.run_bind, he]
    rcases hr : a t with ⟨fault | x, t'⟩ <;> rw [hr] at h
    · exact ⟨rfl, h⟩
    · exact hf x h.1 t' h.2

section

variable {P : α → Prop} {a a' : Action Tables α} {t : Tables}

theorem ending_eq (h : (ending ds).Holds P a a') (ht : t.Among ds) : a' t = a t := (h t ht).1

theorem ending_not_endless (h : (ending ds).Holds P a a') (ht : t.Among ds) :
    (a t).1 ≠ .error .endless := by
  intro he
  have h := (h t ht).2
  rcases hr : a t with ⟨fault | x, t'⟩ <;> rw [hr] at h he
  · cases he
    exact h rfl
  · cases he

theorem ending_get {f f' : Tables → Action Tables α} (h : ∀ t, (ending ds).Holds P (f t) (f' t)) :
    (ending ds).Holds P (MonadState.get >>= f) (MonadState.get >>= f') :=
  fun t ht ↦ h t t ht

end

theorem totalWeight_reachable (p : Project) (t : Tables) :
    totalWeight (·.2.weight) (reachable p t) =
      p.weight + totalWeight (fun (_, _, file) ↦ file.weight) t.sources.files +
        totalWeight (fun (_, found?) ↦ totalWeight Declaration.weight found?.toList)
          t.declarations := by
  rw [reachable, totalWeight_append, totalWeight_append, Declaration.totalWeight_entries,
    Declaration.totalWeight_entries, p.files.totalWeight_declarations, p.weight_eq, Nat.add_assoc]
  congr 2
  · exact totalWeight_flatMap _
  · rw [totalWeight_flatMap]
    congr 1
    funext e
    exact totalWeight_map ..

theorem lt_budget_reachable (p : Project) (t : Tables) {weight : Nat}
    (h : given.length ≤ weight + 1) :
    (namesAmong (reachable p t) given).length < budget p t weight :=
  length_namesAmong_lt (Nat.le_of_eq (totalWeight_reachable p t)) h

theorem resolve_eq (p : Project) (type : GoType) (package : String) (t : Tables) :
    resolve p type package t = shapeOf (namedWithin p (budget p t type.weight) []) type package t := by
  rw [resolve, Action.run_get_bind]

theorem resolveFields_eq (p : Project) (fields : List Field) (package : String) (t : Tables) :
    resolveFields p fields package t =
      fieldsOf (namedWithin p (budget p t (Field.weights fields)) []) fields package t := by
  rw [resolveFields, Action.run_get_bind]

theorem resolveDeclared_eq (p : Project) (q : QualifiedName) (t : Tables) :
    resolveDeclared p q t = definitionWith p (namedWithin p (budget p t 0) [q]) q t := by
  rw [resolveDeclared, Action.run_get_bind]

namespace Query

/-- A call with room for `n` levels of declared types. -/
def runWithin (p : Project) (n : Nat) : Query → Action Tables Answer
  | .type t package => do return .shape (← shapeOf (namedWithin p n []) t package)
  | .fields fs package => do return .fields (← fieldsOf (namedWithin p n []) fs package)
  | .declared q => do return .body (← definitionWith p (namedWithin p n [q]) q)

/-- The packages that a call names. -/
def packages : Query → List String
  | .type t package => package :: t.packages
  | .fields fs package => package :: Field.packages fs
  | .declared q => [q.package]

def weight : Query → Nat
  | .type t _ => t.weight
  | .fields fs _ => Field.weights fs
  | .declared _ => 0

theorem length_packages_le (query : Query) : query.packages.length ≤ query.weight + 1 := by
  cases query with
  | type t package => exact Nat.succ_le_succ t.length_packages_le
  | fields fs package => exact Nat.succ_le_succ (Field.length_packages_le fs)
  | declared q => exact Nat.le_refl 1

theorem run_eq_runWithin (p : Project) (query : Query) (t : Tables) :
    query.run p t = query.runWithin p (budget p t query.weight) t := by
  cases query with
  | type type package =>
    rw [run, runWithin, Action.run_bind, Action.run_bind, resolve_eq]
    rfl
  | fields fs package =>
    rw [run, runWithin, Action.run_bind, Action.run_bind, resolveFields_eq]
    rfl
  | declared q =>
    rw [run, runWithin, Action.run_bind, Action.run_bind, resolveDeclared_eq]
    rfl

end Query

section

variable (hp : Declaration.entries p.files.declarations ⊆ ds)

include hp

theorem declaration_ending (q : QualifiedName) :
    (ending ds).Holds (fun found ↦ ∀ d ∈ found, (q.name, d) ∈ ds) (declaration p q)
      (declaration p q) := by
  refine fun t ht ↦ ⟨rfl, ?_⟩
  cases hq : t.declarations.find? q with
  | some found =>
    rw [declaration_of_known hq]
    exact ⟨fun d hd ↦ ht.declarations q d (hd ▸ hq), ht⟩
  | none =>
    rw [declaration_of_new hq]
    have hl := Sources.locate_among hp p.layout q.name q.package t.sources ht.sources
    rcases hr : Sources.locate p.files p.layout q.name q.package t.sources with
      ⟨fault | located, s⟩ <;> rw [hr] at hl
    · exact hl.2
    · have hd : ∀ d ∈ located.map (·.declaration), (q.name, d) ∈ ds := by
        simpa using hl.2
      refine ⟨hd, hl.1, fun q' d h ↦ ?_⟩
      rw [Table.find?_insert] at h
      split at h
      · rename_i hq
        cases hq
        exact hd d (Option.some.inj h)
      · exact ht.declarations _ _ h

theorem definitionWith_ending {named named' : QualifiedName → Action Tables Shape}
    (h : ∀ d q', (q.name, d) ∈ ds → q' ∈ d.names q.package →
      (ending ds).Relates (named q') (named' q')) :
    (ending ds).Relates (definitionWith p named q) (definitionWith p named' q) := by
  apply ending_get
  intro t
  split
  · exact (ending ds).pure trivial
  · refine (ending ds).bind (declaration_ending hp q) fun found hf ↦ ?_
    cases found with
    | none => exact (ending ds).pure trivial
    | some d =>
      refine (bodyOf_relates d fun q' hq ↦ h d q' (hf d rfl) hq).bind fun body ↦ ?_
      exact fun t ht ↦ ⟨rfl, trivial, ht.sources, ht.declarations⟩

/-- A name is resolved in the same way with any room for it. -/
theorem namedWithin_ending (h : RoomAmong (namesAmong ds given) inside n)
    (h' : RoomAmong (namesAmong ds given) inside n')
    (hq : q.package ∈ packagesAmong ds given) :
    (ending ds).Relates (namedWithin p n inside q) (namedWithin p n' inside q) := by
  induction n generalizing n' inside q with
  | zero => exact absurd rfl h.ne_zero
  | succ n ih =>
    cases n' with
    | zero => exact absurd rfl h'.ne_zero
    | succ n' =>
      apply ending_get
      intro t
      split
      · exact (ending ds).pure trivial
      · rename_i hc
        have hi : q ∉ inside := fun hm ↦ hc (by simp [hm])
        refine (definitionWith_ending hp fun d q' hd hn ↦ ?_).bind fun body? ↦ ?_
        · have hm := mem_namesAmong hd hq
          exact ih (h.enter hi hm) (h'.enter hi hm) (packagesAmong_of_mem_names hd hq hn)
        · cases body? <;> exact (ending ds).pure trivial

theorem named_ending (hn : (namesAmong ds given).length < n)
    (hn' : (namesAmong ds given).length < n') (hq : q.package ∈ given) :
    (ending ds).Relates (namedWithin p n [] q) (namedWithin p n' [] q) :=
  namedWithin_ending hp ⟨.nil, List.nil_subset _, by simpa using hn⟩
    ⟨.nil, List.nil_subset _, by simpa using hn'⟩ (List.mem_append_left _ hq)

theorem shapeOf_ending (type : GoType) (package : String)
    (hn : (namesAmong ds (package :: type.packages)).length < n)
    (hn' : (namesAmong ds (package :: type.packages)).length < n') :
    (ending ds).Relates (shapeOf (namedWithin p n []) type package)
      (shapeOf (namedWithin p n' []) type package) :=
  shapeOf_relates type package fun _ hq ↦
    named_ending hp hn hn' (type.package_of_mem_names package hq)

/-- A walk goes on in the same way with any room for the types that it has not entered. -/
theorem followWithin_ending {type : GoType} {package : String}
    (h : RoomAmong (namesAmong ds given) inside n) (h' : RoomAmong (namesAmong ds given) inside n')
    (hs : package :: type.packages ⊆ packagesAmong ds given) (path : List String) :
    (ending ds).Relates (followWithin p n inside type package path)
      (followWithin p n' inside type package path) := by
  induction n generalizing n' inside type package path with
  | zero => exact absurd rfl h.ne_zero
  | succ n ih =>
    cases n' with
    | zero => exact absurd rfl h'.ne_zero
    | succ n' =>
      refine follow_relates type package path fun q here path hq ↦ ?_
      split
      · exact (ending ds).pure trivial
      · rename_i hc
        have hi : q ∉ inside := fun hm ↦ hc (by simp [hm])
        refine (ending ds).bind (declaration_ending hp q) fun found hf ↦ ?_
        cases found with
        | none => exact (ending ds).pure trivial
        | some d =>
          have hd : (q.name, d) ∈ ds := hf d rfl
          have hm : q ∈ namesAmong ds given := mem_namesAmong hd (hs hq)
          -- what is declared may be larger than the name, but names no package outside the list
          have hsub : q.package :: d.toType.packages ⊆ packagesAmong ds given := by
            intro package hp
            rcases List.mem_cons.mp hp with rfl | hp
            · exact hs hq
            · exact List.mem_append_right _ (List.mem_flatMap.mpr ⟨_, hd, d.packages_toType hp⟩)
          exact ih (h.enter hi hm) (h'.enter hi hm) hsub path

theorem Query.runWithin_ending (query : Query)
    (hn : (namesAmong ds query.packages).length < n)
    (hn' : (namesAmong ds query.packages).length < n') :
    (ending ds).Relates (query.runWithin p n) (query.runWithin p n') := by
  cases query with
  | type t package =>
    exact (shapeOf_ending hp t package hn hn').map Answer.shape
  | fields fs package =>
    exact (fieldsOf_relates fs package fun _ hq ↦
      named_ending hp hn hn' (Field.package_of_mem_names fs package hq)).map Answer.fields
  | declared q =>
    refine (definitionWith_ending hp fun d q' hd hq ↦ ?_).map Answer.body
    have hp' : q.package ∈ packagesAmong ds [q.package] :=
      List.mem_append_left _ List.mem_cons_self
    have hm : [q] ⊆ namesAmong ds [q.package] := by
      simpa using mem_namesAmong hd hp'
    exact namedWithin_ending hp ⟨List.nodup_singleton q, hm, Nat.lt_add_left 1 hn⟩
      ⟨List.nodup_singleton q, hm, Nat.lt_add_left 1 hn'⟩ (packagesAmong_of_mem_names hd hp' hq)

end

theorem subset_reachable (p : Project) (t : Tables) :
    Declaration.entries p.files.declarations ⊆ reachable p t := List.subset_append_left _ _

theorem shapeOf_eq_resolve {type : GoType} {package : String} {t : Tables}
    (hn : (namesAmong (reachable p t) (package :: type.packages)).length < n) :
    shapeOf (namedWithin p n []) type package t = resolve p type package t := by
  have hb : (namesAmong (reachable p t) (package :: type.packages)).length <
      budget p t type.weight := lt_budget_reachable p t (Nat.succ_le_succ type.length_packages_le)
  rw [resolve_eq]
  exact ending_eq (shapeOf_ending (subset_reachable p t) type package hb hn) (among_reachable p t)

/-- From any tables a call has an answer or a fault of a search. It goes no deeper than there are
names that can be found: with any room for these it does the same. -/
theorem Query.run_ends (p : Project) (query : Query) (t : Tables) :
    (query.run p t).1 ≠ .error .endless ∧
      ∀ n, (namesAmong (reachable p t) query.packages).length < n →
        query.runWithin p n t = query.run p t := by
  have hb := lt_budget_reachable p t query.length_packages_le
  rw [query.run_eq_runWithin p t]
  refine ⟨?_, fun n hn ↦ ?_⟩
  · exact ending_not_endless (query.runWithin_ending (subset_reachable p t) hb hb)
      (among_reachable p t)
  · exact ending_eq (query.runWithin_ending (subset_reachable p t) hb hn) (among_reachable p t)

/-- From any tables a walk has an answer or a fault of a search, wherever it starts and whatever
path it follows. It enters no more declared types than there are names that can be found. -/
theorem nestedType_ends (p : Project) (type : GoType) (package : String) (path : List String)
    (t : Tables) :
    (nestedType p type package path t).1 ≠ .error .endless ∧
      ∀ n, (namesAmong (reachable p t) (package :: type.packages)).length < n →
        followWithin p n [] type package path t = nestedType p type package path t := by
  have hb : (namesAmong (reachable p t) (package :: type.packages)).length <
      budget p t type.weight := lt_budget_reachable p t (Nat.succ_le_succ type.length_packages_le)
  have hw : nestedType p type package path t =
      followWithin p (budget p t type.weight) [] type package path t := rfl
  have hr {n : Nat} (hn : (namesAmong (reachable p t) (package :: type.packages)).length < n) :
      RoomAmong (namesAmong (reachable p t) (package :: type.packages)) [] n :=
    ⟨.nil, List.nil_subset _, by simpa using hn⟩
  have hs : package :: type.packages ⊆ packagesAmong (reachable p t) (package :: type.packages) :=
    List.subset_append_left _ _
  have he {n : Nat} (hn : (namesAmong (reachable p t) (package :: type.packages)).length < n) :=
    followWithin_ending (subset_reachable p t) (hr hb) (hr hn) hs path
  rw [hw]
  constructor
  · exact ending_not_endless (he hb) (among_reachable p t)
  · intro n hn
    exact ending_eq (he hn) (among_reachable p t)

/-- Two packages whose types are names for each other. -/
def mutualNames : Project :=
  let files := [(⟨"go.mod"⟩, .file (.text "module m\n")),
    (⟨"a/a.go"⟩, .file (.text "package a\n\nimport \"m/b\"\n\ntype A b.B\n")),
    (⟨"b/b.go"⟩, .file (.text "package b\n\nimport \"m/a\"\n\ntype B a.A\n"))]
  .of (.ofNodes ["tmp", "w"] files) (.ofGoMod {} ⟨"/tmp/w"⟩ (.parse "module m\n"))

example : ((Query.declared ⟨"m/a", "A"⟩).run mutualNames .empty).1.isOk := by decide +kernel

example : (nestedType mutualNames (.qualified "m/a" "A") "m" ["X"] .empty).1.isOk := by
  decide +kernel

end Tables

end GoOpenApi
