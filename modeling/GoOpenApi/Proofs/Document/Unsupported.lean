import GoOpenApi.Proofs.Document.Agreement
import GoOpenApi.Proofs.Document.Calls

/-!
Methods over HTTP with a verb that no document can describe. They leave no operation, and the other
operations are the same without them up to the ids of components. What can stay behind is their
path.
-/

namespace GoOpenApi

/-- A document has a place for the operation of the method. -/
def Endpoint.isSupported (m : Endpoint) : Bool := !m.isHttp || (Verb.ofName? m.httpMethod).isSome

/-- The service without the methods that no document has a place for. -/
def Service.supported (s : Service) : Service :=
  { s with methods := s.methods.filter (·.isSupported) }

/-- The methods that stay, with their services. -/
def supportedMethods (ms : List (Service × Endpoint)) : List (Service × Endpoint) :=
  (ms.filter (·.2.isSupported)).map fun e ↦ (e.1.supported, e.2)

theorem Endpoint.route_of_not_isSupported {m : Endpoint} (h : ¬m.isSupported) :
    m.route.2 = none := by
  obtain ⟨hh, hv⟩ : m.isHttp = true ∧ Verb.ofName? m.httpMethod = none := by
    simpa [isSupported] using h
  rw [route, if_pos hh, hv]

theorem allMethods_supported (services : List Service) :
    allMethods (services.map Service.supported) = supportedMethods (allMethods services) := by
  induction services with
  | nil => rfl
  | cons s services ih =>
    have hs : s.supported.methods.map (s.supported, ·) =
        supportedMethods (s.methods.map (s, ·)) := by
      rw [supportedMethods, List.filter_map, List.map_map]
      rfl
    calc
      allMethods ((s :: services).map Service.supported) =
          s.supported.methods.map (s.supported, ·) ++
            allMethods (services.map Service.supported) := rfl
      _ = supportedMethods (s.methods.map (s, ·) ++ allMethods services) := by
        rw [hs, ih, supportedMethods, supportedMethods, supportedMethods, List.filter_append,
          List.map_append]

theorem Dict.Ordered.mapValues {α β : Type} {d : Dict α} (h : d.Ordered) (f : α → β) :
    (d.mapValues f).Ordered := List.pairwise_map.mpr h

theorem Builder.mem_keys_withMethod {m : Endpoint} {o : Operation} {b : Builder} {path : String} :
    path ∈ Dict.keys (b.withMethod m o).paths ↔ path ∈ Dict.keys b.paths ∨ m.route.1 = path := by
  unfold withMethod Endpoint.route
  split <;> exact Dict.mem_keys_insert.trans (Or.comm.trans (or_congr_right eq_comm))

namespace Adds

variable {p : Project} {s : Service} {state state' : Builder × Generator}

theorem of_append {ms ms' : List (Service × Endpoint)} (h : Adds p (ms ++ ms') state state') :
    ∃ between, Adds p ms state between ∧ Adds p ms' between state' := by
  induction ms generalizing state with
  | nil => exact ⟨state, .nil _, h⟩
  | cons e ms ih =>
    cases h with
    | cons hm h =>
      obtain ⟨between, hms, hms'⟩ := ih h
      exact ⟨between, .cons hm hms, hms'⟩

theorem addMethods {ms : List Endpoint} (h : Adds p (ms.map (s, ·)) state state') :
    Builder.addMethods p s ms state = (.ok (), state') := by
  induction ms generalizing state with
  | nil =>
    cases h
    rfl
  | cons m ms ih =>
    cases h with
    | cons hm h =>
      rw [Builder.addMethods_cons, hm]
      exact ih h

theorem addServices {services : List Service} (h : Adds p (allMethods services) state state') :
    Generation.addServices p services state = .ok state' := by
  induction services generalizing state with
  | nil =>
    cases h
    rfl
  | cons s services ih =>
    obtain ⟨between, hs, h⟩ := of_append h
    rw [Generation.addServices, Builder.addService, hs.addMethods]
    exact ih h

end Adds

/-- Two builders after the same methods, the second one without those that no document has a place
for. -/
structure Pruned (p : Project) (done : List (Service × Endpoint))
    (state state' : Builder × Generator) : Prop where
  matched : state.2.Matches p ∅ state'.2
  ordered : state.1.paths.Ordered
  ordered' : state'.1.paths.Ordered
  keys (path : String) :
    path ∈ Dict.keys state.1.paths ↔ ∃ e ∈ done, e.2.route.1 = path
  keys' (path : String) :
    path ∈ Dict.keys state'.1.paths ↔ ∃ e ∈ done, e.2.isSupported ∧ e.2.route.1 = path
  slots (path : String) (v : Verb) : Later p
    (SameUpToIds (fun f ↦ Option.map (Operation.mapSchemas f)) (operationAt state.1.paths path v)
      (operationAt state'.1.paths path v)) state.2 state'.2

namespace Pruned

variable {p : Project} {done ms : List (Service × Endpoint)} {s : Service} {m : Endpoint}
  {b b' b₁ : Builder} {g g' g₁ : Generator} {state state' state₁ : Builder × Generator}

theorem initial (directives : Directives) {t : Tables} (ht : Tables.Knows p ∅ [] [] t) :
    Pruned p [] (Builder.initial.withDirectives directives, ⟨t, .empty⟩)
      (Builder.initial.withDirectives directives, ⟨t, .empty⟩) where
  matched := ⟨⟨ht, .empty p⟩, ⟨ht, .empty p⟩, nofun⟩
  ordered := Dict.ordered_nil
  ordered' := Dict.ordered_nil
  keys path := by simp [Dict.keys, Builder.withDirectives, Builder.initial]
  keys' path := by simp [Dict.keys, Builder.withDirectives, Builder.initial]
  slots path v _ _ _ _ _ _ _ := rfl

theorem step_of_not_isSupported (h : Pruned p done (b, g) state') (hm : ¬m.isSupported)
    (hk : ∀ q ∈ m.containers s.package, p.body? q = none)
    (ha : Builder.addMethod p s m b g = (.ok b₁, g₁)) :
    Pruned p (done ++ [(s, m)]) (b₁, g₁) state' := by
  rw [Builder.addMethod_eq] at ha
  obtain ⟨o, g₂, ho, ha⟩ := Action.bind_ok ha
  cases ha
  -- what one generator can do by itself
  obtain ⟨_, _, _, hadv, _⟩ := Generator.operationOf_agrees (P := fun _ _ ↦ True) hk g g o g₁
    ⟨h.matched.left, h.matched.left, nofun⟩ (fun _ _ _ _ _ _ ↦ trivial) ho
  have hadv : Advances p ∅ g.registry state'.2.registry g₁ state'.2 :=
    ⟨⟨hadv.matched.left, h.matched.right, nofun⟩, hadv.left, .refl _⟩
  refine ⟨hadv.matched, h.ordered.withMethod m o, h.ordered', fun path ↦ ?_, fun path ↦ ?_,
    fun path v ↦ ?_⟩
  · rw [Builder.mem_keys_withMethod, h.keys]
    simp [or_and_right, exists_or]
  · rw [h.keys']
    simp [or_and_right, exists_or, hm]
  · rw [Builder.operationAt_withMethod, if_neg]
    · exact (h.slots path v).advance hadv
    · intro hr
      rw [Prod.ext_iff, Endpoint.route_of_not_isSupported hm] at hr
      cases hr.2

theorem step_of_isSupported (h : Pruned p done (b, g) (b', g')) (hm : m.isSupported)
    (hk : ∀ q ∈ m.containers s.package, p.body? q = none)
    (ha : Builder.addMethod p s m b g = (.ok b₁, g₁)) :
    ∃ state₁', Builder.addMethod p s.supported m b' g' = (.ok state₁'.1, state₁'.2) ∧
      Pruned p (done ++ [(s, m)]) (b₁, g₁) state₁' := by
  rw [Builder.addMethod_eq] at ha
  obtain ⟨o, g₂, ho, ha⟩ := Action.bind_ok ha
  cases ha
  obtain ⟨o', g₁', ho', hadv, hR⟩ := Generator.operationOf_agrees (P := fun _ _ ↦ True) hk g g' o
    g₁ h.matched (fun _ _ _ _ _ _ ↦ trivial) ho
  refine ⟨(b'.withMethod m o', g₁'), ?_, hadv.matched, h.ordered.withMethod m o,
    h.ordered'.withMethod m o', fun path ↦ ?_, fun path ↦ ?_, fun path v ↦ ?_⟩
  · rw [Builder.addMethod_eq, Action.run_bind]
    rw [show Generator.operationOf p s.supported m g' = (.ok o', g₁') from ho']
    rfl
  · rw [Builder.mem_keys_withMethod, h.keys]
    simp [or_and_right, exists_or]
  · rw [Builder.mem_keys_withMethod, h.keys']
    simp [or_and_right, exists_or, hm]
  · rw [Builder.operationAt_withMethod, Builder.operationAt_withMethod]
    split
    · exact fun k k' hk hk' hb hb' label ↦ congrArg some (hR k k' hk hk' hb hb' label)
    · exact (h.slots path v).advance hadv

theorem run (ha : Adds p ms state state₁) (h : Pruned p done state state')
    (hk : ∀ e ∈ ms, ∀ q ∈ e.2.containers e.1.package, p.body? q = none) :
    ∃ state₁', Adds p (supportedMethods ms) state' state₁' ∧
      Pruned p (done ++ ms) state₁ state₁' := by
  induction ha generalizing done state' with
  | nil => exact ⟨state', .nil _, by rwa [List.append_nil]⟩
  | @cons s m ms b b₁ g g₁ state₁ hm _ ih =>
    obtain ⟨hke, hk⟩ := List.forall_mem_cons.mp hk
    rw [List.append_cons]
    by_cases hs : m.isSupported
    · obtain ⟨between, hm', h'⟩ := h.step_of_isSupported hs hke hm
      obtain ⟨state₁', ha', h'⟩ := ih h' hk
      refine ⟨state₁', ?_, h'⟩
      rw [supportedMethods, List.filter_cons, if_pos hs]
      exact .cons hm' ha'
    · obtain ⟨state₁', ha', h'⟩ := ih (h.step_of_not_isSupported hs hke hm) hk
      refine ⟨state₁', ?_, h'⟩
      rwa [supportedMethods, List.filter_cons, if_neg hs]

/-- Both have the same paths up to the ids of components if no path is left of a method that was
left out. -/
theorem samePaths_iff (h : Pruned p done (b, g) (b', g')) :
    SameUpToIds (fun f ↦ Dict.mapValues (PathItem.mapSchemas f)) b.paths b'.paths g.registry
        g'.registry ↔
      ∀ e ∈ done, ¬e.2.isSupported →
        ∃ e' ∈ done, e'.2.isSupported ∧ e'.2.route.1 = e.2.route.1 := by
  constructor
  · intro ha e he _
    have hkeys := congrArg Dict.keys (ha fun _ ↦ "")
    rw [Dict.keys_mapValues, Dict.keys_mapValues] at hkeys
    rw [← h.keys', ← hkeys, h.keys]
    exact ⟨e, he, rfl⟩
  · intro hd label
    refine (h.ordered.mapValues _).ext (h.ordered'.mapValues _) fun path ↦ ?_
    have hkeys : path ∈ Dict.keys b.paths ↔ path ∈ Dict.keys b'.paths := by
      rw [h.keys, h.keys']
      refine ⟨?_, fun ⟨e, he, _, hr⟩ ↦ ⟨e, he, hr⟩⟩
      rintro ⟨e, he, rfl⟩
      by_cases hs : e.2.isSupported
      · exact ⟨e, he, hs, rfl⟩
      · exact hd e he hs
    have hslots (v : Verb) := (h.slots path v).here h.matched label
    rw [Dict.find?_mapValues, Dict.find?_mapValues]
    rw [Dict.mem_keys_iff, Dict.mem_keys_iff] at hkeys
    unfold operationAt at hslots
    cases hf : Dict.find? path b.paths with
    | none =>
      have hf' : Dict.find? path b'.paths = none :=
        Option.eq_none_iff_forall_ne_some.mpr fun item' hi ↦ by
          obtain ⟨item, hi⟩ := hkeys.mpr ⟨item', hi⟩
          cases hf.symm.trans hi
      rw [hf']
      rfl
    | some item =>
      obtain ⟨item', hf'⟩ := hkeys.mp ⟨item, hf⟩
      rw [hf']
      refine congrArg some (PathItem.eq_of_at? fun v ↦ ?_)
      have hv := hslots v
      rw [hf, hf'] at hv
      rw [PathItem.at?_mapSchemas, PathItem.at?_mapSchemas]
      exact hv

end Pruned

/-- Without the methods that no document has a place for, the same operations stand at the same
places up to the ids of components. The paths with an empty item that they leave behind are the only
difference, so that there is none exactly when each of them shares its path with a method that is
described. -/
theorem unsupported_left_out {p : Project} {services : List Service} {directives : Directives}
    {t : Tables} {b : Builder} {g : Generator} (ht : Tables.Knows p ∅ [] [] t)
    (hk : ∀ e ∈ allMethods services, ∀ q ∈ e.2.containers e.1.package, p.body? q = none)
    (ha : Generation.addServices p services
      (Builder.initial.withDirectives directives, ⟨t, .empty⟩) = .ok (b, g)) :
    ∃ b' g', Generation.addServices p (services.map Service.supported)
        (Builder.initial.withDirectives directives, ⟨t, .empty⟩) = .ok (b', g') ∧
      (∀ path v, SameUpToIds (fun f ↦ Option.map (Operation.mapSchemas f))
        (operationAt (b.document g.registry).paths path v)
        (operationAt (b'.document g'.registry).paths path v) g.registry g'.registry) ∧
      (∀ path, path ∈ Dict.keys (b.document g.registry).paths ↔
        path ∈ Dict.keys (b'.document g'.registry).paths ∨
          ∃ e ∈ allMethods services, ¬e.2.isSupported ∧ e.2.route.1 = path) ∧
      (SameUpToIds (fun f ↦ Dict.mapValues (PathItem.mapSchemas f)) (b.document g.registry).paths
          (b'.document g'.registry).paths g.registry g'.registry ↔
        ∀ e ∈ allMethods services, ¬e.2.isSupported →
          ∃ e' ∈ allMethods services, e'.2.isSupported ∧ e'.2.route.1 = e.2.route.1) := by
  obtain ⟨⟨b', g'⟩, ha', h⟩ := (Pruned.initial directives ht).run (Adds.of_addServices ha) hk
  rw [List.nil_append] at h
  refine ⟨b', g', ?_, fun path v ↦ (h.slots path v).here h.matched, fun path ↦ ?_,
    h.samePaths_iff⟩
  · rw [← allMethods_supported] at ha'
    exact ha'.addServices
  · refine (h.keys path).trans (Iff.trans ?_ (or_congr_left (h.keys' path).symm))
    constructor
    · rintro ⟨e, he, hr⟩
      by_cases hs : e.2.isSupported
      · exact .inl ⟨e, he, hs, hr⟩
      · exact .inr ⟨e, he, hs, hr⟩
    · rintro (⟨e, he, -, hr⟩ | ⟨e, he, -, hr⟩) <;> exact ⟨e, he, hr⟩

/-- A method with a verb that no document can describe, and another one with a directive. -/
def traced (directive : String) : Project :=
  let source := "package service\n\n// @tg x\ntype Items interface \x7b\n" ++
    "\t// @tg http-method TRACE\n\tTrace()\n\t// @tg http-method GET\n\t// @tg " ++ directive ++
    "\n\tFind() (name string)\n\x7d\n"
  let files :=
    [(⟨"go.mod"⟩, .file (.text "module m\n")), (⟨"service/service.go"⟩, .file (.text source))]
  .of (.ofNodes ["tmp", "w"] files) (.ofGoMod {} ⟨"/tmp/w"⟩ (.parse "module m\n"))

/-- At the path of the other method nothing is left of it. -/
theorem traced_left_out :
    ∃ services t b g b' g',
      Service.load (traced "http-path trace") ⟨"/tmp/w/service"⟩ [] .empty = (.ok services, t) ∧
      Generation.addServices (traced "http-path trace") services
        (Builder.initial.withDirectives (Service.allDirectives services), ⟨t, .empty⟩) =
          .ok (b, g) ∧
      (allMethods services).map (fun e ↦ (e.2.name, e.2.isSupported)) =
        [("Trace", false), ("Find", true)] ∧
      Generation.addServices (traced "http-path trace") (services.map Service.supported)
        (Builder.initial.withDirectives (Service.allDirectives services), ⟨t, .empty⟩) =
          .ok (b', g') ∧
      SameUpToIds (fun f ↦ Dict.mapValues (PathItem.mapSchemas f)) (b.document g.registry).paths
        (b'.document g'.registry).paths g.registry g'.registry := by
  have h : (Generation.added? (traced "http-path trace") ⟨"/tmp/w/service"⟩ []).map (fun x ↦
      ((allMethods x.1).map fun e ↦ (e.2.name, e.2.isSupported, e.2.route.1),
        (allMethods x.1).all fun e ↦ (e.2.containers e.1.package).all fun q ↦
          ((traced "http-path trace").body? q).isNone)) =
      some ([("Trace", false, "/trace"), ("Find", true, "/trace")], true) := by
    decide +kernel
  obtain ⟨⟨services, t, b, g⟩, hadded, h⟩ := Option.map_eq_some_iff.mp h
  obtain ⟨hl, ha⟩ := Generation.added?_eq_some hadded
  simp only [Prod.mk.injEq, List.all_eq_true, Option.isNone_iff_eq_none] at h
  obtain ⟨hms, hk⟩ := h
  obtain ⟨b', g', ha', -, -, hpaths⟩ :=
    unsupported_left_out (Service.load_knows (.empty _) hl) hk ha
  obtain ⟨trace, ms, hm, htrace, h⟩ := List.map_eq_cons_iff.mp hms
  obtain ⟨find, ms', rfl, hfind, h⟩ := List.map_eq_cons_iff.mp h
  cases List.map_eq_nil_iff.mp h
  simp only [Prod.mk.injEq] at htrace hfind
  refine ⟨services, t, b, g, b', g', hl, ha, ?_, ha', hpaths.mpr fun e he hs ↦ ?_⟩
  · rw [hm]
    simp [htrace, hfind]
  · rw [hm] at he ⊢
    refine ⟨find, by simp, hfind.2.1, ?_⟩
    rcases List.mem_cons.mp he with rfl | he
    · rw [hfind.2.2, htrace.2.2]
    · cases List.mem_singleton.mp he
      exact absurd hfind.2.1 hs

/-- At a path of its own it leaves an empty item, which would not be there without it. -/
theorem traced_leaves_path :
    ∃ services t b g b' g',
      Service.load (traced "x") ⟨"/tmp/w/service"⟩ [] .empty = (.ok services, t) ∧
      Generation.addServices (traced "x") services
        (Builder.initial.withDirectives (Service.allDirectives services), ⟨t, .empty⟩) =
          .ok (b, g) ∧
      Generation.addServices (traced "x") (services.map Service.supported)
        (Builder.initial.withDirectives (Service.allDirectives services), ⟨t, .empty⟩) =
          .ok (b', g') ∧
      Dict.keys (b.document g.registry).paths = ["/find", "/trace"] ∧
      (∀ v, operationAt (b.document g.registry).paths "/trace" v = none) ∧
      Dict.keys (b'.document g'.registry).paths = ["/find"] ∧
      ¬SameUpToIds (fun f ↦ Dict.mapValues (PathItem.mapSchemas f)) (b.document g.registry).paths
        (b'.document g'.registry).paths g.registry g'.registry := by
  have h : (Generation.added? (traced "x") ⟨"/tmp/w/service"⟩ []).bind (fun x ↦
      (Generation.addServices (traced "x") (x.1.map Service.supported)
        (Builder.initial.withDirectives (Service.allDirectives x.1), ⟨x.2.1, .empty⟩)).toOption.map
        fun state ↦ (Dict.keys x.2.2.1.paths,
          Verb.all.all fun v ↦ (operationAt x.2.2.1.paths "/trace" v).isNone,
          Dict.keys state.1.paths)) =
      some (["/find", "/trace"], true, ["/find"]) := by
    decide +kernel
  obtain ⟨⟨services, t, b, g⟩, hadded, h⟩ := Option.bind_eq_some_iff.mp h
  obtain ⟨hl, ha⟩ := Generation.added?_eq_some hadded
  dsimp only at h
  cases ha' : Generation.addServices (traced "x") (services.map Service.supported)
    (Builder.initial.withDirectives (Service.allDirectives services), ⟨t, .empty⟩) with
  | error fault =>
    rw [ha'] at h
    cases h
  | ok state =>
    obtain ⟨b', g'⟩ := state
    rw [ha'] at h
    have h := Option.some.inj h
    simp only [Prod.mk.injEq, List.all_eq_true, Option.isNone_iff_eq_none] at h
    obtain ⟨hkeys, hslots, hkeys'⟩ := h
    refine ⟨services, t, b, g, b', g', hl, ha, ha', hkeys, fun v ↦ hslots v v.mem_all, hkeys',
      fun hsame ↦ ?_⟩
    have he := congrArg Dict.keys (hsame fun _ ↦ "")
    rw [Dict.keys_mapValues, Dict.keys_mapValues] at he
    exact absurd ((hkeys.symm.trans he).trans hkeys') (by decide)

end GoOpenApi
