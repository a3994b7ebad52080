import GoOpenApi.Proofs.Document.Calls

/-!
What stands at a path and verb after many methods were added: the operation of the last one that
maps there, or nothing.
-/

namespace GoOpenApi

theorem Verb.ofName?_eq_some_iff {s : String} {v : Verb} :
    Verb.ofName? s = some v ↔ s = v.name := by
  constructor
  · intro h
    have hn := List.find?_some h
    exact (beq_iff_eq.mp hn).symm
  · rintro rfl
    cases v <;> decide

/-- The method belongs at the place. Over HTTP that is its path as a document writes it and the verb
of its directive, in any case of letters; a call stands at its own path under POST. -/
def Endpoint.MapsTo (m : Endpoint) (path : String) (v : Verb) : Prop :=
  if m.isHttp then Route.documented m.httpPath = path ∧ m.httpMethod = v.name
  else m.rpcPath = path ∧ v = .post

section

variable {p : Project} {s : Service} {m : Endpoint} {path : String} {v : Verb}

theorem Endpoint.mapsTo_iff : m.MapsTo path v ↔ m.route = (path, some v) := by
  unfold MapsTo route
  split
  · rw [Prod.mk.injEq, Verb.ofName?_eq_some_iff]
  · rw [Prod.mk.injEq, Option.some.injEq, eq_comm (a := v)]

theorem lastAt_eq_none_iff {methods : List (Service × Endpoint)} :
    lastAt methods path v = none ↔ ∀ e ∈ methods, ¬e.2.MapsTo path v := by
  simp [lastAt, Endpoint.mapsTo_iff]

theorem lastAt_of_last {before after : List (Service × Endpoint)} (hm : m.MapsTo path v)
    (ha : ∀ e ∈ after, ¬e.2.MapsTo path v) :
    lastAt (before ++ (s, m) :: after) path v = some (s, m) := by
  refine List.find?_eq_some_iff_append.mpr
    ⟨decide_eq_true (Endpoint.mapsTo_iff.mp hm), after.reverse, before.reverse, by simp, ?_⟩
  intro e he
  have hn := ha e (List.mem_reverse.mp he)
  simpa [Endpoint.mapsTo_iff] using hn

theorem OperationOf.names {o : Operation} (h : OperationOf p (s, m) o) :
    o.operationId = some (s.lowerName ++ "." ++ m.camelName) ∧ o.tags = some (m.tags s.name) := by
  obtain ⟨g, g', h⟩ := h
  obtain ⟨base, g₁, hb, ho⟩ := Generator.operationOf_base h
  obtain ⟨ps, g₂, -, hb⟩ := Action.bind_ok hb
  cases hb
  rw [ho]
  exact ⟨rfl, rfl⟩

end

section

variable {p : Project} {services : List Service} {directives : Directives} {b : Builder}
  {g g' : Generator}

/-- After services have been added to a new builder, a place is empty exactly when no method maps
to it. Otherwise it holds the operation of the last method that does, with its id and tags. -/
theorem operations_at
    (ha : Generation.addServices p services (Builder.initial.withDirectives directives, g) =
      .ok (b, g')) (path : String) (v : Verb) :
    (operationAt (b.document g'.registry).paths path v = none ↔
      ∀ e ∈ allMethods services, ¬e.2.MapsTo path v) ∧
    ∀ before s m after, allMethods services = before ++ (s, m) :: after → m.MapsTo path v →
      (∀ e ∈ after, ¬e.2.MapsTo path v) →
      ∃ o, operationAt (b.document g'.registry).paths path v = some o ∧ OperationOf p (s, m) o ∧
        o.operationId = some (s.lowerName ++ "." ++ m.camelName) ∧
        o.tags = some (m.tags s.name) := by
  have h₀ : Placed p [] (Builder.initial.withDirectives directives) :=
    ⟨Dict.ordered_nil, fun _ _ ↦ .none⟩
  have hp : Placed p (allMethods services) b := Placed.run (Adds.of_addServices ha) h₀
  have hat : Option.Rel (OperationOf p) (lastAt (allMethods services) path v)
      (operationAt (b.document g'.registry).paths path v) := hp.placed path v
  refine ⟨?_, fun before s m after hms hm hafter ↦ ?_⟩
  · rw [← lastAt_eq_none_iff, ← Option.not_isSome_iff_eq_none, ← Option.not_isSome_iff_eq_none,
      Placed.isSome_of_rel hat]
  · rw [hms, lastAt_of_last hm hafter] at hat
    cases ho : operationAt (b.document g'.registry).paths path v with
    | none =>
      rw [ho] at hat
      cases hat
    | some o =>
      rw [ho] at hat
      cases hat with
      | some hof => exact ⟨o, rfl, hof, hof.names⟩

end

/-- Methods at one path in two spellings, with a verb in two cases of letters. -/
def sharedPaths : Project :=
  let source := "package service\n\n// @tg x\ntype Items interface \x7b\n" ++
    "\t// @tg http-method GET\n\t// @tg http-path /:id\n\tFind(id int)\n" ++
    "\t// @tg http-method get\n\t// @tg http-path /\x7bid\x7d\n" ++
    "\t// @tg swagger-tags stock\n\tShow(id int)\n\tCount()\n\x7d\n"
  let files :=
    [(⟨"go.mod"⟩, .file (.text "module m\n")), (⟨"service/service.go"⟩, .file (.text source))]
  .of (.ofNodes ["tmp", "w"] files) (.ofGoMod {} ⟨"/tmp/w"⟩ (.parse "module m\n"))

/-- `Show` comes after `Find` at the same place, and what comes after it maps elsewhere. -/
theorem sharedPaths_shows :
    ∃ services t b g o,
      Generation.addServices sharedPaths services
        (Builder.initial.withDirectives (Service.allDirectives services), ⟨t, .empty⟩) =
          .ok (b, g) ∧
      (allMethods services).map (·.2.name) = ["Find", "Show", "Count"] ∧
      operationAt (b.document g.registry).paths "/\x7bid\x7d" .get = some o ∧
      o.operationId = some "items.show" ∧ o.tags = some ["stock"] ∧
      operationAt (b.document g.registry).paths "/\x7bid\x7d" .put = none := by
  have h : (Generation.added? sharedPaths ⟨"/tmp/w/service"⟩ []).map
      (fun x ↦ (allMethods x.1).map fun e ↦
        (e.2.name, e.2.route, e.1.lowerName ++ "." ++ e.2.camelName, e.2.tags e.1.name)) =
      some [("Find", ("/\x7bid\x7d", some .get), "items.find", ["Items"]),
        ("Show", ("/\x7bid\x7d", some .get), "items.show", ["stock"]),
        ("Count", ("/items/count", some .post), "items.count", ["Items"])] := by
    decide +kernel
  obtain ⟨⟨services, t, b, g⟩, ha, hm⟩ := Option.map_eq_some_iff.mp h
  obtain ⟨-, ha⟩ := Generation.added?_eq_some ha
  obtain ⟨find, hm₁, hms, hfind, hm⟩ := List.map_eq_cons_iff.mp hm
  obtain ⟨⟨s, m⟩, hm₂, rfl, hshow, hm⟩ := List.map_eq_cons_iff.mp hm
  obtain ⟨count, hm₃, rfl, hcount, hm⟩ := List.map_eq_cons_iff.mp hm
  cases List.map_eq_nil_iff.mp hm
  simp only [Prod.mk.injEq] at hfind hshow hcount
  have hput := (operations_at ha "/\x7bid\x7d" .put).1.mpr (by
    rw [hms]
    simp only [List.forall_mem_cons, Endpoint.mapsTo_iff]
    simp [hfind.2.1, hshow.2.1, hcount.2.1])
  have hlater : ∀ e ∈ [count], ¬e.2.MapsTo "/\x7bid\x7d" .get := by
    simp [Endpoint.mapsTo_iff, hcount.2.1]
  obtain ⟨o, ho, -, hid, htags⟩ := (operations_at ha "/\x7bid\x7d" .get).2
    [find] s m [count] hms (Endpoint.mapsTo_iff.mpr hshow.2.1) hlater
  refine ⟨services, t, b, g, o, ha, ?_, ho, ?_, ?_, hput⟩
  · rw [hms]
    simp [hfind.1, hshow.1, hcount.1]
  · rw [hid, hshow.2.2.1]
  · rw [htags, hshow.2.2.2]

end GoOpenApi
