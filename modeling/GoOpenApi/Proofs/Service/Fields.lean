import GoOpenApi.Proofs.Resolve.Following
import GoOpenApi.Proofs.Service.Histories

/-!
A field of a declared struct on two ways: the walk to it gives the type that is written there, and
the body of the struct has the shape of that type. The package of the type is in both cases that of
the struct.
-/

namespace GoOpenApi

variable {p : Project} {q : QualifiedName} {decl : StructDecl} {f : Field} {segment : String}

theorem Field.find?_shapes (named : QualifiedName → Shape) (package : String)
    (fields : List Field) : (Field.shapes named fields package).find? (·.name == segment) =
      (fields.find? (·.name == segment)).map fun f ↦
        ⟨f.name, f.jsonName, f.isFlattened, f.omitsEmpty, f.type.shape named package⟩ := by
  induction fields with
  | nil => rfl
  | cons f fields ih =>
    obtain ⟨name, type, tags, embedded⟩ := f
    rw [Field.shapes, List.find?_cons, List.find?_cons, ih]
    cases name == segment <;> rfl

theorem Field.names_subset_names {fields : List Field} (package : String) (h : f ∈ fields) :
    f.type.names package ⊆ Field.names fields package := by
  induction fields with
  | nil => cases h
  | cons first fields ih =>
    obtain ⟨name, type, tags, embedded⟩ := first
    rw [Field.names]
    rcases List.mem_cons.mp h with rfl | h
    · exact List.subset_append_left _ _
    · exact List.Subset.trans (ih h) (List.subset_append_right _ _)

namespace Tables

variable {t : Tables}

/-- A walk of one step into a declared struct ends at the type of the field. -/
theorem nestedType_field (hd : p.declared? q = some (some (.struct decl)))
    (hf : decl.fields.find? (·.name == segment) = some f) (origin : String) (ht : t.Found p) :
    ∃ t', nestedType p (.qualified q.package q.name) origin [segment] t =
      (.ok ⟨f.type, q.package⟩, t') := by
  have hw : p.Follows ⟨.qualified q.package q.name, origin⟩ [segment]
      [(q, ⟨.named q.name (some q.package), q.package⟩)] ⟨f.type, q.package⟩ :=
    .imported (.named rfl hd (.field hf (.done _)))
  obtain ⟨reached, t', hr, rfl, -⟩ := nestedType_follows hw ht
  exact ⟨t', hr⟩

/-- An answer about a declared type is its body by the files, which is in the table then. -/
theorem resolveDeclared_ok {answer : Option Shape} {t' : Tables}
    (h : resolveDeclared p q t = (.ok answer, t')) (hk : Knows p p.failing [] [] t) :
    answer = p.body? q ∧ (p.body? q ≠ none → t'.definition? q = p.body? q) := by
  obtain ⟨hk', ha⟩ := (resolveDeclared_settles q []).ok hk h
  refine ⟨ha, fun hb ↦ ?_⟩
  obtain ⟨body, hd⟩ := Knows.find?_of_met (hk'.met q List.mem_cons_self) hb
  exact hd.trans (hk'.faithful.definitions q body hd).symm

/-- After any calls, answered or not, a walk to a field of a declared struct ends at the type that
is written there, in the package of the struct. What that type resolves to after any calls is the
type of the first field of the name in the body of the struct, if both calls are answered. The
type resolves if the struct did and every name in a body had a body before, as is so after answered
calls. -/
theorem field_of_nestedType (hd : p.declared? q = some (some (.struct decl)))
    (hf : decl.fields.find? (·.name == segment) = some f) (origin : String)
    (history history' history'' : List Request) :
    ∃ reached t, nestedType p (.qualified q.package q.name) origin [segment] (after p history) =
        (.ok reached, t) ∧ reached = ⟨f.type, q.package⟩ ∧
      (Answered p history' → (after p history').Closed) ∧
      ∀ answer t', resolveDeclared p q (after p history') = (.ok answer, t') →
        ∃ fields g, answer = some (.record fields) ∧ t'.definition? q = some (.record fields) ∧
          fields.find? (·.name == segment) = some g ∧
          (∀ shape u, resolve p reached.type reached.package (after p history'') =
            (.ok shape, u) → shape = g.type) ∧
          ((after p history').Closed →
            ∃ u, resolve p reached.type reached.package (after p history'') = (.ok g.type, u)) := by
  obtain ⟨t, hn⟩ := nestedType_field hd hf origin (found_after p history)
  refine ⟨_, t, hn, rfl, fun h ↦ h.knows.closed_definitions, fun answer t' hr ↦ ?_⟩
  have hb : p.body? q = some (.record (Field.shapes p.named decl.fields q.package)) :=
    Project.body?_of_declared hd
  obtain ⟨rfl, hdef⟩ := resolveDeclared_ok hr (knows_after p history')
  refine ⟨_, _, hb, hb ▸ hdef (by simp [hb]), (Field.find?_shapes ..).trans (by rw [hf]; rfl),
    fun shape u hs ↦ ((resolve_settles _ _ []).ok (knows_after p history'') hs).2, fun hc ↦ ?_⟩
  -- the struct was met in closed tables, so it leads to no fault, and neither does the field
  have hk : Knows p ∅ [] [] (after p history') := (knows_after p history').of_closed hc
  obtain ⟨hk', -⟩ := (resolveDeclared_settles q []).ok hk hr
  have hq : ¬p.Faulty q := hk'.not_faulty List.mem_cons_self
  refine resolve_of_not_faulty (fun q' hq' hf' ↦ hq (hf'.of_leads ⟨_, hd, ?_⟩))
    (knows_after p history'')
  exact Field.names_subset_names q.package (List.mem_of_find?_eq_some hf) hq'

/-- The customer of an order is named in one package and declared in another. -/
theorem orders_customer_resolved : ∃ reached t fields g t' u,
    nestedType orders (.qualified "m/models" "Order") "m" ["Customer"] (after orders []) =
        (.ok reached, t) ∧
      resolveDeclared orders ⟨"m/models", "Order"⟩ (after orders []) =
        (.ok (some (.record fields)), t') ∧
      fields.find? (·.name == "Customer") = some g ∧
      resolve orders reached.type reached.package
        (after orders [.resolve (.declared ⟨"m/parts", "Person"⟩)]) = (.ok g.type, u) := by
  have hfield : ((((orders.declared? ⟨"m/models", "Order"⟩).join.bind Declaration.struct?).bind
      fun decl ↦ decl.fields.find? (·.name == "Customer"))).isSome := by
    decide +kernel
  obtain ⟨f, hf⟩ := Option.isSome_iff_exists.mp hfield
  obtain ⟨decl, hd, hf⟩ := Option.bind_eq_some_iff.mp hf
  obtain ⟨body, t', hr⟩ := ok_of_isOk (a := resolveDeclared orders ⟨"m/models", "Order"⟩)
    (t := after orders []) (by decide +kernel)
  obtain ⟨reached, t, hn, -, hc, hb⟩ := field_of_nestedType (Project.bind_struct?_eq_some.mp hd) hf
    "m" [] [] [.resolve (.declared ⟨"m/parts", "Person"⟩)]
  obtain ⟨fields, g, rfl, -, hg, -, hs⟩ := hb body t' hr
  have ha : Answered orders [] := fun before query later h ↦ by simp at h
  obtain ⟨u, hu⟩ := hs (hc ha)
  exact ⟨reached, t, fields, g, t', u, hn, hr, hg, hu⟩

/-- The body of the second struct was kept when the first was given up. The walk to its field and
the call for its body are answered, but the type of the field has no answer. -/
theorem brokenField_field_not_resolved :
    ∃ reached t, nestedType brokenField (.qualified "m/models" "B") "m" ["A"]
        (after brokenField [.resolve (.type (.qualified "m/models" "A") "m")]) =
          (.ok reached, t) ∧
      (resolveDeclared brokenField ⟨"m/models", "B"⟩ (after brokenField
        [.resolve (.type (.qualified "m/models" "A") "m"),
          .follow (.qualified "m/models" "B") "m" ["A"]])).1.isOk ∧
      ¬(resolve brokenField reached.type reached.package (after brokenField
        [.resolve (.type (.qualified "m/models" "A") "m"),
          .follow (.qualified "m/models" "B") "m" ["A"],
          .resolve (.declared ⟨"m/models", "B"⟩)])).1.isOk := by
  obtain ⟨reached, t, hr, hs⟩ := ok_of_map
    (a := nestedType brokenField (.qualified "m/models" "B") "m" ["A"])
    (t := after brokenField [.resolve (.type (.qualified "m/models" "A") "m")])
    (f := fun reached ↦
      ((resolveDeclared brokenField ⟨"m/models", "B"⟩ (after brokenField
        [.resolve (.type (.qualified "m/models" "A") "m"),
          .follow (.qualified "m/models" "B") "m" ["A"]])).1.isOk,
      (resolve brokenField reached.type reached.package (after brokenField
        [.resolve (.type (.qualified "m/models" "A") "m"),
          .follow (.qualified "m/models" "B") "m" ["A"],
          .resolve (.declared ⟨"m/models", "B"⟩)])).1.isOk))
    (y := (true, false)) (by decide +kernel)
  obtain ⟨hbody, hfield⟩ := Prod.mk.inj hs
  exact ⟨reached, t, hr, hbody, by simp [hfield]⟩

end Tables

end GoOpenApi
