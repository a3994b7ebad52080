import GoOpenApi.Proofs.Module.History
import GoOpenApi.Proofs.Resolve.Finding

/-!
Where a path of field names leads by the declarations alone, and where the walk along it ends. The
walk gives up at the second meeting of a declared type, also when fields were passed in between, so
it falls short of every path that goes through a type twice.
-/

namespace GoOpenApi

/-- The declared type that a name stands for; none for a predeclared type. -/
def declaredName? (name : String) (origin : Option String) (package : String) :
    Option QualifiedName :=
  match origin with
  | some origin => some ⟨origin, name⟩
  | none => if isPredeclared name then none else some ⟨package, name⟩

namespace Project

variable (p : Project)

/-- The path leads from one type to another. The declared types on the way are given in order, each
with the place of its name. -/
inductive Follows : Nested → List String → List (QualifiedName × Nested) → Nested → Prop
  | done (here : Nested) : Follows here [] [] here
  | imported {next : GoType} {origin package segment : String} {path entered there} :
      Follows ⟨next, origin⟩ (segment :: path) entered there →
      Follows ⟨.imported origin next, package⟩ (segment :: path) entered there
  | pointer {next : GoType} {package segment : String} {path entered there} :
      Follows ⟨next, package⟩ (segment :: path) entered there →
      Follows ⟨.pointer next, package⟩ (segment :: path) entered there
  | named {name : String} {origin : Option String} {package segment : String} {q : QualifiedName}
      {d : Declaration} {path entered there} :
      declaredName? name origin package = some q → p.declared? q = some (some d) →
      Follows ⟨d.toType, q.package⟩ (segment :: path) entered there →
      Follows ⟨.named name origin, package⟩ (segment :: path)
        ((q, ⟨.named name origin, package⟩) :: entered) there
  | field {fields : List Field} {package segment : String} {f : Field} {path entered there} :
      fields.find? (·.name == segment) = some f → Follows ⟨f.type, package⟩ path entered there →
      Follows ⟨.struct fields, package⟩ (segment :: path) entered there

/-- Computes where a path leads in at most `n` steps. -/
def follow? : Nat → Nested → List String → Option (List (QualifiedName × Nested) × Nested)
  | _, here, [] => some ([], here)
  | n + 1, ⟨.imported origin next, _⟩, segment :: path =>
    follow? n ⟨next, origin⟩ (segment :: path)
  | n + 1, ⟨.pointer next, package⟩, segment :: path =>
    follow? n ⟨next, package⟩ (segment :: path)
  | n + 1, ⟨.named name origin, package⟩, segment :: path =>
    (declaredName? name origin package).bind fun q ↦
      (p.declared? q).join.bind fun d ↦
        (follow? n ⟨d.toType, q.package⟩ (segment :: path)).map fun (entered, there) ↦
          ((q, ⟨.named name origin, package⟩) :: entered, there)
  | n + 1, ⟨.struct fields, package⟩, segment :: path =>
    (fields.find? (·.name == segment)).bind fun f ↦ follow? n ⟨f.type, package⟩ path
  | _, _, _ => none

variable {p} {here there : Nested} {path : List String} {entered : List (QualifiedName × Nested)}

theorem follows_of_follow? {n : Nat} (h : p.follow? n here path = some (entered, there)) :
    p.Follows here path entered there := by
  fun_induction p.follow? n here path generalizing entered with
  | case1 =>
    cases h
    exact .done _
  | case2 n origin next package segment path ih => exact .imported (ih h)
  | case3 n next package segment path ih => exact .pointer (ih h)
  | case4 n name origin package segment path ih =>
    obtain ⟨q, hq, h⟩ := Option.bind_eq_some_iff.mp h
    obtain ⟨d, hd, h⟩ := Option.bind_eq_some_iff.mp h
    obtain ⟨⟨entered, there⟩, h, he⟩ := Option.map_eq_some_iff.mp h
    cases he
    exact .named hq (Option.join_eq_some_iff.mp hd) (ih q d h)
  | case5 n fields package segment path ih =>
    obtain ⟨f, hf, h⟩ := Option.bind_eq_some_iff.mp h
    exact .field hf (ih f h)
  | case6 => cases h

/-- The place of the first name in a list that stands for a type met before it or among `seen`. -/
def firstMetAgain? (seen : List QualifiedName) : List (QualifiedName × Nested) → Option Nested
  | [] => none
  | (q, here) :: entered =>
    if seen.contains q then some here else firstMetAgain? (q :: seen) entered

theorem firstMetAgain?_eq_none_iff {seen : List QualifiedName} :
    firstMetAgain? seen entered = none ↔
      (entered.map (·.1)).Nodup ∧ ∀ q ∈ seen, q ∉ entered.map (·.1) := by
  induction entered generalizing seen with
  | nil => simp [firstMetAgain?]
  | cons step entered ih =>
    obtain ⟨q, here⟩ := step
    simp only [firstMetAgain?, List.map_cons, List.nodup_cons, List.mem_cons, not_or]
    split
    · rename_i hs
      rw [List.contains_iff_mem] at hs
      refine ⟨nofun, fun ⟨_, hd⟩ ↦ absurd rfl (hd q hs).1⟩
    · rename_i hs
      rw [List.contains_iff_mem] at hs
      rw [ih]
      constructor
      · rintro ⟨hn, hd⟩
        exact ⟨⟨hd q List.mem_cons_self, hn⟩, fun q' hq' ↦
          ⟨fun he ↦ hs (he ▸ hq'), hd q' (List.mem_cons_of_mem _ hq')⟩⟩
      · rintro ⟨⟨hq, hn⟩, hd⟩
        refine ⟨hn, fun q' hq' ↦ ?_⟩
        rcases List.mem_cons.mp hq' with rfl | hq'
        · exact hq
        · exact (hd q' hq').2

end Project

namespace Tables

open Project

variable {p : Project} {here there : Nested} {path : List String}
  {entered : List (QualifiedName × Nested)} {t : Tables}

theorem followField_of_find? {enter : QualifiedName → Nested → List String → Action Tables Nested}
    {f : Field} {segment : String} {fields : List Field}
    (h : fields.find? (·.name == segment) = some f) :
    followField enter fields here segment path = follow enter f.type here.package path := by
  induction fields with
  | nil => cases h
  | cons g fields ih =>
    obtain ⟨name, type, tags, embedded⟩ := g
    rw [followField]
    rw [List.find?_cons] at h
    by_cases hn : name = segment
    · simp only [hn, beq_self_eq_true, Option.some.injEq] at h
      rw [if_pos hn, ← h]
    · simp only [beq_eq_false_iff_ne.mpr hn] at h
      rw [if_neg hn, ih h]

theorem follow_named {enter : QualifiedName → Nested → List String → Action Tables Nested}
    {name segment package : String} {origin : Option String} {q : QualifiedName}
    (h : declaredName? name origin package = some q) :
    follow enter (.named name origin) package (segment :: path) =
      enter q ⟨.named name origin, package⟩ (segment :: path) := by
  cases origin with
  | some origin =>
    cases h
    rfl
  | none =>
    simp only [declaredName?] at h
    split at h
    · cases h
    · rename_i hp
      cases h
      rw [follow, if_neg hp]
      exact List.cons_ne_nil segment path

/-- The walk ends where the path leads unless a declared type is met again on the way: then it
ends there. -/
theorem followWithin_of_follows (n : Nat) (seen : List QualifiedName)
    (h : p.Follows here path entered there) (ht : t.Found p) :
    ∃ t', followWithin p (n + 1) seen here.type here.package path t =
        (.ok ((firstMetAgain? seen entered).getD there), t') ∨
      followWithin p (n + 1) seen here.type here.package path t = (.error .endless, t') := by
  induction h generalizing n seen t with
  | done here => exact ⟨t, .inl (by rw [followWithin, follow]; rfl)⟩
  | imported _ ih | pointer _ ih => exact ih n seen ht
  | @field fields package segment f path entered there hf _ ih =>
    have hstep : followWithin p (n + 1) seen (.struct fields) package (segment :: path) =
        followWithin p (n + 1) seen f.type package path := by
      rw [followWithin, follow, followField_of_find? hf]
    simp only
    rw [hstep]
    exact ih n seen ht
  | @named name origin package segment q d path entered there hq hd _ ih =>
    simp only [followWithin, firstMetAgain?]
    rw [follow_named hq]
    by_cases hs : seen.contains q
    · rw [if_pos hs, if_pos hs]
      exact ⟨t, .inl rfl⟩
    · rw [if_neg hs, if_neg hs, Action.run_bind]
      rcases hr : declaration p q t with ⟨fault | found, t₁⟩
      · have hn := (ht.declaration_error hr).2.1
        rw [hd] at hn
        cases hn
      · obtain ⟨ht₁, hf⟩ := ht.declaration_ok hr
        rw [hd] at hf
        cases hf
        cases n with
        | zero => exact ⟨t₁, .inr rfl⟩
        | succ n => exact ih n (q :: seen) ht₁

/-- A walk along a path that leads somewhere gets there exactly when it meets no declared type twice,
or meets one just there. -/
theorem nestedType_follows {type : GoType} {package : String}
    (h : p.Follows ⟨type, package⟩ path entered there) (ht : t.Found p) :
    ∃ reached t', nestedType p type package path t = (.ok reached, t') ∧
      reached = (firstMetAgain? [] entered).getD there ∧
      (reached = there ↔ (entered.map (·.1)).Nodup ∨ firstMetAgain? [] entered = some there) := by
  have hn : firstMetAgain? [] entered = none ↔ (entered.map (·.1)).Nodup := by
    simp [firstMetAgain?_eq_none_iff]
  obtain ⟨n, hb⟩ := budget_pos p t type.weight
  have hw : nestedType p type package path t = followWithin p (n + 1) [] type package path t := by
    rw [← hb]
    rfl
  rw [hw]
  obtain ⟨t', hr | hr⟩ := followWithin_of_follows n [] h ht
  · refine ⟨_, t', hr, rfl, ?_⟩
    rw [← hn]
    rcases firstMetAgain? [] entered with _ | again <;> simp
  · have he : (finding p False).Relates (nestedType p type package path)
        (nestedType p type package path) := nestedType_finding type package path
    exact absurd rfl (finding_error he ht (hw.trans hr)).2

/-- An order whose buyer is another name for a type of another package. -/
def orders : Project :=
  let parts := "package parts\n\ntype Person struct \x7b\n\tHome *Address\n\x7d\n\n" ++
    "type Address struct \x7b\n\tStreet string\n\x7d\n"
  let models := "package models\n\nimport \"m/parts\"\n\n" ++
    "type Order struct \x7b\n\tCustomer *Buyer\n\x7d\n\ntype Buyer = parts.Person\n"
  let files := [(⟨"go.mod"⟩, .file (.text "module m\n")),
    (⟨"models/models.go"⟩, .file (.text models)), (⟨"parts/parts.go"⟩, .file (.text parts))]
  .of (.ofNodes ["tmp", "w"] files) (.ofGoMod {} ⟨"/tmp/w"⟩ (.parse "module m\n"))

theorem orders_street_reached :
    ∃ there t', nestedType orders (.qualified "m/models" "Order") "m"
        ["Customer", "Home", "Street"] .empty = (.ok there, t') ∧
      there.type.identity = some (none, "string") ∧ there.package = "m/parts" := by
  have h : (orders.follow? 12 ⟨.qualified "m/models" "Order", "m"⟩
      ["Customer", "Home", "Street"]).map (fun (entered, there) ↦
        (entered.map (·.1), there.type.identity, there.package)) =
      some ([⟨"m/models", "Order"⟩, ⟨"m/models", "Buyer"⟩, ⟨"m/parts", "Person"⟩,
        ⟨"m/parts", "Address"⟩], some (none, "string"), "m/parts") := by
    decide +kernel
  obtain ⟨⟨entered, there⟩, hf, he⟩ := Option.map_eq_some_iff.mp h
  simp only [Prod.mk.injEq] at he
  obtain ⟨hnames, hthere⟩ := he
  obtain ⟨reached, t', hr, -, hi⟩ := nestedType_follows (follows_of_follow? hf) (.empty orders)
  have hd : (entered.map (·.1)).Nodup := by
    rw [hnames]
    decide
  exact ⟨there, t', hi.mpr (.inl hd) ▸ hr, hthere⟩

/-- A struct with a pointer to its own type. -/
def nodesWithValues : Project :=
  let source := "package models\n\ntype Node struct \x7b\n\tNext *Node\n\tValue string\n\x7d\n"
  let files := [(⟨"go.mod"⟩, .file (.text "module m\n")),
    (⟨"models/models.go"⟩, .file (.text source))]
  .of (.ofNodes ["tmp", "w"] files) (.ofGoMod {} ⟨"/tmp/w"⟩ (.parse "module m\n"))

/-- The value of the next node is a text, but the walk ends at the second meeting of the type. -/
theorem next_value_not_reached :
    ∃ entered there, nodesWithValues.Follows ⟨.qualified "m/models" "Node", "m"⟩ ["Next", "Value"]
        entered there ∧ there.type.identity = some (none, "string") ∧
      ∃ reached, (nestedType nodesWithValues (.qualified "m/models" "Node") "m" ["Next", "Value"]
        .empty).1 = .ok reached ∧ reached.type.identity = some (none, "Node") := by
  have h : (nodesWithValues.follow? 12 ⟨.qualified "m/models" "Node", "m"⟩ ["Next", "Value"]).map
      (·.2.type.identity) = some (some (none, "string")) := by
    decide +kernel
  have hw : (nestedType nodesWithValues (.qualified "m/models" "Node") "m" ["Next", "Value"]
      .empty).1.toOption.map (·.type.identity) = some (some (none, "Node")) := by
    decide +kernel
  obtain ⟨⟨entered, there⟩, hf, hi⟩ := Option.map_eq_some_iff.mp h
  obtain ⟨reached, hr, hi'⟩ := Option.map_eq_some_iff.mp hw
  exact ⟨entered, there, follows_of_follow? hf, hi, reached, Sources.ok_of_toOption hr, hi'⟩

end Tables

end GoOpenApi
