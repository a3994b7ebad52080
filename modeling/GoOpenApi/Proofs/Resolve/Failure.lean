import GoOpenApi.Proofs.Resolve.Names
import GoOpenApi.Proofs.Resolve.Order

/-!
What calls that end with a fault leave in the tables. A type that was completed inside another keeps
its body when the other is given up, and names it there although it has no entry.
-/

namespace GoOpenApi.Tables

variable {p : Project} {known : List QualifiedName} {t : Tables}

/-- A type whose names lead to no fault is resolved after any calls. -/
theorem resolve_of_not_faulty {type : GoType} {package : String}
    (h : ∀ q ∈ type.names package, ¬p.Faulty q) (hk : Knows p p.failing [] [] t) :
    ∃ t', resolve p type package t = (.ok (type.shape p.named package), t') := by
  have hs := resolve_settles type package [] t hk
  rcases hr : resolve p type package t with ⟨fault | shape, t'⟩ <;> rw [hr] at hs
  · obtain ⟨q, hq, hf⟩ := hs.faulty
    exact absurd hf (h q hq)
  · exact ⟨t', by rw [hs.2]⟩

def Closed (t : Tables) : Prop :=
  ∀ q body, t.definition? q = some body → body.DefinedIn t.definitions

namespace Query

/-- The tables after calls one after the other, those that end with a fault included. -/
def after (p : Project) (queries : List Query) (t : Tables) : Tables :=
  queries.foldl (fun t query ↦ (query.run p t).2) t

theorem run_knows (query : Query) (h : Knows p p.failing [] [] t) :
    Knows p p.failing [] [] (query.run p t).2 := by
  have hs := query.run_settles p [] t h
  rcases hr : query.run p t with ⟨fault | answer, t'⟩ <;> rw [hr] at hs
  · exact hs.knows (Set.Subset.refl _)
  · exact hs.1.forget

theorem after_knows (queries : List Query) (h : Knows p p.failing [] [] t) :
    Knows p p.failing [] [] (after p queries t) := by
  induction queries generalizing t with
  | nil => exact h
  | cons query queries ih => exact ih (query.run_knows h)

end Query

namespace Knows

theorem of_closed (h : Knows p p.failing [] known t) (hc : t.Closed) : Knows p ∅ [] known t where
  faithful := h.faithful
  closed q body q' hb hl := by
    refine .inl ((h.closed q body q' hb hl).elim id fun hq ↦ .inr (.inl ?_))
    exact hc q body hb q' ((Project.mem_names_body (h.faithful.definitions _ _ hb)).mpr ⟨hl, hq.1⟩)
  met := h.met

theorem of_not_faulty (h : Knows p p.failing [] known t)
    (hn : ∀ q body, t.definition? q = some body → ¬p.Faulty q) : Knows p ∅ [] known t where
  faithful := h.faithful
  closed q body q' hb hl :=
    (h.closed q body q' hb hl).imp_right fun hq ↦ (hn q body hb (hq.2.of_leads hl)).elim
  met := h.met

theorem closed_iff (h : Knows p p.failing [] known t) :
    t.Closed ↔ ∀ q body, t.definition? q = some body → ¬p.Faulty q := by
  constructor
  -- in a closed table no name is excused, so everything met leads to no fault
  · intro hc q body hb
    have hq : ∀ q' ∈ [q], t.Met p [] q' := fun q' hm ↦
      .inr (.inl ⟨body, List.mem_singleton.mp hm ▸ hb⟩)
    exact ((h.of_closed hc).with_met hq).not_faulty List.mem_cons_self
  · intro hn q body hb q' hq
    exact ((h.of_not_faulty hn).find?_of_mem_names hb hq).resolve_right (Set.notMem_empty _)

end Knows

/-- After any calls the names in bodies have bodies exactly when no type with a body leads to a
fault, and a name without a body leads to one. Nothing stays marked as being inside its own body:
whatever a later answer names has a body. -/
theorem closed_after_iff (p : Project) (queries : List Query) :
    ((Query.after p queries .empty).Closed ↔
      ∀ q body, (Query.after p queries .empty).definition? q = some body → ¬p.Faulty q) ∧
    (∀ q body, (Query.after p queries .empty).definition? q = some body → ∀ q' ∈ body.names,
      (Query.after p queries .empty).definition? q' = none → p.Faulty q') ∧
    (∀ type package shape t, resolve p type package (Query.after p queries .empty) =
      (.ok shape, t) → shape.DefinedIn t.definitions) ∧
    ∀ fields package shapes t, resolveFields p fields package (Query.after p queries .empty) =
      (.ok shapes, t) → (Shape.record shapes).DefinedIn t.definitions := by
  have hk := Query.after_knows queries (.empty p)
  refine ⟨hk.closed_iff, fun q body hb q' hq hn ↦ ?_, fun type package shape t hr ↦ ?_,
    fun fields package shapes t hr ↦ ?_⟩
  · rcases hk.find?_of_mem_names hb hq with ⟨body', hb'⟩ | hf
    · cases hn.symm.trans hb'
    · exact hf.2
  · obtain ⟨hk', rfl⟩ := (resolve_settles type package []).ok hk hr
    exact hk'.definedIn (List.subset_append_left _ _)
  · obtain ⟨hk', rfl⟩ := (resolveFields_settles fields package []).ok hk hr
    have hd : ((GoType.struct fields).shape p.named package).DefinedIn t.definitions :=
      hk'.definedIn (List.subset_append_left _ _)
    exact hd

/-- Two structs that point at each other, the first of which has a field of a type in a file that
does not parse. -/
def brokenField : Project :=
  let broken := "package broken\n\ntype C struct \x7b\n"
  let source := "package models\n\nimport \"m/broken\"\n\n" ++
    "type A struct \x7b\n\tB *B\n\tC broken.C\n\x7d\n\ntype B struct \x7b\n\tA *A\n\x7d\n"
  let files := [(⟨"go.mod"⟩, .file (.text "module m\n")),
    (⟨"broken/broken.go"⟩, .file (.text broken)), (⟨"models/models.go"⟩, .file (.text source))]
  .of (.ofNodes ["tmp", "w"] files) (.ofGoMod {} ⟨"/tmp/w"⟩ (.parse "module m\n"))

/-- The body of the second stays when the first is given up. -/
theorem brokenField_not_closed :
    ∃ body, (Query.after brokenField [.type (.qualified "m/models" "A") "m"] .empty).definition?
        ⟨"m/models", "B"⟩ = some body ∧ body.names = [⟨"m/models", "A"⟩] ∧
      (Query.after brokenField [.type (.qualified "m/models" "A") "m"] .empty).definition?
        ⟨"m/models", "A"⟩ = none ∧
      ¬(Query.after brokenField [.type (.qualified "m/models" "A") "m"] .empty).Closed := by
  have h : ((Query.after brokenField [.type (.qualified "m/models" "A") "m"] .empty).definition?
      ⟨"m/models", "B"⟩).map Shape.names = some [⟨"m/models", "A"⟩] := by
    decide +kernel
  have hn : ((Query.after brokenField [.type (.qualified "m/models" "A") "m"] .empty).definition?
      ⟨"m/models", "A"⟩).isNone := by
    decide +kernel
  obtain ⟨body, hb, hs⟩ := Option.map_eq_some_iff.mp h
  rw [Option.isNone_iff_eq_none] at hn
  refine ⟨body, hb, hs, hn, fun hc ↦ ?_⟩
  obtain ⟨body', hb'⟩ := hc _ body hb ⟨"m/models", "A"⟩ (by rw [hs]; exact List.mem_cons_self)
  cases hn.symm.trans hb'

end GoOpenApi.Tables
