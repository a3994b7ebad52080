import GoOpenApi.Proofs.Resolve.Determinism

/-!
The order of calls makes no difference. Calls that have an answer have the same answer after any
others, and the tables that they leave agree.
-/

namespace GoOpenApi.Tables

/-- A call that resolves something. -/
inductive Query where
  | type (t : GoType) (package : String)
  | fields (fs : List Field) (package : String)
  | declared (q : QualifiedName)

inductive Answer where
  | shape (shape : Shape)
  | fields (fields : List ShapeField)
  | body (body? : Option Shape)

namespace Query

def run (p : Project) : Query → Action Tables Answer
  | .type t package => do return .shape (← resolve p t package)
  | .fields fs package => do return .fields (← resolveFields p fs package)
  | .declared q => do return .body (← resolveDeclared p q)

def runAll (p : Project) : List Query → Action Tables (List Answer)
  | [] => return []
  | query :: queries => do
    let answer ← query.run p
    return answer :: (← runAll p queries)

def names : Query → List QualifiedName
  | .type t package => t.names package
  | .fields fs package => Field.names fs package
  | .declared q => [q]

/-- The answer by the files alone. -/
def meaning (p : Project) : Query → Answer
  | .type t package => .shape (t.shape p.named package)
  | .fields fs package => .fields (Field.shapes p.named fs package)
  | .declared q => .body (p.body? q)

variable (p : Project)

theorem run_settles {excused : Set QualifiedName} (query : Query) :
    Settles p excused [] query.names (query.meaning p) (query.run p) := by
  cases query with
  | type t package => exact (resolve_settles t package).map Answer.shape
  | fields fs package => exact (resolveFields_settles fs package).map Answer.fields
  | declared q => exact (resolveDeclared_settles q).map Answer.body

theorem runAll_settles (queries : List Query) :
    Settles p ∅ [] (queries.flatMap names) (queries.map (meaning p)) (runAll p queries) := by
  induction queries with
  | nil => exact .pure _
  | cons query queries ih => exact (query.run_settles p).bind (ih.map (List.cons _))

end Query

variable {p : Project}

/-- After any calls that all have an answer, each answer is the one from fresh tables, and two such
runs leave the same declaration and the same body for a name. -/
theorem answers_independent_of_order {queries queries' : List Query}
    {answers answers' : List Answer} {t t' : Tables}
    (h : Query.runAll p queries .empty = (.ok answers, t))
    (h' : Query.runAll p queries' .empty = (.ok answers', t')) :
    (queries.map fun query ↦ (query.run p .empty).1) = answers.map .ok ∧
      (∀ q found found', t.declarations.find? q = some found →
        t'.declarations.find? q = some found' → found = found') ∧
      (∀ q body body', t.definition? q = some body → t'.definition? q = some body' →
        body = body') ∧
      ∀ q body, t.definition? q = some body → (resolveDeclared p q .empty).1 = .ok (some body) := by
  obtain ⟨hk, ha⟩ := (Query.runAll_settles p queries []).ok (.empty p) h
  obtain ⟨hk', -⟩ := (Query.runAll_settles p queries' []).ok (.empty p) h'
  refine ⟨?_, fun q found found' hf hf' ↦ ?_, fun q body body' hb hb' ↦ ?_, fun q body hb ↦ ?_⟩
  · rw [ha, List.map_map]
    refine List.map_congr_left fun query hq ↦ (query.run_settles p).fresh fun q hn ↦ ?_
    exact hk.not_faulty (List.mem_append_left _ (List.mem_flatMap.mpr ⟨query, hq, hn⟩))
  · have hd := hk.faithful.declarations q found hf
    rw [hk'.faithful.declarations q found' hf'] at hd
    exact (Option.some.inj hd).symm
  · have hd := hk.faithful.definitions q body hb
    rw [hk'.faithful.definitions q body' hb'] at hd
    exact (Option.some.inj hd).symm
  · have hq : ∀ q' ∈ [q], t.Met p [] q' := fun q' hm ↦
      .inr (.inl ⟨body, List.mem_singleton.mp hm ▸ hb⟩)
    rw [← hk.faithful.definitions q body hb]
    exact (resolveDeclared_settles q).fresh fun q' hm ↦
      (hk.with_met hq).not_faulty (List.mem_append_left _ hm)

/-- Two structs that point at each other. -/
def mutualPointers : Project :=
  let source := "package models\n\n" ++
    "type A struct \x7b\n\tB *B\n\x7d\n\ntype B struct \x7b\n\tA *A\n\x7d\n"
  let files := [(⟨"go.mod"⟩, .file (.text "module m\n")), (⟨"models/models.go"⟩, .file (.text source))]
  .of (.ofNodes ["tmp", "w"] files) (.ofGoMod {} ⟨"/tmp/w"⟩ (.parse "module m\n"))

/-- The cycle may be entered at either of its types. -/
theorem mutualPointers_independent_of_order :
    ∃ answers t answers' t',
      Query.runAll mutualPointers [.type (.qualified "m/models" "A") "m"] .empty =
        (.ok answers, t) ∧
      Query.runAll mutualPointers [.declared ⟨"m/models", "B"⟩, .type (.plain "A") "m/models"]
        .empty = (.ok answers', t') ∧
      ([Query.type (.qualified "m/models" "A") "m"].map fun query ↦
        (query.run mutualPointers .empty).1) = answers.map .ok ∧
      (∀ q found found', t.declarations.find? q = some found →
        t'.declarations.find? q = some found' → found = found') ∧
      (∀ q body body', t.definition? q = some body → t'.definition? q = some body' →
        body = body') ∧
      ∀ q body, t.definition? q = some body →
        (resolveDeclared mutualPointers q .empty).1 = .ok (some body) := by
  obtain ⟨answers, t, h⟩ := ok_of_isOk
    (a := Query.runAll mutualPointers [.type (.qualified "m/models" "A") "m"]) (t := .empty)
    (by decide +kernel)
  obtain ⟨answers', t', h'⟩ := ok_of_isOk
    (a := Query.runAll mutualPointers [.declared ⟨"m/models", "B"⟩, .type (.plain "A") "m/models"])
    (t := .empty) (by decide +kernel)
  exact ⟨answers, t, answers', t', h, h', answers_independent_of_order h h'⟩

end GoOpenApi.Tables
