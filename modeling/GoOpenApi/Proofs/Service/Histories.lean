import GoOpenApi.Proofs.Resolve.Failure
import GoOpenApi.Proofs.Service.Filtering
import Mathlib.Data.List.Induction

/-!
The tables after calls of any kind. Only calls that resolve a type touch the bodies of declared
types, so what is known between such calls is known between all of them.
-/

namespace GoOpenApi

variable {p : Project}

namespace Tables

variable {t t' : Tables} {α : Type}

/-- Actions that find what the files declare and leave the bodies as they are, whether they end with
an answer or with a fault. -/
def framing (p : Project) : Action.Relation Tables Tables where
  Holds P a _ := ∀ t, t.Found p → (a t).2.Found p ∧ (a t).2.definitions = t.definitions ∧
    ∀ x, (a t).1 = .ok x → P x
  pure hx t ht := ⟨ht, rfl, fun _ h ↦ by cases h; exact hx⟩
  bind {α β P Q a a' f f'} ha hf := by
    intro t ht
    obtain ⟨ht₁, hd, hp⟩ := ha t ht
    rw [Action.run_bind]
    rcases hr : a t with ⟨fault | x, t₁⟩ <;> rw [hr] at ht₁ hd hp
    · exact ⟨ht₁, hd, nofun⟩
    · obtain ⟨ht₂, hd', hq⟩ := hf x (hp x rfl) t₁ ht₁
      exact ⟨ht₂, hd'.trans hd, hq⟩

section

variable {P : α → Prop} {a : Action Tables α}

theorem framing_of_finding {endless : Prop} (h : (finding p endless).Holds P a a)
    (hd : ∀ t, (a t).2.definitions = t.definitions) : (framing p).Holds P a a := by
  refine fun t ht ↦ ⟨finding_found h ht, hd t, fun x hx ↦ ?_⟩
  exact (finding_ok h ht (Prod.ext hx rfl : a t = (.ok x, (a t).2))).1

theorem framing_get {f : Tables → Action Tables α} (h : ∀ t, (framing p).Holds P (f t) (f t)) :
    (framing p).Holds P (MonadState.get >>= f) (MonadState.get >>= f) :=
  fun t ht ↦ h t t ht

theorem framing_endless : (framing p).Holds P (throw .endless : Action Tables α) (throw .endless) :=
  fun _ ht ↦ ⟨ht, rfl, nofun⟩

end

theorem declaration_framing (q : QualifiedName) :
    (framing p).Holds (fun found ↦ p.declared? q = some found) (declaration p q)
      (declaration p q) :=
  have h : (finding p True).Holds (fun found ↦ p.declared? q = some found) (declaration p q)
    (declaration p q) := declaration_finding q
  framing_of_finding h (definitions_declaration p q)

theorem followWithin_framing (n : Nat) (entered : List QualifiedName) (type : GoType)
    (package : String) (path : List String) :
    (framing p).Relates (followWithin p n entered type package path)
      (followWithin p n entered type package path) := by
  induction n generalizing entered type package path with
  | zero => exact framing_endless
  | succ n ih =>
    refine follow_relates type package path fun q here path _ ↦ ?_
    split
    · exact .pure _
    · refine (framing p).bind (declaration_framing q) fun found _ ↦ ?_
      cases found with
      | none => exact (framing p).pure trivial
      | some d => exact ih _ _ _ _

theorem nestedType_framing (type : GoType) (package : String) (path : List String) :
    (framing p).Relates (nestedType p type package path) (nestedType p type package path) :=
  framing_get fun _ ↦ followWithin_framing _ _ _ _ _

theorem gatherWithin_framing (home : String) (n : Nat) (d : InterfaceDecl) (package : String)
    (g : Gathered) :
    (framing p).Relates (gatherWithin p home n d package g) (gatherWithin p home n d package g) := by
  induction n generalizing d package g with
  | zero => exact framing_endless
  | succ n ih =>
    exact gatherEmbedded_relates (fun _ _ _ ↦ trivial) declaration_framing
      (fun q d g _ _ _ _ ↦ ih d q.package _) trivial

theorem methodsOf_framing (d : InterfaceDecl) (package : String) :
    (framing p).Relates (methodsOf p d package) (methodsOf p d package) :=
  framing_get fun _ ↦ (gatherWithin_framing _ _ _ _ _).map Gathered.methods

theorem contents_framing (dir : Path) :
    (framing p).Relates (contents p dir) (contents p dir) := by
  refine (framing p).mono (framing_of_finding (contents_finding dir) fun t ↦ ?_) fun _ _ ↦ trivial
  rw [contents_run]

end Tables

namespace Service

open Tables

theorem build_framing (d : InterfaceDecl) (package : String) :
    (framing p).Holds (fun s ↦ s.name = d.name) (build p d package) (build p d package) :=
  build_relates nestedType_framing (methodsOf_framing d package)

theorem load_framing (dir : Path) (filter : List String) :
    (framing p).Relates (load p dir filter) (load p dir filter) := by
  rw [load_eq]
  exact (contents_framing dir).bind fun files ↦ buildAll_relates (fun d ↦ build_framing d _) _

end Service

namespace Tables

variable {t : Tables}

/-- A call that resolves no type leaves the bodies as they are. -/
theorem Found.definitions_request (ht : t.Found p) {request : Request}
    (h : ∀ query, request ≠ .resolve query) :
    (request.after p t).definitions = t.definitions := by
  cases request with
  | declare q => exact definitions_declaration p q t
  | resolve query => exact absurd rfl (h query)
  | follow type package path => exact (nestedType_framing type package path t ht).2.1
  | search request => rfl
  | build d package => exact (Service.build_framing d package t ht).2.1
  | load dir filter => exact (Service.load_framing dir filter t ht).2.1

theorem Knows.request {excused : Set QualifiedName} {known : List QualifiedName}
    (h : Knows p excused [] known t) {request : Request} (hr : ∀ query, request ≠ .resolve query) :
    Knows p excused [] known (request.after p t) := by
  have hd := h.faithful.found.definitions_request hr
  exact h.of_definitions ((h.faithful.found.request request).faithful hd h.faithful) hd

theorem after_append (p : Project) (history : List Request) (request : Request) :
    after p (history ++ [request]) = request.after p (after p history) := by
  rw [after, List.foldl_append]
  rfl

theorem knows_after (p : Project) (history : List Request) :
    Knows p p.failing [] [] (after p history) := by
  induction history using List.reverseRecOn with
  | nil => exact .empty p
  | append_singleton history request ih =>
    rw [after_append]
    by_cases hr : ∃ query, request = .resolve query
    · obtain ⟨query, rfl⟩ := hr
      exact query.run_knows ih
    · exact ih.request fun query hq ↦ hr ⟨query, hq⟩

/-- Each call that resolves a type was answered. -/
def Answered (p : Project) (history : List Request) : Prop :=
  ∀ before query later, history = before ++ .resolve query :: later →
    ∃ answer t, query.run p (after p before) = (.ok answer, t)

theorem Answered.of_append {history : List Request} {request : Request}
    (h : Answered p (history ++ [request])) : Answered p history := by
  rintro before query later rfl
  exact h before query (later ++ [request]) (by simp)

/-- After answered calls all names in bodies have been met. -/
theorem Answered.knows {history : List Request} (h : Answered p history) :
    Knows p ∅ [] [] (after p history) := by
  induction history using List.reverseRecOn with
  | nil => exact .empty p
  | append_singleton history request ih =>
    have hk := ih h.of_append
    rw [after_append]
    by_cases hr : ∃ query, request = .resolve query
    · obtain ⟨query, rfl⟩ := hr
      obtain ⟨answer, t, hq⟩ := h history query [] rfl
      change Knows p ∅ [] [] (query.run p (after p history)).2
      rw [hq]
      exact ((query.run_settles p []).ok hk hq).1.forget
    · exact hk.request fun query hq ↦ hr ⟨query, hq⟩

theorem Knows.closed_definitions {known : List QualifiedName} (h : Knows p ∅ [] known t) :
    t.Closed := fun _ _ hb _ hq ↦
  (h.find?_of_mem_names hb hq).resolve_right (Set.notMem_empty _)

end Tables

end GoOpenApi
