import GoOpenApi.Document.Builder
import GoOpenApi.Proofs.Relation

/-!
Related ways to make schemas give related ways to make operations.
-/

namespace GoOpenApi

open GoOpenApi.Action (Relation)

variable {p p' : Project}

namespace Generator

/-- Related ways to make schemas and to look at those that were made. -/
structure RelatesSchemas (R : Relation Generator Generator) (p p' : Project) : Prop where
  schema (type : GoType) (package : String) :
    R.Relates (schema p type package) (schema p' type package)
  payload (q : QualifiedName) : R.Relates (payload p q) (payload p' q)
  cleared (content : Dict MediaType) : R.Relates (cleared content) (cleared content)
  unlessEmpty (s : Schema) : R.Relates (unlessEmpty s) (unlessEmpty s)

structure RelatesContainers (R : Relation Generator Generator) (p p' : Project) : Prop
    extends RelatesSchemas R p p' where
  container (name package : String) (fields : List Field) :
    R.Relates (container p name package fields) (container p' name package fields)

section

variable {R : Relation Generator Generator} (h : RelatesSchemas R p p')

include h

theorem parameters_relates (bs : List Binding) :
    R.Relates (parameters p bs) (parameters p' bs) := by
  induction bs with
  | nil => exact .pure _
  | cons b bs ih => exact ((h.schema _ _).map _).bind fun first ↦ ih.map _

theorem headersOnto_relates (package : String) (d : Dict Header) (bs : List Binding) :
    R.Relates (headersOnto p package d bs) (headersOnto p' package d bs) := by
  induction bs generalizing d with
  | nil => exact .pure _
  | cons b bs ih => exact (h.schema _ _).bind fun s ↦ ih _

theorem headers_relates (package : String) (bs : List Binding) :
    R.Relates (headers p package bs) (headers p' package bs) := by
  refine (headersOnto_relates h package [] bs).bind fun d ↦ ?_
  cases d <;> exact .pure _

theorem propertiesOnto_relates (package : String) (d : Dict Schema) (fields : List Field) :
    R.Relates (propertiesOnto p package d fields) (propertiesOnto p' package d fields) := by
  induction fields generalizing d with
  | nil => exact .pure _
  | cons f fields ih =>
    rw [propertiesOnto, propertiesOnto]
    split
    · exact (h.schema _ _).bind fun s ↦ ih _
    · exact ih d

theorem form_relates (package : String) (m : Endpoint) :
    R.Relates (form p package m) (form p' package m) :=
  (propertiesOnto_relates h package _ _).map _

theorem overridesOnto_relates (d : Dict Response) (os : List (Nat × ResponseOverride)) :
    R.Relates (overridesOnto p d os) (overridesOnto p' d os) := by
  induction os generalizing d with
  | nil => exact .pure _
  | cons o os ih =>
    obtain ⟨code, o⟩ := o
    unfold overridesOnto
    split
    · exact (h.payload _).bind fun content ↦ ih _
    · exact ih _
    · exact ih d

theorem withErrors_relates (m : Endpoint) (d : Dict Response) :
    R.Relates (withErrors p m d) (withErrors p' m d) := by
  refine (overridesOnto_relates h d _).bind fun d ↦ ?_
  split
  · exact .pure _
  · exact (h.payload _).map _
  · exact .pure _

theorem operation_relates (s : Service) (m : Endpoint) :
    R.Relates (operation p s m) (operation p' s m) :=
  (parameters_relates h m.bindings).map _

end

section

variable {R : Relation Generator Generator} (h : RelatesContainers R p p')

include h

theorem requestContent_relates (s : Service) (m : Endpoint) :
    R.Relates (requestContent p s m) (requestContent p' s m) := by
  rw [requestContent, requestContent]
  split
  · exact (h.container _ _ _).bind fun request ↦ h.cleared _
  · exact (form_relates h.toRelatesSchemas s.package m).map _

theorem rpcOperation_relates (s : Service) (m : Endpoint) :
    R.Relates (rpcOperation p s m) (rpcOperation p' s m) := by
  refine (h.container _ _ _).bind fun params ↦ ?_
  refine (h.container _ _ _).bind fun result ↦ ?_
  refine (h.unlessEmpty params).bind fun _ ↦ ?_
  refine (h.unlessEmpty result).bind fun _ ↦ ?_
  refine (headers_relates h.toRelatesSchemas _ _).bind fun _ ↦ ?_
  exact (operation_relates h.toRelatesSchemas s m).map _

theorem httpOperation_relates (s : Service) (m : Endpoint) :
    R.Relates (httpOperation p s m) (httpOperation p' s m) := by
  refine (requestContent_relates h s m).bind fun _ ↦ ?_
  refine (h.container _ _ _).bind fun response ↦ ?_
  refine (headers_relates h.toRelatesSchemas _ _).bind fun _ ↦ ?_
  refine (h.cleared _).bind fun _ ↦ ?_
  refine (withErrors_relates h.toRelatesSchemas m _).bind fun _ ↦ ?_
  exact (operation_relates h.toRelatesSchemas s m).map _

theorem addMethod_relates (s : Service) (m : Endpoint) (b : Builder) :
    R.Relates (Builder.addMethod p s m b) (Builder.addMethod p' s m b) := by
  unfold Builder.addMethod
  split
  · exact (httpOperation_relates h s m).map _
  · exact (rpcOperation_relates h s m).map _

end

end Generator

namespace Builder

theorem addMethods_cons (p : Project) (s : Service) (m : Endpoint) (ms : List Endpoint)
    (b : Builder) (g : Generator) : addMethods p s (m :: ms) (b, g) =
      match addMethod p s m b g with
      | (.ok b, g) => addMethods p s ms (b, g)
      | (.error fault, g) => (.error fault, (b, g)) := by
  rw [addMethods, Action.run_get_bind]
  dsimp only
  rcases addMethod p s m b g with ⟨_ | _, g⟩ <;> rfl

end Builder

end GoOpenApi
