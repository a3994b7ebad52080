import GoOpenApi.Proofs.Relation
import GoOpenApi.Proofs.Resolve.Budget
import GoOpenApi.Resolve.Nested

/-!
Related ways to resolve the declared types in a type give related ways to resolve the type, and
related ways to enter declared types related walks.
-/

namespace GoOpenApi.Tables

variable {R : Action.Relation Tables Tables}

section

variable {named named' : QualifiedName → Action Tables Shape}

mutual

theorem shapeOf_relates : ∀ (type : GoType) (package : String),
    (∀ q ∈ type.names package, R.Relates (named q) (named' q)) →
    R.Relates (shapeOf named type package) (shapeOf named' type package)
  | .named name (some origin), package, h => by
    rw [GoType.names] at h
    rw [shapeOf, shapeOf]
    cases hw : Primitive.wellKnown? origin name with
    | some primitive => exact .pure _
    | none =>
      rw [hw] at h
      exact h _ (List.mem_singleton_self _)
  | .named name none, package, h => by
    rw [GoType.names] at h
    rw [shapeOf, shapeOf]
    cases hn : Primitive.ofName? name with
    | some primitive => exact .pure _
    | none =>
      rw [hn] at h
      exact h _ (List.mem_singleton_self _)
  | .imported origin next, _, h => shapeOf_relates next origin h
  | .pointer next, package, h => (shapeOf_relates next package h).map Shape.pointer
  | .ellipsis next, package, h => (shapeOf_relates next package h).map (Shape.array none)
  | .array length next, package, h =>
    (shapeOf_relates next package h).map (Shape.array (some length))
  | .slice next, package, h => by
    rw [GoType.names] at h
    rw [shapeOf, shapeOf]
    split
    · exact .pure _
    · rename_i hb
      rw [if_neg hb] at h
      exact (shapeOf_relates next package h).map (Shape.array none)
  | .map key value, package, h =>
    (shapeOf_relates key package fun q hq ↦ h q (List.mem_append_left _ hq)).bind fun key ↦
      (shapeOf_relates value package fun q hq ↦ h q (List.mem_append_right _ hq)).map
        (Shape.map key)
  | .interface [], _, _ => .pure _
  | .interface (_ :: _), _, _ => .pure _
  | .struct fields, package, h => (fieldsOf_relates fields package h).map Shape.record

theorem fieldsOf_relates : ∀ (fields : List Field) (package : String),
    (∀ q ∈ Field.names fields package, R.Relates (named q) (named' q)) →
    R.Relates (fieldsOf named fields package) (fieldsOf named' fields package)
  | [], _, _ => .pure _
  | ⟨_, type, _, _⟩ :: fields, package, h =>
    (shapeOf_relates type package fun q hq ↦ h q (List.mem_append_left _ hq)).bind fun _ ↦
      (fieldsOf_relates fields package fun q hq ↦ h q (List.mem_append_right _ hq)).map
        (List.cons _)

end

theorem bodyOf_relates {package : String} (d : Declaration)
    (h : ∀ q ∈ d.names package, R.Relates (named q) (named' q)) :
    R.Relates (bodyOf named package d) (bodyOf named' package d) := by
  cases d with
  | struct d => exact (fieldsOf_relates d.fields package h).map Shape.record
  | interface d => exact .pure _
  | «alias» d => exact (shapeOf_relates d.target package h).map Shape.alias

end

section

variable {enter enter' : QualifiedName → Nested → List String → Action Tables Nested}

mutual

/-- A type that is entered is one of the package in which the walk is, or its package is named. -/
theorem follow_relates : ∀ (type : GoType) (package : String) (path : List String),
    (∀ q here path, q.package ∈ package :: type.packages →
      R.Relates (enter q here path) (enter' q here path)) →
    R.Relates (follow enter type package path) (follow enter' type package path)
  | .imported _ _, _, [], _ | .pointer _, _, [], _ | .named _ _, _, [], _ | .struct _, _, [], _
  | .slice _, _, [], _ | .array _ _, _, [], _ | .map _ _, _, [], _ | .ellipsis _, _, [], _
  | .interface _, _, [], _ => .pure _
  | .slice _, _, _ :: _, _ | .array _ _, _, _ :: _, _ | .map _ _, _, _ :: _, _
  | .ellipsis _, _, _ :: _, _ | .interface _, _, _ :: _, _ => .pure _
  | .imported origin next, _, segment :: path, he =>
    follow_relates next origin (segment :: path) fun q here path hq ↦
      he q here path (List.mem_cons_of_mem _ hq)
  | .pointer next, package, segment :: path, he =>
    follow_relates next package (segment :: path) he
  | .named name (some origin), package, segment :: path, he =>
    he _ _ _ (List.mem_cons_of_mem _ (List.mem_singleton_self origin))
  | .named name none, package, segment :: path, he => by
    rw [follow, follow]
    · split
      · exact .pure _
      · exact he _ _ _ List.mem_cons_self
    · nofun
    · nofun
  | .struct fields, package, segment :: path, he =>
    followField_relates fields ⟨.struct fields, package⟩ segment path he

theorem followField_relates : ∀ (fields : List Field) (here : Nested) (segment : String)
    (path : List String), (∀ q place path, q.package ∈ here.package :: Field.packages fields →
      R.Relates (enter q place path) (enter' q place path)) →
    R.Relates (followField enter fields here segment path)
      (followField enter' fields here segment path)
  | [], _, _, _, _ => .pure _
  | ⟨name, type, _, _⟩ :: fields, here, segment, path, he => by
    have hsub : here.package :: type.packages ⊆
        here.package :: (type.packages ++ Field.packages fields) :=
      List.cons_subset_cons _ (List.subset_append_left _ _)
    have hsub' : here.package :: Field.packages fields ⊆
        here.package :: (type.packages ++ Field.packages fields) :=
      List.cons_subset_cons _ (List.subset_append_right _ _)
    rw [followField, followField]
    split
    · exact follow_relates type here.package path fun q place path hq ↦ he q place path (hsub hq)
    · exact followField_relates fields here segment path fun q place path hq ↦
        he q place path (hsub' hq)

end

end

end GoOpenApi.Tables
