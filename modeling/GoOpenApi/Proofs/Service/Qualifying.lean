import GoOpenApi.Proofs.Resolve.Names
import GoOpenApi.Proofs.Resolve.Termination
import GoOpenApi.Service.Load
import Mathlib.Data.List.Forall2

/-!
Moving a type to another package. A qualified type means in any package what the type meant in its
own, unless one of its names becomes that of a library type with a known shape.
-/

namespace GoOpenApi

mutual

/-- The names that are written without a package and become names of one when the type is
qualified. -/
def GoType.unqualified : GoType → List String
  | .named name none => [name]
  | .named _ (some _) | .imported _ _ | .interface _ => []
  | .pointer next | .slice next | .ellipsis next | .array _ next => next.unqualified
  | .map key value => key.unqualified ++ value.unqualified
  | .struct fields => Field.unqualified fields

def Field.unqualified : List Field → List String
  | [] => []
  | ⟨_, type, _, _⟩ :: fields => type.unqualified ++ Field.unqualified fields

end

theorem GoType.isByte_qualify (home : String) (type : GoType) :
    (type.qualify home).isByte = type.isByte := by
  cases type with
  | named name origin =>
    cases origin with
    | some origin => rfl
    | none =>
      rw [qualify]
      split
      · rfl
      -- the names of the byte are predeclared
      · rename_i hp
        have hb : name ≠ "byte" ∧ name ≠ "uint8" := by
          constructor <;> rintro rfl <;> exact hp (by decide)
        simp [isByte, qualified, hb]
  | _ => rfl

mutual

theorem GoType.weight_le_qualify (home : String) : ∀ type : GoType,
    type.weight ≤ (type.qualify home).weight
  | .named name none => by
    rw [GoType.qualify]
    split <;> simp [GoType.weight, GoType.qualified]
  | .named _ (some _) | .imported _ _ | .interface _ => Nat.le_refl _
  | .pointer next | .slice next | .ellipsis next | .array _ next =>
    Nat.succ_le_succ (next.weight_le_qualify home)
  | .map key value => Nat.succ_le_succ
    (Nat.add_le_add (key.weight_le_qualify home) (value.weight_le_qualify home))
  | .struct fields => Nat.succ_le_succ (Field.weights_le_qualifyAll home fields)

theorem Field.weights_le_qualifyAll (home : String) : ∀ fields : List Field,
    Field.weights fields ≤ Field.weights (Field.qualifyAll home fields)
  | [] => Nat.le_refl _
  | ⟨_, type, _, _⟩ :: fields =>
    Nat.add_le_add (type.weight_le_qualify home) (Field.weights_le_qualifyAll home fields)

end

namespace Tables

section

variable (named : QualifiedName → Action Tables Shape) {home : String} (package : String)

mutual

/-- The same declared types are asked for in the same order. -/
theorem shapeOf_qualify : ∀ type : GoType,
    (∀ name ∈ type.unqualified, Primitive.wellKnown? home name = none) →
    shapeOf named (type.qualify home) package = shapeOf named type home
  | .named name none, h => by
    rw [GoType.qualify]
    have hw := h name (List.mem_singleton_self name)
    cases hn : Primitive.ofName? name with
    | some primitive => simp [isPredeclared, hn, shapeOf]
    | none => simp [isPredeclared, hn, GoType.qualified, shapeOf, hw]
  | .named name (some origin), _ => by rw [GoType.qualify, shapeOf, shapeOf]
  | .imported origin next, _ => by rw [GoType.qualify, shapeOf, shapeOf]
  | .pointer next, h => by rw [GoType.qualify, shapeOf, shapeOf, shapeOf_qualify next h]
  | .slice next, h => by
    rw [GoType.qualify, shapeOf, shapeOf, next.isByte_qualify, shapeOf_qualify next h]
  | .ellipsis next, h => by rw [GoType.qualify, shapeOf, shapeOf, shapeOf_qualify next h]
  | .array length next, h => by rw [GoType.qualify, shapeOf, shapeOf, shapeOf_qualify next h]
  | .map key value, h => by
    rw [GoType.qualify, shapeOf, shapeOf,
      shapeOf_qualify key fun name hn ↦ h name (List.mem_append_left _ hn),
      shapeOf_qualify value fun name hn ↦ h name (List.mem_append_right _ hn)]
  | .interface [], _ | .interface (_ :: _), _ => rfl
  | .struct fields, h => by rw [GoType.qualify, shapeOf, shapeOf, fieldsOf_qualifyAll fields h]

theorem fieldsOf_qualifyAll : ∀ fields : List Field,
    (∀ name ∈ Field.unqualified fields, Primitive.wellKnown? home name = none) →
    fieldsOf named (Field.qualifyAll home fields) package = fieldsOf named fields home
  | [], _ => rfl
  | ⟨name, type, tags, embedded⟩ :: fields, h => by
    rw [Field.qualifyAll, fieldsOf, fieldsOf,
      shapeOf_qualify type fun name hn ↦ h name (List.mem_append_left _ hn),
      fieldsOf_qualifyAll fields fun name hn ↦ h name (List.mem_append_right _ hn)]
    rfl

end

end

variable {p : Project} {home package : String}

theorem resolve_qualify_eq {type : GoType}
    (h : ∀ name ∈ type.unqualified, Primitive.wellKnown? home name = none) (t : Tables) :
    resolve p (type.qualify home) package t = resolve p type home t := by
  have hw : (home :: type.packages).length ≤ (type.qualify home).weight + 1 :=
    Nat.succ_le_succ (type.length_packages_le.trans (type.weight_le_qualify home))
  rw [resolve_eq, shapeOf_qualify _ package type h, shapeOf_eq_resolve (lt_budget_reachable p t hw)]

theorem forall₂_qualifyAll {fields : List Field}
    (h : ∀ name ∈ Field.unqualified fields, Primitive.wellKnown? home name = none) :
    List.Forall₂ (fun f f' ↦ ∀ t, resolve p f'.type package t = resolve p f.type home t) fields
      (Field.qualifyAll home fields) := by
  induction fields with
  | nil => exact .nil
  | cons first fields ih =>
    obtain ⟨name, type, tags, embedded⟩ := first
    refine .cons (fun t ↦ ?_) (ih fun name hn ↦ h name (List.mem_append_right _ hn))
    exact resolve_qualify_eq (fun name hn ↦ h name (List.mem_append_left _ hn)) t

/-- A qualified type is resolved in any package as the type is in its own, with the same answer or
fault and the same tables. So is each type in the signature of a method that is moved to another
package. -/
theorem resolve_qualified (p : Project) (home package : String) :
    (∀ type : GoType, (∀ name ∈ type.unqualified, Primitive.wellKnown? home name = none) →
      ∀ t, resolve p (type.qualify home) package t = resolve p type home t) ∧
    ∀ m : Method, (∀ name ∈ Field.unqualified m.args ++ Field.unqualified m.results,
        Primitive.wellKnown? home name = none) →
      List.Forall₂ (fun f f' ↦ ∀ t, resolve p f'.type package t = resolve p f.type home t)
        (m.args ++ m.results) ((m.qualify home).args ++ (m.qualify home).results) := by
  refine ⟨fun type h ↦ resolve_qualify_eq h, fun m h ↦ ?_⟩
  exact List.rel_append (forall₂_qualifyAll fun name hn ↦ h name (List.mem_append_left _ hn))
    (forall₂_qualifyAll fun name hn ↦ h name (List.mem_append_right _ hn))

/-- A package with an item. -/
def items : Project :=
  let source := "package base\n\ntype Item struct \x7b\n\tNext *Item\n\x7d\n"
  let files := [(⟨"go.mod"⟩, .file (.text "module m\n")), (⟨"base/base.go"⟩, .file (.text source))]
  .of (.ofNodes ["tmp", "w"] files) (.ofGoMod {} ⟨"/tmp/w"⟩ (.parse "module m\n"))

def itemsByName : GoType := .map (.plain "string") (.slice (.plain "Item"))

def putItems : Method :=
  ⟨"Put", [], [.ofType "items" itemsByName], [.ofType "ret0" (.plain "error")]⟩

theorem putItems_resolved_elsewhere :
    (∃ shape t, resolve items (itemsByName.qualify "m/base") "m/app" .empty = (.ok shape, t) ∧
      shape.names = [⟨"m/base", "Item"⟩]) ∧
    List.Forall₂ (fun f f' ↦ ∀ t, resolve items f'.type "m/app" t = resolve items f.type "m/base" t)
      (putItems.args ++ putItems.results)
      ((putItems.qualify "m/base").args ++ (putItems.qualify "m/base").results) := by
  obtain ⟨shape, t, hr, hn⟩ := ok_of_map (a := resolve items itemsByName "m/base") (t := .empty)
    (f := Shape.names) (y := [⟨"m/base", "Item"⟩]) (by decide +kernel)
  obtain ⟨htype, hmethod⟩ := resolve_qualified items "m/base" "m/app"
  have he := htype itemsByName (by decide +kernel) .empty
  exact ⟨⟨shape, t, he.trans hr, hn⟩, hmethod putItems (by decide +kernel)⟩

end Tables

end GoOpenApi
