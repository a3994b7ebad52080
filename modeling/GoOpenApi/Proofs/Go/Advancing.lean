import GoOpenApi.Proofs.Go.Consuming

/-!
Parsers that take at least one token whenever they read something, such as those for the members of
a list. A comment before a token is so before one member only.
-/

namespace GoOpenApi.Go

namespace Parser

class Advances {α : Type} (p : Parser α) : Prop extends Consumes p where
  ne : ∀ line ts a rest, p line ts = some (a, rest) → rest ≠ ts

variable {α β : Type} {p q : Parser α}

theorem Advances.exists_used [Advances p] {line : Bool} {ts rest : List Token} {a : α}
    (h : p line ts = some (a, rest)) : ∃ t used, ts = t :: used ++ rest := by
  obtain ⟨used, rfl⟩ := Consumes.leaves _ _ _ _ h
  cases used with
  | nil => exact absurd rfl (Advances.ne _ _ _ _ h)
  | cons t used => exact ⟨t, used, rfl⟩

instance : Advances (fail : Parser α) := { ne := nofun }

/-- The first part takes a token. -/
instance {f : α → Parser β} [Advances p] [∀ a, Consumes (f a)] : Advances (p >>= f) := by
  refine { ne := fun line ts b rest h ↦ ?_ }
  obtain ⟨a, ts', hp, hf⟩ := bind_eq_some h
  obtain ⟨t, used, rfl⟩ := Advances.exists_used hp
  have hl := (Consumes.leaves _ _ _ _ hf).length_le
  rintro rfl
  simp only [List.length_cons, List.length_append] at hl
  omega

/-- For what the instances do not see through. -/
theorem Advances.bind {f : α → Parser β} [Advances p] (hf : ∀ a, Consumes (f a)) :
    Advances (p >>= f) := inferInstance

/-- The second part takes a token. -/
theorem Advances.bind_right {f : α → Parser β} [Consumes p] (hf : ∀ a, Advances (f a)) :
    Advances (p >>= f) := by
  refine { Consumes.bind fun a ↦ (hf a).toConsumes with ne := fun line ts b rest h ↦ ?_ }
  obtain ⟨a, ts', hp, h⟩ := bind_eq_some h
  obtain ⟨t, used, rfl⟩ := (hf a).exists_used h
  have hl := (Consumes.leaves _ _ _ _ hp).length_le
  rintro rfl
  simp only [List.length_cons, List.length_append] at hl
  omega

instance [Advances p] [Advances q] : Advances (p <|> q) := by
  refine { ne := fun line ts a rest h ↦ ?_ }
  rcases orElse_eq_some h with h | h
  · exact Advances.ne _ _ _ _ h
  · exact Advances.ne _ _ _ _ h

instance (c : Prop) [Decidable c] [Advances p] [Advances q] :
    Advances (if c then p else q) := by
  split <;> infer_instance

instance (line : Bool) [Advances p] : Advances (within line p) :=
  { ne := fun _ ts a rest h ↦ Advances.ne (p := p) line ts a rest h }

instance (f : Token → Option α) : Advances (accept f) := by
  refine { ne := fun line ts a rest h ↦ ?_ }
  obtain ⟨t, rfl, -⟩ := accept_eq_some h
  exact (List.cons_ne_self t rest).symm

instance (l : Lexeme) : Advances (lexeme l) := inferInstanceAs (Advances (accept _))

instance (s : String) : Advances (symbol s) := by unfold symbol; infer_instance

instance (s : String) : Advances (keyword s) := by unfold keyword; infer_instance

instance : Advances anyWord := inferInstanceAs (Advances (accept _))

instance : Advances identifier := inferInstanceAs (Advances (accept _))

instance [Advances p] : Advances (commaList p) := by unfold commaList; infer_instance

instance (opening closing : String) [Consumes p] : Advances (between opening closing p) := by
  unfold between; infer_instance

end Parser

open GoOpenApi.Go.Parser

/-- Types and expressions take a token. -/
class Level.Advancing (g : Level) : Prop extends g.Consuming where
  type_advances : Advances g.type
  expression_advances (literals : Bool) : Advances (g.expression literals)

attribute [instance] Level.Advancing.type_advances Level.Advancing.expression_advances

instance : Advances importDeclaration := by unfold importDeclaration; infer_instance

namespace Level

set_option synthInstance.maxSize 1000

instance (word : String) {spec : Parser Unit} [Consumes spec] :
    Advances (declarationOf word spec) := by unfold declarationOf; infer_instance

variable (g : Level)

section

variable [g.Consuming]

instance : Advances g.method :=
  .bind fun name ↦ Consumes.bind fun s? ↦ by split <;> infer_instance

instance : Advances g.embeddedField := .bind_right fun _ ↦ by infer_instance

instance : Advances g.namedFields := by unfold namedFields; infer_instance

instance : Advances g.channelType := by unfold channelType; infer_instance

instance : Advances g.mapType := by unfold mapType; infer_instance

instance : Advances g.functionType := by unfold functionType; infer_instance

instance : Advances g.parenthesizedType := by unfold parenthesizedType; infer_instance

instance : Advances g.arrayType := by unfold arrayType; infer_instance

instance : Advances g.typeOf := .bind_right fun t ↦ by split <;> infer_instance

instance : Advances g.typeSpec := by unfold typeSpec; infer_instance

instance : Advances g.typeDeclaration := by unfold typeDeclaration; infer_instance

instance : Advances g.typeOperand := by unfold typeOperand; infer_instance

instance : Advances g.functionLiteral := by unfold functionLiteral; infer_instance

instance : Advances g.operand := .bind_right fun t ↦ by split <;> infer_instance

instance (literals : Bool) : Advances (g.unary literals) :=
  .bind_right fun _ ↦ .bind fun mayBeType ↦
    .fueled (f := fun fuel ↦ g.postfixSteps literals fuel mayBeType) inferInstance

instance (literals : Bool) : Advances (g.expressionOf literals) := by
  unfold expressionOf; infer_instance

instance : Advances g.conditional := by
  have hf (t : Token) : Consumes (match t.lexeme with
      | .word "if" => g.statement false
      | _ => g.block) := by split <;> infer_instance
  unfold conditional
  infer_instance

instance : Advances g.loop := by unfold loop; infer_instance

instance : Advances g.blockOf := by unfold blockOf; infer_instance

instance : Advances g.switch := by unfold switch; infer_instance

instance : Advances g.select := by unfold select; infer_instance

instance (inCase : Bool) : Advances (g.labeled inCase) := by unfold labeled; infer_instance

instance : Advances g.functionDeclaration := by unfold functionDeclaration; infer_instance

end

variable [g.Advancing]

instance : Advances g.union := by unfold union; infer_instance

instance : Advances g.interfaceElement := by unfold interfaceElement; infer_instance

instance (literals : Bool) : Advances (g.simpleStatement literals) := by
  unfold simpleStatement; infer_instance

instance (inCase : Bool) : Advances (g.otherStatement inCase) := by
  unfold otherStatement; infer_instance

instance (inCase : Bool) : Advances (g.statementOf inCase) :=
  .bind_right fun t ↦ by split <;> infer_instance

instance : Advances g.topLevel := .bind_right fun t ↦ by split <;> infer_instance

end Level

/-- At all levels of the grammar types and expressions take a token. -/
instance (n : Nat) : (level n).Advancing := by
  cases n with
  | zero => exact ⟨inferInstanceAs (Advances fail), fun _ ↦ inferInstanceAs (Advances fail)⟩
  | succ n =>
    exact ⟨inferInstanceAs (Advances (level n).typeOf),
      fun literals ↦ inferInstanceAs (Advances ((level n).expressionOf literals))⟩

end GoOpenApi.Go
