import GoOpenApi.Go.SourceText
import Mathlib.Tactic.Common

/-!
What a parser leaves is an end of the tokens that it was given. Every parser is put together from
parts that read this way, so the instances below find it for a whole grammar.
-/

namespace GoOpenApi.Go

namespace Parser

variable {α β : Type} {p q : Parser α} {line : Bool} {ts rest : List Token} {a : α} {b : β}

/-! ### How something is read -/

theorem bind_eq_some {f : α → Parser β} (h : (p >>= f) line ts = some (b, rest)) :
    ∃ a ts', p line ts = some (a, ts') ∧ f a line ts' = some (b, rest) := by
  change Parser.bind p f line ts = _ at h
  unfold Parser.bind at h
  cases hp : p line ts with
  | none => simp [hp] at h
  | some r =>
    simp only [hp] at h
    exact ⟨r.1, r.2, rfl, h⟩

theorem orElse_eq_some (h : (p <|> q) line ts = some (a, rest)) :
    p line ts = some (a, rest) ∨ q line ts = some (a, rest) := by
  change Parser.orElse p (fun _ ↦ q) line ts = _ at h
  unfold Parser.orElse at h
  split at h
  · rename_i r hp
    exact .inl (hp.trans h)
  · exact .inr h

theorem accept_eq_some {f : Token → Option α} (h : accept f line ts = some (a, rest)) :
    ∃ t, ts = t :: rest ∧ f t = some a := by
  unfold accept at h
  split at h
  · rename_i t ts
    obtain ⟨a', ha, h⟩ := Option.map_eq_some_iff.mp h
    cases h
    exact ⟨t, rfl, ha⟩
  · cases h

theorem optional_eq_some {a? : Option α} (h : optional p line ts = some (a?, rest)) :
    a? = none ∧ rest = ts ∨ ∃ a, a? = some a ∧ p line ts = some (a, rest) := by
  have hnone (h : some (none, ts) = some (a?, rest)) : a? = none ∧ rest = ts := by
    cases h
    exact ⟨rfl, rfl⟩
  unfold optional at h
  split at h
  · split at h
    · exact .inl (hnone h)
    · split at h
      · rename_i a rest' hp
        cases h
        exact .inr ⟨a, rfl, hp⟩
      · exact .inl (hnone h)
  · exact .inl (hnone h)

/-! ### What is left -/

class Consumes {α : Type} (p : Parser α) : Prop where
  leaves : ∀ line ts a rest, p line ts = some (a, rest) → rest <:+ ts

instance (a : α) : Consumes (Pure.pure a : Parser α) := by
  constructor
  intro line ts a rest h
  cases h
  exact List.suffix_rfl

instance : Consumes (fail : Parser α) := ⟨nofun⟩

instance {f : α → Parser β} [Consumes p] [∀ a, Consumes (f a)] : Consumes (p >>= f) := by
  constructor
  intro line ts b rest h
  obtain ⟨a, ts', hp, hf⟩ := bind_eq_some h
  exact (Consumes.leaves _ _ _ _ hf).trans (Consumes.leaves _ _ _ _ hp)

/-- For what the instances do not see through. -/
theorem Consumes.bind {f : α → Parser β} [Consumes p] (hf : ∀ a, Consumes (f a)) :
    Consumes (p >>= f) := inferInstance

instance [Consumes p] [Consumes q] : Consumes (p <|> q) := by
  constructor
  intro line ts a rest h
  rcases orElse_eq_some h with h | h
  · exact Consumes.leaves _ _ _ _ h
  · exact Consumes.leaves _ _ _ _ h

instance (c : Prop) [Decidable c] [Consumes p] [Consumes q] :
    Consumes (if c then p else q) := by
  split <;> infer_instance

instance (line : Bool) [h : Consumes p] : Consumes (within line p) :=
  ⟨fun _ ↦ h.leaves line⟩

instance : Consumes peek := by
  constructor
  intro line ts t rest h
  unfold peek at h
  split at h
  · cases h
    exact List.suffix_rfl
  · cases h

instance (f : Token → Option α) : Consumes (accept f) := by
  constructor
  intro line ts a rest h
  obtain ⟨t, rfl, -⟩ := accept_eq_some h
  exact List.suffix_cons t rest

instance (l : Lexeme) : Consumes (lexeme l) := inferInstanceAs (Consumes (accept _))

instance (s : String) : Consumes (symbol s) := by unfold symbol; infer_instance

instance (s : String) : Consumes (keyword s) := by unfold keyword; infer_instance

instance : Consumes anyWord := inferInstanceAs (Consumes (accept _))

instance : Consumes identifier := inferInstanceAs (Consumes (accept _))

instance : Consumes stringLiteral := inferInstanceAs (Consumes (accept _))

instance (options : List String) : Consumes (anySymbol options) :=
  inferInstanceAs (Consumes (accept _))

instance [Consumes p] : Consumes (optional p) := by
  constructor
  intro line ts a? rest h
  obtain ⟨-, rfl⟩ | ⟨a, rfl, hp⟩ := optional_eq_some h
  · exact List.suffix_rfl
  · exact Consumes.leaves _ _ _ _ hp

theorem Consumes.fueled {f : List Token → Parser α} (h : ∀ fuel, Consumes (f fuel)) :
    Consumes fun line ts ↦ f ts line ts := ⟨fun _ ts ↦ (h ts).leaves _ ts⟩

instance [Consumes p] (fuel : List Token) : Consumes (manyWithin p fuel) := by
  induction fuel with
  | nil => exact inferInstanceAs (Consumes (Pure.pure _))
  | cons t fuel ih => exact Consumes.bind fun a? ↦ by split <;> infer_instance

instance [Consumes p] : Consumes (many p) := .fueled (f := manyWithin p) fun _ ↦ inferInstance

instance [Consumes p] : Consumes (commaList p) := by unfold commaList; infer_instance

instance [Consumes p] : Consumes (commaListEnded p) := by unfold commaListEnded; infer_instance

instance (opening closing : String) [Consumes p] : Consumes (between opening closing p) := by
  unfold between; infer_instance

instance (opening closing : String) {p : Parser (List α)} [Consumes p] :
    Consumes (betweenOrNone opening closing p) := by unfold betweenOrNone; infer_instance

instance [Consumes p] : Consumes (looseList p) := by unfold looseList; infer_instance

instance (symbols : List String) : Consumes (before symbols) :=
  Consumes.bind fun t ↦ by split <;> infer_instance

instance [Consumes p] : Consumes (spanned p) := by
  constructor
  intro line ts taken rest h
  unfold spanned at h
  split at h
  · rename_i a rest' hp
    cases h
    exact Consumes.leaves _ _ _ _ hp
  · cases h

instance : Consumes terminator := by
  constructor
  intro line ts comments rest h
  unfold terminator at h
  split at h
  · split at h
    · cases h
      exact List.suffix_cons _ _
    · split at h
      · cases h
        exact List.suffix_rfl
      · cases h
  · cases h

instance [Consumes p] : Consumes (sibling p) := by unfold sibling; infer_instance

instance (closing : String) (ended : Bool) [Consumes p] (fuel : List Token) :
    Consumes (membersWithin closing ended p fuel) := by
  induction fuel with
  | nil => exact inferInstanceAs (Consumes fail)
  | cons t fuel ih => unfold membersWithin; infer_instance

instance (line : Bool) (closing : String) (ended : Bool) [Consumes p] :
    Consumes (within line fun line ts ↦ membersWithin closing ended p ts line ts) :=
  ⟨fun _ ↦ (Consumes.fueled (f := membersWithin closing ended p) inferInstance).leaves line⟩

instance (opening closing : String) (ended : Bool) [Consumes p] :
    Consumes (members opening closing ended p) := by unfold members; infer_instance

end Parser

open GoOpenApi.Go.Parser

/-- The parsers for what nests inside a construct read this way. -/
class Level.Consuming (g : Level) : Prop where
  type : Consumes g.type
  expression (literals : Bool) : Consumes (g.expression literals)
  literal : Consumes g.literal
  statement (inCase : Bool) : Consumes (g.statement inCase)
  block : Consumes g.block

attribute [instance] Level.Consuming.type Level.Consuming.expression Level.Consuming.literal
  Level.Consuming.statement Level.Consuming.block

instance : Consumes importName := by unfold importName; infer_instance

instance : Consumes importSpec := by unfold importSpec; infer_instance

instance : Consumes importDeclaration := by unfold importDeclaration; infer_instance

namespace Level

-- The longest rules ask for more instances than are tried by default.
set_option synthInstance.maxSize 1000

instance : Consumes tag := by unfold tag; infer_instance

instance (word : String) {spec : Parser Unit} [Consumes spec] :
    Consumes (declarationOf word spec) := by unfold declarationOf; infer_instance

instance (inCase : Bool) : Consumes (statementsEnd inCase) :=
  Consumes.bind fun t ↦ by split <;> infer_instance

variable (g : Level) [g.Consuming]

instance : Consumes g.unionMember := by unfold unionMember; infer_instance

instance : Consumes g.union := by unfold union; infer_instance

instance : Consumes g.typeArguments := by unfold typeArguments; infer_instance

instance (word : String) : Consumes (g.namedType word) :=
  Consumes.bind fun name? ↦ Consumes.bind fun _ ↦ by split <;> infer_instance

instance : Consumes g.parameterGroup := by unfold parameterGroup; infer_instance

instance : Consumes g.parameters := by unfold parameters; infer_instance

instance : Consumes g.results := by unfold results; infer_instance

instance : Consumes g.signature := by unfold signature; infer_instance

instance : Consumes g.method :=
  Consumes.bind fun name ↦ Consumes.bind fun s? ↦ by split <;> infer_instance

instance : Consumes g.interfaceElement := by unfold interfaceElement; infer_instance

instance : Consumes g.interfaceBody := by unfold interfaceBody; infer_instance

instance : Consumes g.embeddedField := by unfold embeddedField; infer_instance

instance : Consumes g.namedFields := by unfold namedFields; infer_instance

instance : Consumes g.structBody := by unfold structBody; infer_instance

instance : Consumes g.parenthesizedType := by unfold parenthesizedType; infer_instance

instance : Consumes g.arrayType := by unfold arrayType; infer_instance

instance : Consumes g.mapType := by unfold mapType; infer_instance

instance : Consumes g.channelType := by unfold channelType; infer_instance

instance : Consumes g.functionType := by unfold functionType; infer_instance

instance : Consumes g.typeOf := Consumes.bind fun t ↦ by split <;> infer_instance

instance : Consumes g.expressionOrType := by unfold expressionOrType; infer_instance

instance : Consumes g.argument := by unfold argument; infer_instance

instance : Consumes g.arguments := by unfold arguments; infer_instance

instance : Consumes g.typeAndArguments := by unfold typeAndArguments; infer_instance

instance : Consumes g.otherBounds := by unfold otherBounds; infer_instance

instance : Consumes g.otherArguments := by unfold otherArguments; infer_instance

instance : Consumes g.index := by unfold index; infer_instance

instance : Consumes g.element := by unfold element; infer_instance

instance : Consumes g.keyedElement := by unfold keyedElement; infer_instance

instance : Consumes g.literalOf := by unfold literalOf; infer_instance

instance : Consumes g.typeOperand := by unfold typeOperand; infer_instance

instance : Consumes g.functionLiteral := by unfold functionLiteral; infer_instance

instance : Consumes g.operand := Consumes.bind fun t ↦ by split <;> infer_instance

instance (literals mayBeType : Bool) : Consumes (g.postfixStep literals mayBeType) :=
  Consumes.bind fun t ↦ by split <;> infer_instance

instance (literals : Bool) (fuel : List Token) (mayBeType : Bool) :
    Consumes (g.postfixSteps literals fuel mayBeType) := by
  induction fuel generalizing mayBeType with
  | nil => exact inferInstanceAs (Consumes (Pure.pure _))
  | cons t fuel ih => exact Consumes.bind fun mayBeType? ↦ by split <;> infer_instance

instance (literals : Bool) : Consumes (g.unary literals) :=
  Consumes.bind fun _ ↦ Consumes.bind fun mayBeType ↦
    .fueled (f := fun fuel ↦ g.postfixSteps literals fuel mayBeType) inferInstance

instance (literals : Bool) : Consumes (g.expressionOf literals) := by
  unfold expressionOf; infer_instance

instance : Consumes g.typeParameter := by unfold typeParameter; infer_instance

instance : Consumes g.typeParameters := by unfold typeParameters; infer_instance

instance : Consumes g.typeBody := Consumes.bind fun t ↦ by split <;> infer_instance

instance : Consumes g.aliasBody := by unfold aliasBody; infer_instance

instance : Consumes g.typeSpec := by unfold typeSpec; infer_instance

instance : Consumes g.typeDeclaration := by unfold typeDeclaration; infer_instance

instance : Consumes g.expressions := by unfold expressions; infer_instance

instance : Consumes g.assigned := by unfold assigned; infer_instance

instance : Consumes g.variableSpec := by unfold variableSpec; infer_instance

instance : Consumes g.constantSpec := by unfold constantSpec; infer_instance

instance (literals : Bool) : Consumes (g.simpleStatement literals) := by
  unfold simpleStatement; infer_instance

instance : Consumes g.conditional := by
  have hf (t : Token) : Consumes (match t.lexeme with
      | .word "if" => g.statement false
      | _ => g.block) := by split <;> infer_instance
  unfold conditional
  infer_instance

instance : Consumes g.rangeHead := by unfold rangeHead; infer_instance

instance : Consumes g.clauseHead := by unfold clauseHead; infer_instance

instance : Consumes g.loop := by unfold loop; infer_instance

instance (inCase : Bool) (fuel : List Token) : Consumes (g.statementsWithin inCase fuel) := by
  induction fuel with
  | nil => exact inferInstanceAs (Consumes fail)
  | cons t fuel ih => unfold statementsWithin; infer_instance

instance (inCase : Bool) : Consumes (g.statements inCase) :=
  ⟨fun _ ↦ (Consumes.fueled (f := g.statementsWithin inCase) inferInstance).leaves true⟩

instance : Consumes g.blockOf := by unfold blockOf; infer_instance

instance : Consumes g.defaultClause := by unfold defaultClause; infer_instance

instance : Consumes g.caseClause := by unfold caseClause; infer_instance

instance : Consumes g.communicationClause := by unfold communicationClause; infer_instance

instance : Consumes g.switch := by unfold switch; infer_instance

instance : Consumes g.select := by unfold select; infer_instance

instance (inCase : Bool) : Consumes (g.labeled inCase) := by unfold labeled; infer_instance

instance (inCase : Bool) : Consumes (g.otherStatement inCase) := by
  unfold otherStatement; infer_instance

instance (inCase : Bool) : Consumes (g.statementOf inCase) :=
  Consumes.bind fun t ↦ by split <;> infer_instance

instance : Consumes g.functionDeclaration := by unfold functionDeclaration; infer_instance

instance : Consumes g.topLevel := Consumes.bind fun t ↦ by split <;> infer_instance

instance (fuel : List Token) : Consumes (g.topLevelsWithin fuel) := by
  induction fuel with
  | nil => exact inferInstanceAs (Consumes fail)
  | cons t fuel ih => unfold topLevelsWithin; infer_instance

end Level

/-- All levels of the grammar read this way. -/
instance (n : Nat) : (level n).Consuming := by
  induction n with
  | zero => exact ⟨inferInstanceAs (Consumes fail), fun _ ↦ inferInstanceAs (Consumes fail),
      inferInstanceAs (Consumes fail), fun _ ↦ inferInstanceAs (Consumes fail),
      inferInstanceAs (Consumes fail)⟩
  | succ n ih =>
    exact ⟨inferInstanceAs (Consumes (level n).typeOf),
      fun literals ↦ inferInstanceAs (Consumes ((level n).expressionOf literals)),
      inferInstanceAs (Consumes (level n).literalOf),
      fun inCase ↦ inferInstanceAs (Consumes ((level n).statementOf inCase)),
      inferInstanceAs (Consumes (level n).blockOf)⟩

end GoOpenApi.Go
