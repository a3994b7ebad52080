import GoOpenApi.Proofs.Go.Reads
import GoOpenApi.Proofs.Go.Words

/-!
Usual types are read from their words.
-/

namespace GoOpenApi.Go

open GoOpenApi.Go.Parser

/-- Where a type ends: at the end of a line that counts, or before what goes on with no type. -/
def typeEnd (line : Bool) : Follow := fun l newline ↦
  (line && newline) = true ∨ l ≠ .symbol "." ∧ l ≠ .symbol "["

/-- What stands after a parameter. -/
def parameterEnd : Follow := fun l _ ↦ l = .symbol "," ∨ l = .symbol ")"

theorem typeEnd_of_symbol {line newline : Bool} {s : String} (h : s ∉ [".", "["]) :
    typeEnd line (.symbol s) newline :=
  .inr (by simpa using h)

theorem typeEnd_of_parameterEnd {l : Lexeme} {newline : Bool} (h : parameterEnd l newline) :
    typeEnd false l newline := by
  rcases h with rfl | rfl
  · exact typeEnd_of_symbol (by decide)
  · exact typeEnd_of_symbol (by decide)

namespace Level

variable {g : Level} {line : Bool} {gap gap' : Gap} {ws vs : List Word} {a b : GoType}
  {P Q : Follow} {s name : String}

/-! ### Names -/

theorem fails_typeArguments (h : Follow.Met (fun l _ ↦ l ≠ .symbol "[") ws P) :
    Fails g.typeArguments line ws P :=
  (fails_symbol h).bind.bind

theorem reads_namedType_plain : Reads (g.namedType s) line [] (.plain s) (typeEnd line) := by
  have hpoint : Fails (do symbol "."; anyWord) line [] fun l _ ↦ l ≠ .symbol "." :=
    Fails.bind (fails_symbol (.nil fun _ _ h ↦ h))
  have hname : Reads (optional do symbol "."; anyWord) line [] none (typeEnd line) :=
    .optional_none hpoint fun _ _ h ↦ h.imp_right (·.1)
  have harguments : Reads (optional g.typeArguments) line [] none (typeEnd line) :=
    .optional_none (fails_typeArguments (P := fun l _ ↦ l ≠ .symbol "[") fun _ _ h ↦ h)
      fun _ _ h ↦ h.imp_right (·.2)
  exact hname.bind_nil harguments.bind_pure

theorem reads_namedType_qualified :
    Reads (g.namedType s) line [⟨.nothing, .symbol "."⟩, ⟨.nothing, .word name⟩]
      (.qualified s name) (typeEnd line) := by
  have hname : Reads (do symbol "."; anyWord) line
      [⟨.nothing, .symbol "."⟩, ⟨.nothing, .word name⟩] name (typeEnd line) :=
    (reads_symbol rfl).bind (reads_anyWord rfl) .any
  have harguments : Reads (optional g.typeArguments) line [] none (typeEnd line) :=
    .optional_none (fails_typeArguments (P := fun l _ ↦ l ≠ .symbol "[") fun _ _ h ↦ h)
      fun _ _ h ↦ h.imp_right (·.2)
  exact (hname.optional_some nofun).bind_nil harguments.bind_pure

/-- A word that begins no other type is a name. -/
theorem reads_typeOf_word (hs : s ∉ typeKeywords) (h : Reads (g.namedType s) line ws a P) :
    Reads g.typeOf line (⟨gap, .word s⟩ :: ws) a P := by
  refine Reads.peek_bind fun t ht ↦ ?_
  rw [ht]
  have hword : Reads (do g.namedType (← anyWord)) line (⟨gap, .word s⟩ :: ws) a P :=
    (reads_anyWord rfl).bind h .any
  dsimp only
  split
  case h_11 => exact hword
  case h_12 he => exact absurd rfl (he s)
  all_goals
    rename_i he
    cases he
    try exact absurd (by decide) hs

theorem reads_typeOf_pointer (h : Reads g.type line ws a P) :
    Reads g.typeOf line (⟨gap, .symbol "*"⟩ :: ws) (.pointer a) P := by
  refine Reads.peek_bind fun t ht ↦ ?_
  rw [ht]
  exact (reads_symbol rfl).bind h.bind_pure .any

/-- A token that begins no type. -/
def BeginsNoType (l : Lexeme) : Prop :=
  (∃ s, l = .number s) ∨ ∃ s, l = .symbol s ∧ s ∉ ["*", "(", "[", "~", "<-"]

theorem fails_typeOf (h : Follow.Met (fun l _ ↦ BeginsNoType l) ws P) :
    Fails g.typeOf line ws P := by
  refine Fails.peek_bind h fun t ht ↦ ?_
  rcases ht with ⟨s, hl⟩ | ⟨s, hl, hs⟩
  · rw [hl]
    exact fails_fail
  · rw [hl]
    split
    case h_12 => exact fails_fail
    all_goals
      rename_i he
      cases he
      try exact absurd (by decide) hs

theorem fails_type (n : Nat) (h : Follow.Met (fun l _ ↦ BeginsNoType l) ws P) :
    Fails (level n).type line ws P := by
  cases n with
  | zero => exact fun _ _ _ _ _ ↦ rfl
  | succ n => exact fails_typeOf (g := level n) h

/-! ### Composed types -/

theorem reads_typeOf_slice (h : Reads g.type line ws a P) :
    Reads g.typeOf line (⟨gap, .symbol "["⟩ :: ⟨gap', .symbol "]"⟩ :: ws) (.slice a) P := by
  refine Reads.peek_bind fun t ht ↦ ?_
  rw [ht]
  have hslice : Reads (do symbol "["; symbol "]"; return GoType.slice (← g.type)) line
      (⟨gap, .symbol "["⟩ :: ⟨gap', .symbol "]"⟩ :: ws) (.slice a) P :=
    (reads_symbol rfl).bind ((reads_symbol rfl).bind h.bind_pure .any) .any
  exact hslice.orElse_left

theorem reads_typeOf_map (hk : Reads g.type false ws a P) (hP : P (.symbol "]") false)
    (hv : Reads g.type line vs b Q) :
    Reads g.typeOf line (⟨gap, .word "map"⟩ :: ⟨.nothing, .symbol "["⟩ ::
      (ws ++ ⟨.nothing, .symbol "]"⟩ :: vs)) (.map a b) Q := by
  refine Reads.peek_bind fun t ht ↦ ?_
  rw [ht]
  have hkey : Reads (between "[" "]" g.type) line
      (⟨.nothing, .symbol "["⟩ :: (ws ++ [⟨.nothing, .symbol "]"⟩])) a .any :=
    hk.between rfl rfl hP
  have hmap : Reads g.mapType line (⟨gap, .word "map"⟩ ::
      ((⟨.nothing, .symbol "["⟩ :: (ws ++ [⟨.nothing, .symbol "]"⟩])) ++ vs)) (.map a b) Q :=
    (reads_keyword rfl).bind (hkey.bind hv.bind_pure .any) .any
  simpa using hmap

/-! ### Lengths -/

theorem lengthOfList?_toDigits {n : Nat} (h : n < Nat.pow 2 64) :
    lengthOfList? (Nat.toDigits 10 n) = some n := by
  have hne {c d : Char} (hc : c ∈ Nat.toDigits 10 n) (hd : d.isDigit = false) : c ≠ d :=
    Lexer.ne_of_isDigit (Text.isDigit_of_mem_toDigits hc) hd
  have hfilter : (Nat.toDigits 10 n).filter (· != '_') = Nat.toDigits 10 n :=
    List.filter_eq_self.mpr fun c hc ↦ bne_iff_ne.mpr (hne hc (by decide))
  rw [lengthOfList?, hfilter]
  split
  case h_1 he => exact absurd rfl (hne (c := 'x') (by simp [he]) (by decide))
  case h_2 he => exact absurd rfl (hne (c := 'X') (by simp [he]) (by decide))
  case h_3 => exact Text.unsigned?_toDigits h

theorem lengthOf_number {t : Token} {length : UInt64}
    (h : t.lexeme = .number (toString length.toNat)) : lengthOf [t] = length := by
  have hlist := lengthOfList?_toDigits (UInt64.toNat_lt length)
  simp [lengthOf, h, Lexeme.text, hlist]

/-- A bracket that closes a length goes on with no expression. -/
def closesLength : Follow := fun l _ ↦ l = .symbol "]"

theorem fails_anySymbol {options : List String}
    (h : Follow.Met (fun l _ ↦ ∀ s ∈ options, l ≠ .symbol s) ws P) :
    Fails (anySymbol options) line ws P := by
  intro ts t rest hs ht
  obtain ⟨t', rest', he, hl⟩ := h.head hs ht rest
  rw [he, anySymbol, accept]
  cases hlexeme : t'.lexeme with
  | symbol s => simpa [hlexeme] using fun hs ↦ hl s hs hlexeme
  | _ => simp

theorem fails_postfixStep (literals mayBeType : Bool) :
    Fails (g.postfixStep literals mayBeType) line [] closesLength :=
  .peek_bind (R := closesLength) (fun _ _ h ↦ h) fun t ht ↦ by
    rw [show t.lexeme = .symbol "]" from ht]
    exact fails_fail

theorem reads_operand_number : Reads g.operand line [⟨gap, .number s⟩] false P := by
  intro ts t rest hs _
  obtain ⟨t', ts', rfl, ht', hs'⟩ := hs.exists_cons
  obtain rfl := spells_nil.mp hs'
  rw [operand, List.cons_append, bind_of_some (peek_cons _ _), (Token.seen_eq ht').1]
  rfl

/-- A number is read to its end where a bracket closes. -/
theorem reads_expressionOf_number :
    Reads (g.expressionOf true) false [⟨gap, .number s⟩] () closesLength := by
  have hoperators : Reads (within false (many (anySymbol unaryOperators))) false [] []
      fun l _ ↦ l = .number s := by
    refine Reads.within (Reads.many_nil (fails_anySymbol (.nil ?_)))
    rintro _ _ rfl s _ ⟨⟩
  have hsteps : Reads (fun line ts ↦ g.postfixSteps true ts false line ts) false [] ()
      closesLength := by
    intro ts t rest hs ht
    obtain rfl := spells_nil.mp hs
    exact bind_of_some (Reads.optional_none (fails_postfixStep true false) (fun _ _ h ↦ .inr h)
      [] t rest hs ht)
  have hunary : Reads (g.unary true) false [⟨gap, .number s⟩] () closesLength :=
    hoperators.bind (reads_operand_number.bind hsteps fun _ _ h ↦ h) rfl
  have hbinary : Fails (anySymbol binaryOperators) false [] closesLength :=
    fails_anySymbol (.nil fun l _ hl s hs he ↦ by
      cases hl.symm.trans he
      exact absurd hs (by decide))
  have hmany : Reads (many do anySymbol binaryOperators; g.unary true) false [] [] closesLength :=
    .many_nil hbinary.bind
  exact hunary.bind_nil hmany.bind_pure

/-- A length in brackets is the last thing that is tried of what begins with a bracket. -/
theorem reads_typeOf_array {length : UInt64}
    (hx : Reads (g.expression true) false [⟨.nothing, .number (toString length.toNat)⟩] ()
      closesLength)
    (h : Reads g.type line ws a P) :
    Reads g.typeOf line (⟨gap, .symbol "["⟩ :: ⟨.nothing, .number (toString length.toNat)⟩ ::
      ⟨.nothing, .symbol "]"⟩ :: ws) (.array length a) P := by
  refine Reads.peek_bind fun t ht ↦ ?_
  rw [ht]
  have hslice : Fails (do symbol "["; symbol "]"; return GoType.slice (← g.type)) line
      (⟨gap, .symbol "["⟩ :: ⟨.nothing, .number (toString length.toNat)⟩ ::
        ⟨.nothing, .symbol "]"⟩ :: ws) P :=
    (reads_symbol rfl).bind_fails (fails_symbol (by simp [Follow.Met])).bind .any
  refine Reads.orElse_right hslice ?_
  intro ts t rest hs ht
  obtain ⟨t₁, ts, rfl, ht₁, hs⟩ := hs.exists_cons
  obtain ⟨t₂, ts, rfl, ht₂, hs⟩ := hs.exists_cons
  obtain ⟨t₃, ts, rfl, ht₃, hs⟩ := hs.exists_cons
  have hclosing : t₃.lexeme = .symbol "]" := (Token.seen_eq ht₃).1
  have hexpression := hx [t₂] t₃ (ts ++ t :: rest) (by simp [Spells, ht₂]) hclosing
  have hspanned : within false (spanned (g.expression true)) line
      (t₂ :: t₃ :: (ts ++ t :: rest)) = some ([t₂], t₃ :: (ts ++ t :: rest)) := by
    rw [List.singleton_append] at hexpression
    simp [Parser.within, spanned, hexpression]
  have hlength : between "[" "]" (spanned (g.expression true)) line
      (t₁ :: t₂ :: t₃ :: (ts ++ t :: rest)) = some ([t₂], ts ++ t :: rest) := by
    rw [between, bind_of_some (symbol_cons (Token.seen_eq ht₁).1 _), bind_of_some hspanned]
    exact bind_of_some (symbol_cons hclosing _)
  refine (bind_of_some hlength).trans ?_
  rw [lengthOf_number (Token.seen_eq ht₂).1]
  exact h.bind_pure ts t rest hs ht

end Level

end GoOpenApi.Go
