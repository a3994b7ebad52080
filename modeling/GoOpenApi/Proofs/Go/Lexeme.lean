import GoOpenApi.Go.Token
import GoOpenApi.Proofs.Text.Number
import Mathlib.Data.List.TakeWhile

/-!
Lexemes of declarations are read off a text as they were written, where they do not go on in what
follows.
-/

namespace GoOpenApi.Go

/-- The symbols that types and declarations are written with. -/
def typeSymbols : List String := ["*", "[", "]", "(", ")", "\x7b", "\x7d", ",", ".", "...", "="]

/-- A text that is read as one word, where nothing goes on after it. -/
def IsWord (s : String) : Prop :=
  ∃ c cs, s.toList = c :: cs ∧ Text.isIdentifierStart c ∧ ∀ c ∈ cs, Text.isIdentifierPart c

def isWordList : List Char → Bool
  | c :: cs => Text.isIdentifierStart c && cs.all Text.isIdentifierPart
  | [] => false

theorem isWord_iff {s : String} : IsWord s ↔ isWordList s.toList = true := by
  unfold IsWord
  cases s.toList with
  | nil => simp [isWordList]
  | cons c cs => simp [isWordList]

instance (s : String) : Decidable (IsWord s) := decidable_of_iff' _ isWord_iff

def Lexeme.IsWritten : Lexeme → Prop
  | .word s => IsWord s
  | .number s => ∃ n, s.toList = Nat.toDigits 10 n
  | .string s =>
    (∃ cs, s.toList = '\x60' :: (cs ++ ['\x60']) ∧ '\x60' ∉ cs) ∨
      ∃ cs, s.toList = '"' :: (cs ++ ['"']) ∧ ∀ c ∈ cs, c ≠ '"' ∧ c ≠ '\\' ∧ c ≠ '\n'
  | .symbol s => s ∈ typeSymbols
  | .rune _ | .eof => False

/-- The lexeme does not go on in what follows. -/
def Lexeme.Ends : Lexeme → List Char → Prop
  | .word _, cs => ∀ c ∈ cs.head?, Text.isIdentifierPart c = false
  | .number _, cs => cs.head? = some ']'
  | .symbol ".", cs => ∃ c ∈ cs.head?, Text.isIdentifierStart c
  | .symbol _, cs => cs.head? ≠ some '='
  | _, _ => True

theorem exists_cons_of_mem_typeSymbols {s : String} (hs : s ∈ typeSymbols) {p : Char → Bool}
    (hp : ∀ s ∈ typeSymbols, s.toList.head?.any p) : ∃ c cs, s.toList = c :: cs ∧ p c := by
  have h := hp s hs
  cases hc : s.toList with
  | nil => simp [hc] at h
  | cons c cs => exact ⟨c, cs, rfl, by simpa [hc] using h⟩

namespace Lexer

variable {c : Char} {cs r : List Char}

theorem takeWhile_append_of_stop {p : Char → Bool} (hcs : ∀ c ∈ cs, p c)
    (hr : ∀ c ∈ r.head?, p c = false) : (cs ++ r).takeWhile p = cs := by
  have ht : r.takeWhile p = [] := by
    cases r with
    | nil => rfl
    | cons c r => simp [hr c rfl]
  rw [List.takeWhile_append_of_pos hcs, ht, List.append_nil]

theorem upTo_append (cs r : List Char) : upTo (cs ++ r) r = cs := by
  simp [upTo]

/-- Signs, blanks and digits begin no identifier. -/
theorem ne_of_isIdentifierStart {d : Char} (h : Text.isIdentifierStart c)
    (hd : Text.isIdentifierStart d = false) : c ≠ d := by
  rintro rfl
  rw [hd] at h
  cases h

theorem ne_of_isDigit {d : Char} (h : c.isDigit) (hd : d.isDigit = false) : c ≠ d := by
  rintro rfl
  rw [h] at hd
  cases hd

theorem isDigit_of_isIdentifierStart (h : Text.isIdentifierStart c) : c.isDigit = false := by
  have hs : ∀ n < 58, 48 ≤ n → Text.isIdentifierStart (Char.ofNat n) = false := by decide
  refine Bool.eq_false_iff.mpr fun hd ↦ ?_
  simp only [Char.isDigit, Bool.and_eq_true, decide_eq_true_eq] at hd
  have hc := hs c.toNat (Nat.lt_succ_of_le (UInt32.le_iff_toNat_le.mp hd.2))
    (UInt32.le_iff_toNat_le.mp hd.1)
  rw [Char.ofNat_toNat, h] at hc
  cases hc

theorem lexeme?_word {s : String} (hs : IsWord s)
    (hr : ∀ c ∈ r.head?, Text.isIdentifierPart c = false) :
    lexeme? (s.toList ++ r) = some (.word s, r) := by
  obtain ⟨c, cs, hc, hstart, hcs⟩ := hs
  have hw : String.ofList (c :: cs) = s := by rw [← hc, String.ofList_toList]
  have hq : c ≠ '"' := ne_of_isIdentifierStart hstart (by decide)
  have hr' : c ≠ '\'' := ne_of_isIdentifierStart hstart (by decide)
  have hb : c ≠ '\x60' := ne_of_isIdentifierStart hstart (by decide)
  rw [hc, List.cons_append]
  simp [lexeme?, hb, hstart, takeWhile_append_of_stop hcs hr, hw]

/-! ### Numbers -/

theorem toDigits_of_zero {n : Nat} (h : Nat.toDigits 10 n = '0' :: cs) : cs = [] := by
  induction n using Nat.strongRecOn generalizing cs with
  | ind n ih =>
    rcases Nat.lt_or_ge n 10 with hn | hn
    · rw [Nat.toDigits_of_lt_base hn] at h
      exact (List.cons.inj h).2.symm
    · rw [Nat.toDigits_of_base_le (by decide) hn] at h
      cases hd : Nat.toDigits 10 (n / 10) with
      | nil => exact absurd hd (Text.toDigits_ne_nil _)
      | cons d ds =>
        rw [hd, List.cons_append] at h
        obtain ⟨rfl, -⟩ := List.cons.inj h
        obtain rfl := ih (n / 10) (by omega) hd
        have hz := Text.digits?_toDigits (n / 10)
        rw [hd] at hz
        have : n / 10 = 0 := (Option.some.inj hz).symm
        omega

theorem moreDigits_append (hcs : ∀ c ∈ cs, c.isDigit) :
    moreDigits Char.isDigit (cs ++ ']' :: r) = ']' :: r := by
  induction cs with
  | nil => rfl
  | cons c cs ih =>
    obtain ⟨hc, hcs⟩ := List.forall_mem_cons.mp hcs
    have hu : c ≠ '_' := ne_of_isDigit hc (by decide)
    simp [moreDigits, hu, hc, ih hcs]

/-- What follows a digit that is not zero. -/
theorem afterMore_append (hcs : ∀ c ∈ cs, c.isDigit) :
    optionally (fun cs ↦ afterDigits Char.isDigit (afterUnderscore cs)) (cs ++ ']' :: r) =
      ']' :: r := by
  cases cs with
  | nil => rfl
  | cons c cs =>
    obtain ⟨hc, hcs⟩ := List.forall_mem_cons.mp hcs
    have hu : c ≠ '_' := ne_of_isDigit hc (by decide)
    simp [optionally, afterUnderscore, afterOneOf, hu, afterDigits, hc, moreDigits_append hcs]

/-- Only the first of the readings succeeds. -/
theorem shortest_cons_none {rest : List Char} {rests : List (Option (List Char))}
    (h : ∀ rest ∈ rests, rest = none) : shortest (some rest :: rests) = some rest := by
  induction rests with
  | nil => rfl
  | cons next rests ih =>
    obtain ⟨rfl, hrests⟩ := List.forall_mem_cons.mp h
    exact ih hrests

theorem afterNumber_append (n : Nat) (r : List Char) :
    afterNumber (Nat.toDigits 10 n ++ ']' :: r) = some (']' :: r) := by
  obtain ⟨c, cs, hd, hc, hcs⟩ := Text.exists_toDigits_eq_cons n
  have hzero (h : c = '0') : cs = [] := toDigits_of_zero (n := n) (by rw [hd, h])
  rw [hd]
  have hwhole : afterDigits Char.isDigit (c :: cs ++ ']' :: r) = some (']' :: r) := by
    rw [List.cons_append, afterDigits, if_pos hc, moreDigits_append hcs]
  have hfloat : afterFloat (c :: cs ++ ']' :: r) = [none, none, none, none, none, none] := by
    have hpoint : afterOneOf ['.'] (c :: cs ++ ']' :: r) = none := by
      have hp : c ≠ '.' := ne_of_isDigit hc (by decide)
      simp [afterOneOf, hp]
    have hhex : (afterOneOf ['0'] (c :: cs ++ ']' :: r)).bind (afterOneOf ['x', 'X']) = none := by
      by_cases h0 : c = '0'
      · subst h0
        obtain rfl := hzero rfl
        rfl
      · simp [afterOneOf, h0]
    simp only [afterFloat, hwhole, hpoint, hhex]
    rfl
  have hint : ∃ rests, afterInt (c :: cs ++ ']' :: r) = some (']' :: r) :: rests ∧
      ∀ rest ∈ rests, rest = none := by
    by_cases h0 : c = '0'
    · subst h0
      obtain rfl := hzero rfl
      exact ⟨[none, none, none], rfl, by simp⟩
    · exact ⟨[], by simp [afterInt, hc, afterMore_append hcs], List.forall_mem_nil _⟩
  obtain ⟨rests, hint, hrests⟩ := hint
  have hmark {rest : Option (List Char)} (h : rest = none ∨ rest = some (']' :: r)) :
      rest.bind (afterOneOf ['i']) = none := by
    rcases h with rfl | rfl <;> rfl
  have hothers : ∀ rest ∈ rests ++ [none, none, none, none, none, none], rest = none := by
    intro rest hrest
    rcases List.mem_append.mp hrest with hrest | hrest
    · exact hrests rest hrest
    · simpa using hrest
  rw [afterNumber, hint, hfloat, hwhole, List.cons_append]
  refine shortest_cons_none fun rest hrest ↦ ?_
  rcases List.mem_append.mp hrest with hrest | hrest
  · exact hothers rest hrest
  · obtain ⟨real, hreal, rfl⟩ := List.mem_map.mp hrest
    simp only [List.mem_cons (b := some (']' :: r))] at hreal
    rcases hreal with hreal | hreal | hreal
    · exact hmark (.inr hreal)
    · exact hmark (.inr hreal)
    · exact hmark (.inl (hothers real hreal))

theorem lexeme?_number {s : String} {n : Nat} (hs : s.toList = Nat.toDigits 10 n) (r : List Char) :
    lexeme? (s.toList ++ ']' :: r) = some (.number s, ']' :: r) := by
  have hn := afterNumber_append n r
  have hw : String.ofList (Nat.toDigits 10 n) = s := by rw [← hs, String.ofList_toList]
  obtain ⟨c, cs, hd, hc, -⟩ := Text.exists_toDigits_eq_cons n
  have hq : c ≠ '"' := ne_of_isDigit hc (by decide)
  have hr : c ≠ '\'' := ne_of_isDigit hc (by decide)
  have hb : c ≠ '\x60' := ne_of_isDigit hc (by decide)
  have hstart : Text.isIdentifierStart c = false := by
    refine Bool.eq_false_iff.mpr fun h ↦ ?_
    rw [isDigit_of_isIdentifierStart h] at hc
    cases hc
  have hup := upTo_append (c :: cs) (']' :: r)
  rw [hd] at hn hw
  rw [hs, hd]
  rw [List.cons_append] at hn hup ⊢
  simp [lexeme?, hb, hstart, hc, hn, hup, hw]

/-! ### Strings -/

theorem afterRawString_append (h : '\x60' ∉ cs) (r : List Char) :
    afterRawString (cs ++ '\x60' :: r) = some r := by
  induction cs with
  | nil => rfl
  | cons c cs ih =>
    obtain ⟨hc, hcs⟩ := not_or.mp (List.mem_cons.not.mp h)
    simp [afterRawString, Ne.symm hc, ih hcs]

theorem afterString_append (h : ∀ c ∈ cs, c ≠ '"' ∧ c ≠ '\\' ∧ c ≠ '\n') (r : List Char) :
    afterString (cs ++ '"' :: r) = some r := by
  induction cs with
  | nil => rfl
  | cons c cs ih =>
    obtain ⟨⟨hq, hb, hn⟩, hcs⟩ := List.forall_mem_cons.mp h
    simp [afterString, hb, ih hcs]

theorem lexeme?_raw {s : String} (hs : s.toList = '\x60' :: (cs ++ ['\x60'])) (h : '\x60' ∉ cs)
    (r : List Char) : lexeme? (s.toList ++ r) = some (.string s, r) := by
  have hw : String.ofList ('\x60' :: (cs ++ ['\x60'])) = s := by rw [← hs, String.ofList_toList]
  have hup := upTo_append ('\x60' :: (cs ++ ['\x60'])) r
  rw [hs]
  simp only [List.cons_append, List.append_assoc, List.nil_append] at hup ⊢
  simp [lexeme?, afterRawString_append h, hup, hw]

theorem lexeme?_quoted {s : String} (hs : s.toList = '"' :: (cs ++ ['"']))
    (h : ∀ c ∈ cs, c ≠ '"' ∧ c ≠ '\\' ∧ c ≠ '\n') (r : List Char) :
    lexeme? (s.toList ++ r) = some (.string s, r) := by
  have hw : String.ofList ('"' :: (cs ++ ['"'])) = s := by rw [← hs, String.ofList_toList]
  have hup := upTo_append ('"' :: (cs ++ ['"'])) r
  rw [hs]
  simp only [List.cons_append, List.append_assoc, List.nil_append] at hup ⊢
  simp [lexeme?, afterString_append h, hup, hw]

/-! ### Symbols -/

/-- No longer symbol begins where one of these stands. -/
theorem find?_symbols {s : String} (hs : s ∈ typeSymbols) (hr : (Lexeme.symbol s).Ends r) :
    symbols.find? (fun t ↦ t.toList.isPrefixOf (s.toList ++ r)) = some s := by
  have hequals (h : r.head? ≠ some '=') : ¬['='] <+: r := by
    rintro ⟨t, rfl⟩
    exact h rfl
  simp only [typeSymbols, List.mem_cons, List.not_mem_nil, or_false] at hs
  rcases hs with rfl | rfl | rfl | rfl | rfl | rfl | rfl | rfl | rfl | rfl | rfl
  case inl => simp [symbols, hequals hr]
  case inr.inr.inr.inr.inr.inr.inr.inr.inl =>
    have hdots : ¬['.', '.'] <+: r := by
      rintro ⟨t, rfl⟩
      obtain ⟨c, hc, hstart⟩ := hr
      obtain rfl : '.' = c := by simpa using hc
      exact absurd hstart (by decide)
    simp [symbols, hdots]
  case inr.inr.inr.inr.inr.inr.inr.inr.inr.inr => simp [symbols, hequals hr]
  all_goals simp [symbols]

theorem symbol?_append {s : String} (hs : s ∈ typeSymbols) (hr : (Lexeme.symbol s).Ends r) :
    symbol? (s.toList ++ r) = some (s, r) := by
  rw [symbol?, find?_symbols hs hr]
  simp only
  rw [← String.length_toList, List.drop_left]

/-- A point without a digit after it begins no number. -/
theorem afterNumber_point (hr : ∀ c ∈ r.head?, c.isDigit = false) :
    afterNumber ('.' :: r) = none := by
  have hfraction : afterDigits Char.isDigit r = none := by
    cases r with
    | nil => rfl
    | cons c r => simp [afterDigits, hr c rfl]
  have hwhole : afterDigits Char.isDigit ('.' :: r) = none := rfl
  have hint : afterInt ('.' :: r) = [] := rfl
  have hfloat : afterFloat ('.' :: r) = [none, none, none, none, none, none] := by
    have hpoint : afterOneOf ['.'] ('.' :: r) = some r := rfl
    have hzero : afterOneOf ['0'] ('.' :: r) = none := rfl
    simp only [afterFloat, hwhole, hpoint, hzero, Option.bind_some, hfraction]
    rfl
  rw [afterNumber, hint, hfloat, hwhole]
  rfl

/-- What is no quote, letter or number is a symbol. -/
theorem lexeme?_of_symbol? {s : String} (hq : c ∉ ['"', '\'', '\x60'])
    (hstart : Text.isIdentifierStart c = false)
    (hn : (c.isDigit || c == '.') = true → afterNumber (c :: cs) = none)
    (hs : symbol? (c :: cs) = some (s, r)) : lexeme? (c :: cs) = some (.symbol s, r) := by
  simp only [List.mem_cons, List.not_mem_nil, or_false, not_or] at hq
  obtain ⟨hq, hr, hb⟩ := hq
  by_cases hc : (c.isDigit || c == '.') = true
  · simp only [lexeme?, beq_iff_eq, hb, hstart, if_pos hc, hn hc, hs]
    rfl
  · simp only [lexeme?, beq_iff_eq, hb, hstart, if_neg hc, hs]
    rfl

theorem lexeme?_symbol {s : String} (hs : s ∈ typeSymbols) (hr : (Lexeme.symbol s).Ends r) :
    lexeme? (s.toList ++ r) = some (.symbol s, r) := by
  have hsymbol := symbol?_append hs hr
  simp only [typeSymbols, List.mem_cons, List.not_mem_nil, or_false] at hs
  rcases hs with rfl | rfl | rfl | rfl | rfl | rfl | rfl | rfl | rfl | rfl | rfl
  all_goals simp only [String.reduceToList, List.cons_append, List.nil_append] at hsymbol ⊢
  case inr.inr.inr.inr.inr.inr.inr.inr.inl =>
    refine lexeme?_of_symbol? (by decide) (by decide) (fun _ ↦ ?_) hsymbol
    obtain ⟨c, hc, hstart⟩ := hr
    refine afterNumber_point fun c' hc' ↦ ?_
    obtain rfl : c' = c := Option.some.inj (hc'.symm.trans hc)
    exact isDigit_of_isIdentifierStart hstart
  case inr.inr.inr.inr.inr.inr.inr.inr.inr.inl =>
    refine lexeme?_of_symbol? (by decide) (by decide) (fun _ ↦ ?_) hsymbol
    exact afterNumber_point (by simp)
  all_goals
    exact lexeme?_of_symbol? (by decide) (by decide) (fun h ↦ absurd h (by decide)) hsymbol

/-! ### Pieces -/

theorem lexeme?_append {l : Lexeme} (hl : l.IsWritten) (hr : l.Ends r) :
    lexeme? (l.text.toList ++ r) = some (l, r) := by
  cases l with
  | word s => exact lexeme?_word hl hr
  | number s =>
    obtain ⟨n, hn⟩ := hl
    cases r with
    | nil => cases hr
    | cons c r =>
      obtain rfl : c = ']' := Option.some.inj hr
      exact lexeme?_number hn r
  | rune s => exact hl.elim
  | string s =>
    rcases hl with ⟨cs, hs, hcs⟩ | ⟨cs, hs, hcs⟩
    · exact lexeme?_raw hs hcs r
    · exact lexeme?_quoted hs hcs r
  | symbol s => exact lexeme?_symbol hl hr
  | eof => exact hl.elim

/-- Characters that begin no lexeme: what ends a line, begins a comment or marks a text. -/
def besideLexemes : List Char := ['\n', '/', '\ufeff']

/-- A lexeme begins with no blank, and none of these characters. -/
theorem exists_cons_of_isWritten {l : Lexeme} (hl : l.IsWritten) :
    ∃ c cs, l.text.toList = c :: cs ∧ isBlank c = false ∧ c ∉ besideLexemes := by
  cases l with
  | word s =>
    obtain ⟨c, cs, hs, hstart, -⟩ := hl
    have hne {d : Char} (hd : Text.isIdentifierStart d = false) : c ≠ d :=
      ne_of_isIdentifierStart hstart hd
    refine ⟨c, cs, hs, ?_, ?_⟩
    · simp only [isBlank, Bool.or_eq_false_iff, beq_eq_false_iff_ne]
      refine ⟨⟨⟨⟨?_, ?_⟩, ?_⟩, ?_⟩, ?_⟩ <;> exact hne (by decide)
    · simp only [besideLexemes, List.mem_cons, List.not_mem_nil, or_false, not_or]
      refine ⟨?_, ?_, ?_⟩ <;> exact hne (by decide +kernel)
  | number s =>
    obtain ⟨n, hn⟩ := hl
    obtain ⟨c, cs, hd, hc, -⟩ := Text.exists_toDigits_eq_cons n
    have hne {d : Char} (hd : d.isDigit = false) : c ≠ d := ne_of_isDigit hc hd
    refine ⟨c, cs, hn.trans hd, ?_, ?_⟩
    · simp only [isBlank, Bool.or_eq_false_iff, beq_eq_false_iff_ne]
      refine ⟨⟨⟨⟨?_, ?_⟩, ?_⟩, ?_⟩, ?_⟩ <;> exact hne (by decide)
    · simp only [besideLexemes, List.mem_cons, List.not_mem_nil, or_false, not_or]
      refine ⟨?_, ?_, ?_⟩ <;> exact hne (by decide)
  | rune s => exact hl.elim
  | string s =>
    rcases hl with ⟨cs, hs, -⟩ | ⟨cs, hs, -⟩
    · exact ⟨_, _, hs, by decide, by decide⟩
    · exact ⟨_, _, hs, by decide, by decide⟩
  | symbol s =>
    obtain ⟨c, cs, hc, hp⟩ := exists_cons_of_mem_typeSymbols hl
      (p := fun c ↦ !isBlank c && !besideLexemes.contains c) (by decide)
    simp only [Bool.and_eq_true, Bool.not_eq_true', List.contains_eq_mem, decide_eq_false_iff_not]
      at hp
    exact ⟨c, cs, hc, hp.1, hp.2⟩
  | eof => exact hl.elim

theorem piece?_append {l : Lexeme} (hl : l.IsWritten) (hr : l.Ends r) :
    piece? (l.text.toList ++ r) = some (.lexeme l, r) := by
  have hlexeme := lexeme?_append hl hr
  obtain ⟨c, cs, hs, hb, hbeside⟩ := exists_cons_of_isWritten hl
  simp only [besideLexemes, List.mem_cons, List.not_mem_nil, or_false, not_or] at hbeside
  obtain ⟨hn, hslash, -⟩ := hbeside
  rw [hs, List.cons_append] at hlexeme ⊢
  simp [piece?, hb, hslash, hlexeme]

/-- The pieces of a gap. -/
def gapPiece (c : Char) : Piece := if c = '\n' then .lineFeed else .blank c

theorem piece?_gap (hc : c = '\n' ∨ isBlank c) : piece? (c :: r) = some (gapPiece c, r) := by
  rcases hc with rfl | hc
  · rfl
  · have hn : c ≠ '\n' := by
      rintro rfl
      cases hc
    have hs : c ≠ '/' := by
      rintro rfl
      cases hc
    simp [piece?, gapPiece, hn, hs, hc]

/-- The text is cut into the pieces. -/
def IsCut (cs : List Char) (ps : List Piece) : Prop :=
  ∀ n, cs.length ≤ n → piecesWithin? n cs = some ps

theorem isCut_nil : IsCut [] [] := by
  intro n _
  cases n <;> rfl

theorem IsCut.cons {p : Piece} {ps : List Piece} (h : IsCut r ps)
    (hp : piece? cs = some (p, r)) (hlen : r.length < cs.length) : IsCut cs (p :: ps) := by
  intro n hn
  cases n with
  | zero => omega
  | succ n =>
    have hr := h n (by omega)
    cases cs with
    | nil => cases hlen
    | cons c cs =>
      rw [piecesWithin?, hp]
      · simp [hr]
      · nofun

theorem IsCut.gap {ps : List Piece} (h : IsCut r ps) (hcs : ∀ c ∈ cs, c = '\n' ∨ isBlank c) :
    IsCut (cs ++ r) (cs.map gapPiece ++ ps) := by
  induction cs with
  | nil => exact h
  | cons c cs ih =>
    obtain ⟨hc, hcs⟩ := List.forall_mem_cons.mp hcs
    exact (ih hcs).cons (piece?_gap hc) (Nat.lt_succ_self _)

theorem IsCut.lexeme {l : Lexeme} {ps : List Piece} (h : IsCut r ps) (hl : l.IsWritten)
    (hr : l.Ends r) : IsCut (l.text.toList ++ r) (.lexeme l :: ps) := by
  refine h.cons (piece?_append hl hr) ?_
  obtain ⟨c, cs, hs, -⟩ := exists_cons_of_isWritten hl
  rw [hs, List.cons_append, List.length_cons, List.length_append]
  omega

end Lexer

end GoOpenApi.Go
