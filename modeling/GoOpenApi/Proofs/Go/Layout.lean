import GoOpenApi.Proofs.Go.Lexeme

/-!
Texts laid out from words. Between two words stands nothing, blanks, or the end of a line; where
neighbours do not run into each other, a text is cut into the words that it was made of.
-/

namespace GoOpenApi.Go

/-- What stands before a word. -/
inductive Gap where
  | nothing
  | blanks
  | lineEnd
  deriving DecidableEq

structure Word where
  gap : Gap
  lexeme : Lexeme

/-- The characters can stand in the gap. -/
def Gap.Fills : Gap → List Char → Prop
  | .nothing, cs => cs = []
  | .blanks, cs => cs ≠ [] ∧ ∀ c ∈ cs, Lexer.isBlank c
  | .lineEnd, cs => '\n' ∈ cs ∧ ∀ c ∈ cs, c = '\n' ∨ Lexer.isBlank c

/-- The text consists of the words with their gaps and the end of the last line. -/
inductive LaidOut : List Word → List Char → Prop where
  | nil {cs : List Char} (h : Gap.lineEnd.Fills cs) : LaidOut [] cs
  | cons {w : Word} {ws : List Word} {gap cs : List Char} (hg : w.gap.Fills gap)
    (h : LaidOut ws cs) : LaidOut (w :: ws) (gap ++ (w.lexeme.text.toList ++ cs))

def Gap.chars : Gap → List Char
  | .nothing => []
  | .blanks => [' ']
  | .lineEnd => ['\n']

/-- The words with no more between them than there has to be. -/
def plainText (ws : List Word) : List Char :=
  ws.flatMap (fun w ↦ w.gap.chars ++ w.lexeme.text.toList) ++ ['\n']

theorem Gap.fills_chars (g : Gap) : g.Fills g.chars := by
  cases g with
  | nothing => rfl
  | blanks => exact ⟨List.cons_ne_nil _ _, List.forall_mem_singleton.mpr (by decide)⟩
  | lineEnd => exact ⟨List.mem_cons_self, List.forall_mem_singleton.mpr (.inl rfl)⟩

theorem laidOut_plainText (ws : List Word) : LaidOut ws (plainText ws) := by
  induction ws with
  | nil => exact .nil (Gap.fills_chars .lineEnd)
  | cons w ws ih =>
    have h := LaidOut.cons (Gap.fills_chars w.gap) ih
    simpa [plainText] using h

/-- How a list of members is written: each of them on lines of its own. -/
def bracketed (opening closing : String) : List Word → List Word
  | [] => [⟨.nothing, .symbol opening⟩, ⟨.nothing, .symbol closing⟩]
  | w :: ws => ⟨.blanks, .symbol opening⟩ :: (w :: ws ++ [⟨.lineEnd, .symbol closing⟩])

theorem exists_bracketed_eq (opening closing : String) (ws : List Word) : ∃ first last,
    bracketed opening closing ws = first :: (ws ++ [last]) ∧ first.lexeme = .symbol opening ∧
      last.lexeme = .symbol closing ∧ (ws ≠ [] → last.gap = .lineEnd) := by
  cases ws with
  | nil => exact ⟨_, _, rfl, rfl, rfl, fun h ↦ absurd rfl h⟩
  | cons => exact ⟨_, _, rfl, rfl, rfl, fun _ ↦ rfl⟩

/-! ### Tokens -/

/-- What a parser sees of a token: its lexeme, whether a line ends before it, and that there are no
comments before it. -/
def Token.seen (t : Token) : Lexeme × Bool × Bool := (t.lexeme, t.newline, t.comments.isEmpty)

def Word.seen (w : Word) : Lexeme × Bool × Bool := (w.lexeme, w.gap == .lineEnd, true)

/-- The tokens stand for the words. -/
def Spells (ts : List Token) (ws : List Word) : Prop := ts.map Token.seen = ws.map Word.seen

/-- The end of a text, on a line of its own. -/
def Word.eof : Word := ⟨.lineEnd, .eof⟩

/-- Neighbours that do not run into each other. -/
def Word.Apart (w next : Word) : Prop :=
  match w.lexeme with
  | .number _ => next.gap = .nothing ∧ next.lexeme = .symbol "]"
  | .symbol "." => next.gap = .nothing ∧ ∃ s, next.lexeme = .word s
  | .word _ => next.gap = .nothing → ∃ s, next.lexeme = .symbol s
  | .symbol _ => next.gap = .nothing → next.lexeme ≠ .symbol "="
  | _ => True

/-- A word that may stand after any other. -/
def Word.Follows (w : Word) : Prop := w.gap = .nothing → ∃ s, w.lexeme = .symbol s ∧ s ≠ "="

theorem Word.Follows.ne_equals {w : Word} (h : w.Follows) (hg : w.gap = .nothing) :
    w.lexeme ≠ .symbol "=" := by
  obtain ⟨s, hs, hne⟩ := h hg
  rw [hs]
  exact fun he ↦ hne (Lexeme.symbol.inj he)

/-- Words that can be read off a text, where it goes on with a word that may follow. -/
structure Written (ws : List Word) : Prop where
  lexemes : ∀ w ∈ ws, w.lexeme.IsWritten
  apart : ∀ rest, rest.IsChain Word.Apart → (∀ w ∈ rest.head?, w.Follows) →
    (ws ++ rest).IsChain Word.Apart

theorem Gap.Fills.chars {g : Gap} {cs : List Char} (h : g.Fills cs) :
    ∀ c ∈ cs, c = '\n' ∨ Lexer.isBlank c := by
  cases g with
  | nothing =>
    obtain rfl : cs = [] := h
    exact List.forall_mem_nil _
  | blanks => exact fun c hc ↦ .inr (h.2 c hc)
  | lineEnd => exact h.2

theorem Gap.Fills.contains {g : Gap} {cs : List Char} (h : g.Fills cs) :
    cs.contains '\n' = (g == .lineEnd) := by
  cases g with
  | nothing =>
    obtain rfl : cs = [] := h
    rfl
  | blanks =>
    have hn : '\n' ∉ cs := fun hn ↦ absurd (h.2 _ hn) (by decide)
    simp only [List.contains_eq_mem, decide_eq_false hn]
    rfl
  | lineEnd => simpa using h.1

/-- After blanks and line feeds, no comment has been seen. -/
theorem ofPiecesFrom_gap (cs : List Char) (row lastRow : Nat) (newline spaced : Bool)
    (ps : List Piece) : ∃ row' spaced',
      Token.ofPiecesFrom row lastRow [] newline spaced (cs.map Lexer.gapPiece ++ ps) =
        Token.ofPiecesFrom row' lastRow [] (newline || cs.contains '\n') spaced' ps := by
  induction cs generalizing row newline spaced with
  | nil => exact ⟨row, spaced, by simp⟩
  | cons c cs ih =>
    by_cases hc : c = '\n'
    · subst hc
      obtain ⟨row', spaced', h⟩ := ih (row + 1) true true
      exact ⟨row', spaced', by simpa [Lexer.gapPiece, Token.ofPiecesFrom] using h⟩
    · obtain ⟨row', spaced', h⟩ := ih row newline true
      refine ⟨row', spaced', ?_⟩
      simpa [Lexer.gapPiece, hc, Token.ofPiecesFrom, Ne.symm hc] using h

theorem Gap.Fills.eq_nil_iff {g : Gap} {cs : List Char} (h : g.Fills cs) :
    cs = [] ↔ g = .nothing := by
  cases g with
  | nothing => exact iff_of_true h rfl
  | blanks => exact iff_of_false h.1 nofun
  | lineEnd => exact iff_of_false (List.ne_nil_of_mem h.1) nofun

/-- A gap that is not empty begins with a line feed or a blank. -/
theorem Gap.Fills.head?_append {g : Gap} {cs : List Char} (h : g.Fills cs) (hne : g ≠ .nothing)
    {p : Char → Bool} (hp : ['\n', ' ', '\t', '\r', '\x0b', '\x0c'].all p) (rest : List Char) :
    ∀ c ∈ (cs ++ rest).head?, p c := by
  cases cs with
  | nil => exact absurd (h.eq_nil_iff.mp rfl) hne
  | cons c cs =>
    rintro _ ⟨⟩
    refine List.all_eq_true.mp hp c ?_
    rcases h.chars c List.mem_cons_self with rfl | hc
    · decide
    · simp only [Lexer.isBlank, Bool.or_eq_true, beq_iff_eq] at hc
      rcases hc with (((rfl | rfl) | rfl) | rfl) | rfl <;> decide

theorem Lexeme.ends_symbol_iff {s : String} (hs : s ≠ ".") {cs : List Char} :
    (Lexeme.symbol s).Ends cs ↔ cs.head? ≠ some '=' := by
  simp [Lexeme.Ends]

theorem Word.apart_symbol_iff {s : String} (hs : s ≠ ".") {gap : Gap} {next : Word} :
    (Word.mk gap (.symbol s)).Apart next ↔
      (next.gap = .nothing → next.lexeme ≠ .symbol "=") := by
  simp [Word.Apart]

theorem Lexeme.IsWritten.head?_ne_equals {l : Lexeme} (hl : l.IsWritten) (hne : l ≠ .symbol "=")
    {rest : List Char} : ([] ++ (l.text.toList ++ rest)).head? ≠ some '=' := by
  cases l with
  | word s =>
    obtain ⟨c, cs, hc, hstart, -⟩ := hl
    have hs : c ≠ '=' := Lexer.ne_of_isIdentifierStart hstart (by decide)
    simp [Lexeme.text, hc, hs]
  | number s =>
    obtain ⟨n, hn⟩ := hl
    obtain ⟨c, cs, hd, hc, -⟩ := Text.exists_toDigits_eq_cons n
    have hs : c ≠ '=' := Lexer.ne_of_isDigit hc (by decide)
    simp [Lexeme.text, hn, hd, hs]
  | rune s => exact hl.elim
  | string s => rcases hl with ⟨cs, hs, -⟩ | ⟨cs, hs, -⟩ <;> simp [Lexeme.text, hs]
  | symbol s =>
    have hs : s ≠ "=" := fun he ↦ hne (congrArg Lexeme.symbol he)
    have hall : ∀ s ∈ typeSymbols, s ≠ "=" → s.toList.head?.any (· != '=') := by decide
    have hh := hall s hl hs
    cases hc : s.toList with
    | nil => simp [hc] at hh
    | cons c cs => simpa [Lexeme.text, hc] using hh
  | eof => exact hl.elim

/-- What follows a word in a text begins as the next word says. -/
theorem Word.Apart.ends {w next : Word} {gap rest : List Char} (h : w.Apart next)
    (hg : next.gap.Fills gap) (hn : next.gap = .nothing → next.lexeme.IsWritten) :
    w.lexeme.Ends (gap ++ (next.lexeme.text.toList ++ rest)) := by
  have hnothing (h : next.gap = .nothing) : gap = [] := hg.eq_nil_iff.mpr h
  obtain ⟨gap', lexeme⟩ := w
  cases lexeme with
  | word s =>
    by_cases hgap : next.gap = .nothing
    · obtain ⟨s', hs'⟩ := h hgap
      have hmem : s' ∈ typeSymbols := by
        have hwritten := hn hgap
        rwa [hs'] at hwritten
      obtain ⟨c, cs, hc, hpart⟩ := exists_cons_of_mem_typeSymbols hmem
        (p := fun c ↦ !Text.isIdentifierPart c) (by decide)
      rw [hnothing hgap, hs', Lexeme.text, hc]
      rintro _ ⟨⟩
      simpa using hpart
    · intro c hc
      have hpart := hg.head?_append hgap (p := fun c ↦ !Text.isIdentifierPart c) (by decide) _ c hc
      simpa using hpart
  | number s =>
    obtain ⟨hgap, hs'⟩ := h
    rw [hnothing hgap, hs']
    simp [Lexeme.Ends, Lexeme.text]
  | symbol s =>
    by_cases hs : s = "."
    · subst hs
      obtain ⟨hgap, s', hs'⟩ := h
      obtain ⟨c, cs, hc, hstart, -⟩ : IsWord s' := by
        have hwritten := hn hgap
        rwa [hs'] at hwritten
      rw [hnothing hgap, hs']
      exact ⟨c, by simp [Lexeme.text, hc], hstart⟩
    · rw [Lexeme.ends_symbol_iff hs]
      by_cases hgap : next.gap = .nothing
      · rw [hnothing hgap]
        exact (hn hgap).head?_ne_equals ((apart_symbol_iff hs).mp h hgap)
      · intro he
        exact absurd (hg.head?_append hgap (p := (· != '=')) (by decide) _ '=' he) (by decide)
  | _ => trivial

theorem LaidOut.spells {ws : List Word} {cs : List Char} (h : LaidOut ws cs)
    (hw : ∀ w ∈ ws, w.lexeme.IsWritten) (hc : (ws ++ [Word.eof]).IsChain Word.Apart) :
    ∃ ps, Lexer.IsCut cs ps ∧ ∀ row lastRow spaced,
      Spells (Token.ofPiecesFrom row lastRow [] false spaced ps) (ws ++ [Word.eof]) := by
  induction h with
  | @nil cs hcs =>
    have hcut := Lexer.isCut_nil.gap hcs.chars
    rw [List.append_nil] at hcut
    refine ⟨_, hcut, fun row lastRow spaced ↦ ?_⟩
    obtain ⟨row', spaced', he⟩ := ofPiecesFrom_gap cs row lastRow false spaced []
    rw [he, hcs.contains]
    rfl
  | @cons w ws gap cs hg h ih =>
    rw [List.forall_mem_cons] at hw
    have hends : w.lexeme.Ends cs ∧ (ws ++ [Word.eof]).IsChain Word.Apart := by
      cases h with
      | @nil cs hcs =>
        obtain ⟨hapart, hc⟩ := List.isChain_cons_cons.mp hc
        have hends : w.lexeme.Ends (cs ++ (Word.eof.lexeme.text.toList ++ [])) :=
          hapart.ends hcs nofun
        exact ⟨by simpa [Word.eof, Lexeme.text] using hends, hc⟩
      | @cons next ws gap cs hg h =>
        obtain ⟨hapart, hc⟩ := List.isChain_cons_cons.mp hc
        exact ⟨hapart.ends hg fun _ ↦ hw.2 next List.mem_cons_self, hc⟩
    obtain ⟨ps, hcut, hspells⟩ := ih hw.2 hends.2
    refine ⟨_, (hcut.lexeme hw.1 hends.1).gap hg.chars, fun row lastRow spaced ↦ ?_⟩
    obtain ⟨row', spaced', he⟩ :=
      ofPiecesFrom_gap gap row lastRow false spaced (.lexeme w.lexeme :: ps)
    rw [he, hg.contains, Token.ofPiecesFrom]
    have hrest := hspells (row' + Token.lineFeeds w.lexeme.text.toList)
      (row' + Token.lineFeeds w.lexeme.text.toList) false
    simp only [Spells, List.cons_append, List.map_cons] at hrest ⊢
    rw [hrest]
    simp [Token.seen, Word.seen]

/-- No text of words begins with a byte order mark. -/
theorem LaidOut.head?_ne_mark {ws : List Word} {cs : List Char} (h : LaidOut ws cs)
    (hw : ∀ w ∈ ws, w.lexeme.IsWritten) : ∀ c ∈ cs.head?, c.toNat ≠ 0xFEFF := by
  have hchar {c : Char} (hc : c ≠ '\ufeff') : c.toNat ≠ 0xFEFF := fun he ↦ hc (by
    rw [← Char.ofNat_toNat c, he])
  have hgap {g : Gap} {cs : List Char} (hg : g.Fills cs) : ∀ c ∈ cs, c.toNat ≠ 0xFEFF := by
    intro c hc
    refine hchar ?_
    rintro rfl
    exact absurd (hg.chars _ hc) (by decide)
  cases h with
  | nil hg => exact fun c hc ↦ hgap hg c (List.mem_of_mem_head? hc)
  | @cons w ws gap cs hg h =>
    cases gap with
    | cons c gap =>
      rintro _ ⟨⟩
      exact hgap hg c List.mem_cons_self
    | nil =>
      obtain ⟨c, cs', hc, -, hb⟩ := Lexer.exists_cons_of_isWritten (hw w List.mem_cons_self)
      rw [List.nil_append, hc]
      rintro _ ⟨⟩
      refine hchar ?_
      rintro rfl
      exact hb (by decide)

/-- A text of words that do not run into each other has these words for tokens. -/
theorem LaidOut.exists_tokens {ws : List Word} {cs : List Char} (h : LaidOut ws cs)
    (hw : ∀ w ∈ ws, w.lexeme.IsWritten) (hc : (ws ++ [Word.eof]).IsChain Word.Apart) :
    ∃ ts, Token.ofText? (String.ofList cs) = some ts ∧ Spells ts (ws ++ [Word.eof]) := by
  obtain ⟨ps, hcut, hspells⟩ := h.spells hw hc
  have hpieces : Lexer.pieces? cs = some ps := by
    have hmark := h.head?_ne_mark hw
    cases cs with
    | nil => exact hcut _ (Nat.le_refl _)
    | cons c cs =>
      rw [Lexer.pieces?]
      simp only [if_neg (hmark c rfl)]
      exact hcut _ (Nat.le_refl _)
  exact ⟨_, by rw [Token.ofText?, String.toList_ofList, hpieces]; rfl, hspells 0 0 false⟩

/-! ### Words that do not run into each other -/

namespace Written

variable {ws vs : List Word} {gap : Gap} {s : String}

theorem nil : Written [] := ⟨List.forall_mem_nil _, fun _ hrest _ ↦ hrest⟩

theorem append (hws : Written ws) (hvs : Written vs) (hv : ∀ w ∈ vs.head?, w.Follows) :
    Written (ws ++ vs) := by
  refine ⟨List.forall_mem_append.mpr ⟨hws.lexemes, hvs.lexemes⟩, fun rest hrest hr ↦ ?_⟩
  rw [List.append_assoc]
  refine hws.apart _ (hvs.apart rest hrest hr) ?_
  cases vs with
  | nil => exact hr
  | cons => exact hv

theorem flatMap {ι : Type} {items : List ι} {words : ι → List Word}
    (h : ∀ i ∈ items, Written (words i)) (hw : ∀ i ∈ items, ∀ w ∈ (words i).head?, w.Follows) :
    Written (items.flatMap words) ∧ ∀ w ∈ (items.flatMap words).head?, w.Follows := by
  induction items with
  | nil => exact ⟨.nil, nofun⟩
  | cons i items ih =>
    obtain ⟨hi, his⟩ := List.forall_mem_cons.mp h
    obtain ⟨hwi, hwis⟩ := List.forall_mem_cons.mp hw
    obtain ⟨hws, hhead⟩ := ih his hwis
    rw [List.flatMap_cons]
    refine ⟨hi.append hws hhead, fun w hm ↦ ?_⟩
    cases he : words i with
    | nil => exact hhead w (by simpa [he] using hm)
    | cons w' ws => exact hwi w (by simpa [he] using hm)

/-- A lexeme that is set off from everything but symbols. -/
theorem singleton {l : Lexeme} (hl : l.IsWritten)
    (h : ∀ w : Word, w.Follows → Word.Apart ⟨gap, l⟩ w) : Written [⟨gap, l⟩] := by
  refine ⟨by simpa using hl, fun rest hrest hr ↦ ?_⟩
  cases rest with
  | nil => exact .singleton _
  | cons w rest => exact List.isChain_cons_cons.mpr ⟨h w (hr w rfl), hrest⟩

theorem word (hs : IsWord s) : Written [⟨gap, .word s⟩] :=
  singleton hs fun w hw hgap ↦ by
    obtain ⟨s, hs, -⟩ := hw hgap
    exact ⟨s, hs⟩

theorem string (hs : (Lexeme.string s).IsWritten) : Written [⟨gap, .string s⟩] :=
  singleton hs fun _ _ ↦ trivial

/-- After a sign other than a point, anything but an equals sign may stand. -/
theorem symbol (hs : s ∈ typeSymbols) (hp : s ≠ ".") (h : Written ws)
    (hw : ∀ w ∈ ws.head?, w.gap = .nothing → w.lexeme ≠ .symbol "=") :
    Written (⟨gap, .symbol s⟩ :: ws) := by
  refine ⟨List.forall_mem_cons.mpr ⟨hs, h.lexemes⟩, fun rest hrest hr ↦ ?_⟩
  have hchain := h.apart rest hrest hr
  cases ws with
  | nil =>
    cases rest with
    | nil => exact .singleton _
    | cons w rest =>
      exact List.isChain_cons_cons.mpr
        ⟨(Word.apart_symbol_iff hp).mpr (hr w rfl).ne_equals, hchain⟩
  | cons w ws =>
    exact List.isChain_cons_cons.mpr ⟨(Word.apart_symbol_iff hp).mpr (hw w rfl), hchain⟩

theorem point (h : Written (⟨.nothing, .word s⟩ :: ws)) :
    Written (⟨gap, .symbol "."⟩ :: ⟨.nothing, .word s⟩ :: ws) :=
  ⟨List.forall_mem_cons.mpr ⟨(by decide : "." ∈ typeSymbols), h.lexemes⟩, fun rest hrest hr ↦
    List.isChain_cons_cons.mpr ⟨⟨rfl, s, rfl⟩, h.apart rest hrest hr⟩⟩

theorem number {n : Nat} (h : Written (⟨.nothing, .symbol "]"⟩ :: ws)) :
    Written (⟨gap, .number (toString n)⟩ :: ⟨.nothing, .symbol "]"⟩ :: ws) :=
  ⟨List.forall_mem_cons.mpr ⟨⟨n, by simp⟩, h.lexemes⟩, fun rest hrest hr ↦
    List.isChain_cons_cons.mpr ⟨⟨rfl, rfl⟩, h.apart rest hrest hr⟩⟩

theorem bracketed {opening closing : String} (ho : opening ∈ typeSymbols) (hop : opening ≠ ".")
    (hc : closing ∈ typeSymbols) (hcp : closing ≠ ".") (hce : closing ≠ "=") (h : Written ws)
    (hw : ∀ w ∈ ws.head?, w.Follows) : Written (bracketed opening closing ws) := by
  have hlast {gap : Gap} : Written [⟨gap, .symbol closing⟩] :=
    nil.symbol hc hcp (by simp)
  have hne : Lexeme.symbol closing ≠ .symbol "=" := fun he ↦ hce (Lexeme.symbol.inj he)
  cases ws with
  | nil => exact hlast.symbol ho hop (by simpa using hne)
  | cons w ws =>
    have hclosing : Written [⟨.lineEnd, .symbol closing⟩] := hlast
    have hmembers := h.append hclosing (by simp [Word.Follows])
    exact hmembers.symbol ho hop fun w' hw' ↦ (hw w' hw').ne_equals

theorem isChain (h : Written ws) : (ws ++ [Word.eof]).IsChain Word.Apart :=
  h.apart _ (.singleton _) (by simp [Word.Follows, Word.eof])

end Written

end GoOpenApi.Go
