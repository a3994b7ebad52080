import GoOpenApi.Go.SourceText
import GoOpenApi.Proofs.Go.Layout

/-!
Parsers that take the tokens of given words and leave what follows. All that a parser may ask of
the token after its words is a condition on the lexeme and on whether a line ends before it.
-/

namespace GoOpenApi.Go

open GoOpenApi.Go.Parser

/-- A condition on a lexeme and on whether a line ends before it. -/
abbrev Follow := Lexeme → Bool → Prop

/-- Every token may follow. -/
def Follow.any : Follow := fun _ _ ↦ True

/-- A line ends. -/
def Follow.newline : Follow := fun _ newline ↦ newline = true

/-- The first of the words satisfies `P`; where there is none, what follows does so by `Q`. -/
def Follow.Met (P : Follow) : List Word → Follow → Prop
  | [], Q => ∀ l newline, Q l newline → P l newline
  | w :: _, _ => P w.lexeme (w.gap == .lineEnd)

/-! ### Tokens and words -/

theorem spells_nil {ts : List Token} : Spells ts [] ↔ ts = [] := by
  simp [Spells]

theorem Token.seen_eq {t : Token} {w : Word} (h : t.seen = w.seen) :
    t.lexeme = w.lexeme ∧ t.newline = (w.gap == .lineEnd) ∧ t.comments = [] := by
  simpa [Token.seen, Word.seen] using h

theorem Spells.exists_cons {ts : List Token} {w : Word} {ws : List Word}
    (h : Spells ts (w :: ws)) : ∃ t ts', ts = t :: ts' ∧ t.seen = w.seen ∧ Spells ts' ws := by
  cases ts with
  | nil => cases h
  | cons t ts =>
    obtain ⟨ht, hts⟩ := List.cons.inj h
    exact ⟨t, ts, rfl, ht, hts⟩

theorem Spells.exists_append {ts : List Token} {ws vs : List Word} (h : Spells ts (ws ++ vs)) :
    ∃ ts₁ ts₂, ts = ts₁ ++ ts₂ ∧ Spells ts₁ ws ∧ Spells ts₂ vs := by
  rw [Spells, List.map_append, List.map_eq_append_iff] at h
  exact h

theorem Spells.length_eq {ts : List Token} {ws : List Word} (h : Spells ts ws) :
    ts.length = ws.length := by
  simpa using congrArg List.length h

theorem Follow.Met.nil {P Q : Follow} (h : ∀ l newline, Q l newline → P l newline) :
    P.Met [] Q :=
  h

theorem Follow.Met.head {P Q : Follow} {ws : List Word} (h : P.Met ws Q) {ts : List Token}
    {t : Token} (hs : Spells ts ws) (hQ : Q t.lexeme t.newline) (rest : List Token) :
    ∃ t' rest', ts ++ t :: rest = t' :: rest' ∧ P t'.lexeme t'.newline := by
  cases ws with
  | nil =>
    obtain rfl := spells_nil.mp hs
    exact ⟨t, rest, rfl, h _ _ hQ⟩
  | cons w ws =>
    obtain ⟨t', ts', rfl, ht, -⟩ := hs.exists_cons
    obtain ⟨hl, hn, -⟩ := Token.seen_eq ht
    refine ⟨t', ts' ++ t :: rest, rfl, ?_⟩
    rw [hl, hn]
    exact h

theorem Follow.Met.any {ws : List Word} {Q : Follow} : Follow.any.Met ws Q := by
  cases ws with
  | nil => exact fun _ _ _ ↦ trivial
  | cons => trivial

namespace Parser

/-- From the words the parser makes the value. -/
def Reads {α : Type} (p : Parser α) (line : Bool) (ws : List Word) (a : α) (P : Follow) : Prop :=
  ∀ ts t rest, Spells ts ws → P t.lexeme t.newline → p line (ts ++ t :: rest) = some (a, t :: rest)

/-- The parser does not read the words. -/
def Fails {α : Type} (p : Parser α) (line : Bool) (ws : List Word) (P : Follow) : Prop :=
  ∀ ts t rest, Spells ts ws → P t.lexeme t.newline → p line (ts ++ t :: rest) = none

variable {α β : Type} {p q : Parser α} {f : α → Parser β} {line : Bool} {w : Word}
  {ws vs : List Word} {a : α} {b : β} {P Q R : Follow}

theorem bind_of_some {ts rest : List Token} (h : p line ts = some (a, rest)) :
    (p >>= f) line ts = f a line rest := by
  change Parser.bind p f line ts = _
  rw [Parser.bind, h]

theorem bind_of_none {ts : List Token} (h : p line ts = none) : (p >>= f) line ts = none := by
  change Parser.bind p f line ts = _
  rw [Parser.bind, h]

theorem orElse_of_some {ts : List Token} {r : α × List Token} (h : p line ts = some r) :
    (p <|> q) line ts = some r := by
  change Parser.orElse p (fun _ ↦ q) line ts = _
  rw [Parser.orElse, h]

theorem orElse_of_none {ts : List Token} (h : p line ts = none) :
    (p <|> q) line ts = q line ts := by
  change Parser.orElse p (fun _ ↦ q) line ts = _
  rw [Parser.orElse, h]

theorem peek_cons (t : Token) (rest : List Token) :
    peek line (t :: rest) = some (t, t :: rest) :=
  rfl

/-! ### Sequences and alternatives -/

theorem Reads.pure : Reads (Pure.pure a) line [] a P := by
  intro ts t rest hs _
  obtain rfl := spells_nil.mp hs
  rfl

theorem Reads.mono (h : Reads p line ws a P) (hP : ∀ l newline, Q l newline → P l newline) :
    Reads p line ws a Q :=
  fun ts t rest hs ht ↦ h ts t rest hs (hP _ _ ht)

theorem Reads.bind (h : Reads p line ws a P) (hf : Reads (f a) line vs b Q) (hP : P.Met vs Q) :
    Reads (p >>= f) line (ws ++ vs) b Q := by
  intro ts t rest hs ht
  obtain ⟨ts₁, ts₂, rfl, hs₁, hs₂⟩ := hs.exists_append
  obtain ⟨t', rest', he, hP⟩ := hP.head hs₂ ht rest
  have hp := h ts₁ t' rest' hs₁ hP
  rw [← he, ← List.append_assoc] at hp
  rw [bind_of_some hp]
  exact hf ts₂ t rest hs₂ ht

/-- A step that takes nothing. -/
theorem Reads.bind_nil (h : Reads p line ws a P) (hf : Reads (f a) line [] b P) :
    Reads (p >>= f) line ws b P := by
  have hb := h.bind hf fun _ _ h ↦ h
  rwa [List.append_nil] at hb

/-- The last step of a rule. -/
theorem Reads.bind_pure {g : α → β} (h : Reads p line ws a P) :
    Reads (p >>= fun a ↦ Pure.pure (g a)) line ws (g a) P :=
  h.bind_nil .pure

theorem Fails.bind (h : Fails p line ws P) : Fails (p >>= f) line ws P :=
  fun ts t rest hs ht ↦ bind_of_none (h ts t rest hs ht)

theorem Reads.bind_fails (h : Reads p line ws a P) (hf : Fails (f a) line vs Q)
    (hP : P.Met vs Q) : Fails (p >>= f) line (ws ++ vs) Q := by
  intro ts t rest hs ht
  obtain ⟨ts₁, ts₂, rfl, hs₁, hs₂⟩ := hs.exists_append
  obtain ⟨t', rest', he, hP⟩ := hP.head hs₂ ht rest
  have hp := h ts₁ t' rest' hs₁ hP
  rw [← he, ← List.append_assoc] at hp
  rw [bind_of_some hp]
  exact hf ts₂ t rest hs₂ ht

theorem Reads.orElse_left (h : Reads p line ws a P) : Reads (p <|> q) line ws a P :=
  fun ts t rest hs ht ↦ orElse_of_some (h ts t rest hs ht)

theorem Reads.orElse_right (hp : Fails p line ws P) (hq : Reads q line ws a P) :
    Reads (p <|> q) line ws a P :=
  fun ts t rest hs ht ↦ (orElse_of_none (hp ts t rest hs ht)).trans (hq ts t rest hs ht)

theorem Fails.orElse (hp : Fails p line ws P) (hq : Fails q line ws P) :
    Fails (p <|> q) line ws P :=
  fun ts t rest hs ht ↦ (orElse_of_none (hp ts t rest hs ht)).trans (hq ts t rest hs ht)

theorem Reads.within {line' : Bool} (h : Reads p line ws a P) :
    Reads (Parser.within line p) line' ws a P :=
  h

theorem Reads.peek_bind {f : Token → Parser β}
    (h : ∀ t, t.lexeme = w.lexeme → Reads (f t) line (w :: ws) b P) :
    Reads (peek >>= f) line (w :: ws) b P := by
  intro ts t rest hs ht
  obtain ⟨t', ts', rfl, ht', -⟩ := hs.exists_cons
  exact h t' (Token.seen_eq ht').1 _ t rest hs ht

theorem Fails.peek_bind {f : Token → Parser β} (h : R.Met ws P)
    (hf : ∀ t, R t.lexeme t.newline → Fails (f t) line ws P) :
    Fails (peek >>= f) line ws P := by
  intro ts t rest hs ht
  obtain ⟨t', rest', he, hR⟩ := h.head hs ht rest
  have hfail := hf t' hR ts t rest hs ht
  rw [he] at hfail ⊢
  exact (bind_of_some (peek_cons _ _)).trans hfail

theorem fails_fail : Fails (fail : Parser α) line ws P :=
  fun _ _ _ _ _ ↦ rfl

/-! ### Single words -/

theorem Reads.accept {f : Token → Option α} (h : ∀ t, t.lexeme = w.lexeme → f t = some a) :
    Reads (Parser.accept f) line [w] a P := by
  intro ts t rest hs _
  obtain ⟨t', ts', rfl, ht', hs'⟩ := hs.exists_cons
  obtain rfl := spells_nil.mp hs'
  simp [Parser.accept, h t' (Token.seen_eq ht').1]

theorem Fails.accept {f : Token → Option α}
    (h : Follow.Met (fun l _ ↦ ∀ t : Token, t.lexeme = l → f t = none) ws P) :
    Fails (Parser.accept f) line ws P := by
  intro ts t rest hs ht
  obtain ⟨t', rest', he, hf⟩ := h.head hs ht rest
  simp [he, Parser.accept, hf t' rfl]

theorem lexeme_cons {l : Lexeme} {t : Token} (h : t.lexeme = l) (rest : List Token) :
    Parser.lexeme l line (t :: rest) = some (t, rest) := by
  simp [Parser.lexeme, Parser.accept, h]

theorem symbol_cons {s : String} {t : Token} (h : t.lexeme = .symbol s) (rest : List Token) :
    symbol s line (t :: rest) = some ((), rest) :=
  bind_of_some (lexeme_cons h rest)

theorem reads_symbol {s : String} (hw : w.lexeme = .symbol s) :
    Reads (symbol s) line [w] () P := by
  intro ts t rest hs _
  obtain ⟨t', ts', rfl, ht', hs'⟩ := hs.exists_cons
  obtain rfl := spells_nil.mp hs'
  exact symbol_cons ((Token.seen_eq ht').1.trans hw) _

theorem reads_keyword {s : String} (hw : w.lexeme = .word s) :
    Reads (keyword s) line [w] () P := by
  intro ts t rest hs _
  obtain ⟨t', ts', rfl, ht', hs'⟩ := hs.exists_cons
  obtain rfl := spells_nil.mp hs'
  exact bind_of_some (lexeme_cons ((Token.seen_eq ht').1.trans hw) _)

theorem reads_anyWord {s : String} (hw : w.lexeme = .word s) :
    Reads anyWord line [w] s P :=
  .accept fun t ht ↦ by simp [ht, hw]

theorem reads_identifier {s : String} (hw : w.lexeme = .word s) (hs : s ∉ typeKeywords) :
    Reads identifier line [w] s P :=
  .accept fun t ht ↦ by simp [ht, hw, hs]

theorem reads_stringLiteral {s : String} (hw : w.lexeme = .string s) :
    Reads stringLiteral line [w] s P :=
  .accept fun t ht ↦ by simp [ht, hw]

theorem symbol_cons_of_ne {s : String} {t : Token} (h : t.lexeme ≠ .symbol s)
    (rest : List Token) : symbol s line (t :: rest) = none :=
  bind_of_none (by simp [Parser.lexeme, Parser.accept, h])

theorem fails_symbol {s : String} (h : Follow.Met (fun l _ ↦ l ≠ .symbol s) ws P) :
    Fails (symbol s) line ws P := by
  intro ts t rest hs ht
  obtain ⟨t', rest', he, hl⟩ := h.head hs ht rest
  rw [he]
  exact symbol_cons_of_ne hl rest'

/-! ### What may be there and what may be repeated -/

theorem Reads.optional_some (h : Reads p line (w :: ws) a P)
    (hw : line = true → w.gap ≠ .lineEnd) :
    Reads (Parser.optional p) line (w :: ws) (some a) P := by
  intro ts t rest hs ht
  have hp := h ts t rest hs ht
  obtain ⟨t', ts', rfl, ht', -⟩ := hs.exists_cons
  obtain ⟨-, hn, -⟩ := Token.seen_eq ht'
  have hline : (line && t'.newline) = false := by
    cases line with
    | false => rfl
    | true => simpa [hn] using hw rfl
  rw [List.cons_append] at hp ⊢
  simp [Parser.optional, hline, hp]

theorem optional_of_none {t : Token} {rest : List Token} (h : p line (t :: rest) = none) :
    Parser.optional p line (t :: rest) = some (none, t :: rest) := by
  simp [Parser.optional, h]

/-- Nothing more is read at the end of a line that counts, or where the parser fails. -/
theorem Reads.optional_none (h : Fails p line [] R)
    (hP : ∀ l newline, P l newline → (line && newline) = true ∨ R l newline) :
    Reads (Parser.optional p) line [] none P := by
  intro ts t rest hs ht
  obtain rfl := spells_nil.mp hs
  rcases hP _ _ ht with hline | hR
  · simp [Parser.optional, hline]
  · exact optional_of_none (h [] t rest hs hR)

theorem length_le_length_flatMap {ι : Type} {items : List ι} {words : ι → List Word}
    (h : ∀ i ∈ items, words i ≠ []) : items.length ≤ (items.flatMap words).length := by
  induction items with
  | nil => exact Nat.le_refl 0
  | cons i items ih =>
    obtain ⟨hi, his⟩ := List.forall_mem_cons.mp h
    have hpos := List.length_pos_iff.mpr hi
    have hle := ih his
    rw [List.flatMap_cons, List.length_append, List.length_cons]
    omega

theorem Reads.many_nil (h : Fails p line [] P) : Reads (many p) line [] [] P := by
  intro ts t rest hs ht
  obtain rfl := spells_nil.mp hs
  exact bind_of_some (Reads.optional_none h (fun _ _ h ↦ .inr h) [] t rest hs ht)

/-- Items one after the other, each of which begins as `R` says, and none of them where `P`
holds. -/
theorem Reads.many {ι : Type} {items : List ι} {words : ι → List Word} {value : ι → α}
    (h : ∀ i ∈ items, Reads p false (words i) (value i) R)
    (hR : ∀ i ∈ items, ∃ w ws, words i = w :: ws ∧ R w.lexeme (w.gap == .lineEnd))
    (hP : ∀ l newline, P l newline → R l newline) (hend : Fails p false [] P) :
    Reads (Parser.many p) false (items.flatMap words) (items.map value) P := by
  have hfuel (fuel : List Token) (hlen : items.length < fuel.length) :
      Reads (manyWithin p fuel) false (items.flatMap words) (items.map value) P := by
    induction items generalizing fuel with
    | nil =>
      cases fuel with
      | nil => cases hlen
      | cons t fuel =>
        exact (Reads.optional_none hend fun _ _ h ↦ .inr h).bind .pure fun _ _ h ↦ h
    | cons i items ih =>
      obtain ⟨hi, his⟩ := List.forall_mem_cons.mp h
      obtain ⟨⟨w, ws, hw, -⟩, hRs⟩ := List.forall_mem_cons.mp hR
      cases fuel with
      | nil => cases hlen
      | cons t fuel =>
        have hmet : R.Met (items.flatMap words) P := by
          cases items with
          | nil => exact hP
          | cons next items =>
            obtain ⟨w, ws, hw, hRw⟩ := hRs next List.mem_cons_self
            rw [List.flatMap_cons, hw]
            exact hRw
        rw [hw] at hi
        rw [List.flatMap_cons, hw]
        exact (hi.optional_some nofun).bind
          (ih his hRs fuel (Nat.lt_of_succ_lt_succ hlen)).bind_pure hmet
  intro ts t rest hs ht
  have hle := length_le_length_flatMap fun i hi ↦ by
    obtain ⟨w, ws, hw, -⟩ := hR i hi
    exact hw ▸ List.cons_ne_nil w ws
  refine hfuel _ ?_ ts t rest hs ht
  rw [List.length_append, hs.length_eq, List.length_cons]
  omega

/-- Nothing more can be read before the end of a line that counts. -/
theorem Reads.optional_newline : Reads (Parser.optional p) true [] none .newline :=
  .optional_none (R := fun _ _ ↦ False) (fun _ _ _ _ h ↦ h.elim) fun _ _ h ↦ .inl h

theorem fails_comma (hP : ∀ l newline, P l newline → l ≠ .symbol ",") :
    Fails (do symbol ","; p) line [] P :=
  Fails.bind (fails_symbol (.nil hP))

theorem Reads.commaList_singleton (h : Reads p line ws a P)
    (hP : ∀ l newline, P l newline → l ≠ .symbol ",") : Reads (commaList p) line ws [a] P :=
  h.bind_nil (Reads.many_nil (fails_comma hP)).bind_pure

/-- Items with commas between them, where each is read before a comma and where `P` holds. -/
theorem Reads.commaList {ι : Type} {items : List ι} {words : ι → List Word} {value : ι → α}
    (hf : Reads p false ws a R) (h : ∀ i ∈ items, Reads p false (words i) (value i) R)
    (hR : R (.symbol ",") false) (hPR : ∀ l newline, P l newline → R l newline)
    (hP : ∀ l newline, P l newline → l ≠ .symbol ",") :
    Reads (Parser.commaList p) false
      (ws ++ items.flatMap fun i ↦ ⟨.nothing, .symbol ","⟩ :: words i)
      (a :: items.map value) P := by
  have hmany : Reads (Parser.many do symbol ","; p) false
      (items.flatMap fun i ↦ ⟨.nothing, .symbol ","⟩ :: words i) (items.map value) P :=
    .many (fun i hi ↦ (reads_symbol rfl).bind (h i hi) .any) (fun i _ ↦ ⟨_, _, rfl, hR⟩) hPR
      (fails_comma hP)
  refine hf.bind hmany.bind_pure ?_
  cases items with
  | nil => exact hPR
  | cons => exact hR

/-- Between brackets with nothing in them. -/
theorem Reads.looseList_nil (h : Fails p false [] P)
    (hP : ∀ l newline, P l newline → l ≠ .symbol ",") : Reads (looseList p) false [] [] P := by
  have hitems : Fails (Parser.commaList p) false [] P := h.bind
  have hcomma : Reads (Parser.optional (symbol ",")) false [] none P :=
    .optional_none (fails_symbol (.nil hP)) fun _ _ h ↦ .inr h
  exact (Reads.optional_none hitems fun _ _ h ↦ .inr h).bind_nil hcomma.bind_pure

theorem Reads.looseList {as : List α} (h : Reads (Parser.commaList p) false (w :: ws) as P)
    (hP : ∀ l newline, P l newline → l ≠ .symbol ",") :
    Reads (Parser.looseList p) false (w :: ws) as P := by
  have hcomma : Reads (Parser.optional (symbol ",")) false [] none P :=
    .optional_none (fails_symbol (.nil hP)) fun _ _ h ↦ .inr h
  exact (h.optional_some nofun).bind_nil hcomma.bind_pure

theorem Reads.between {opening closing : String} {first last : Word}
    (hf : first.lexeme = .symbol opening) (hl : last.lexeme = .symbol closing)
    (h : Reads p false ws a Q) (hQ : Q last.lexeme (last.gap == .lineEnd)) :
    Reads (Parser.between opening closing p) line (first :: (ws ++ [last])) a P :=
  (reads_symbol (P := .any) hf).bind
    (h.within.bind (reads_symbol hl).bind_pure hQ) .any

/-! ### Members between brackets -/

/-- The sibling is a member with the value. -/
def IsNode (s : Sibling α) (a : α) : Prop := ∃ row endRow, s = .node row endRow a

theorem membersFrom_of_nodes {siblings : List (Sibling α)} {as : List α}
    (h : List.Forall₂ IsNode siblings as) {before : List (Sibling α)}
    (hb : ∀ row, docsAbove row before = []) :
    membersFrom before siblings = as.map (([], ·)) := by
  induction h generalizing before with
  | nil => rfl
  | cons hs _ ih =>
    obtain ⟨row, endRow, rfl⟩ := hs
    rw [membersFrom, hb, ih fun _ ↦ rfl, List.map_cons]

/-- Members without comments between them have no docs. -/
theorem documented_of_nodes {siblings : List (Sibling α)} {as : List α}
    (h : List.Forall₂ IsNode siblings as) : documented siblings = as.map (([], ·)) :=
  membersFrom_of_nodes h fun _ ↦ rfl

theorem sibling_cons {first t : Token} {ts rest : List Token}
    (h : p line (first :: ts) = some (a, t :: rest)) (hc : first.comments = []) :
    ∃ s, IsNode s a ∧ sibling p line (first :: ts) = some ([s], t :: rest) := by
  refine ⟨.node first.row t.lastRow a, ⟨_, _, rfl⟩, ?_⟩
  rw [sibling, bind_of_some (peek_cons _ _), bind_of_some h, bind_of_some (peek_cons _ _), hc]
  rfl

theorem sibling_eq {ts : List Token} {t : Token} (h : Reads p line (w :: ws) a P)
    (hs : Spells ts (w :: ws)) (ht : P t.lexeme t.newline) (rest : List Token) :
    ∃ s, IsNode s a ∧ sibling p line (ts ++ t :: rest) = some ([s], t :: rest) := by
  have hp := h ts t rest hs ht
  obtain ⟨t', ts', rfl, ht', -⟩ := hs.exists_cons
  exact sibling_cons hp (Token.seen_eq ht').2.2

/-- A word that begins a member. -/
def BeginsMember (closing : String) (w : Word) : Prop :=
  w.gap = .lineEnd ∧ w.lexeme ≠ .symbol closing ∧ w.lexeme ≠ .symbol ";"

theorem terminator_newline {t : Token} {rest : List Token} (hl : t.lexeme ≠ .symbol ";")
    (hn : t.newline = true) : terminator line (t :: rest) = some ([], t :: rest) := by
  simp [terminator, hl, hn]

variable {ι : Type} {items : List ι} {words : ι → List Word} {value : ι → α}
  {opening closing : String}

/-- After a member another one begins, or the list is closed. -/
theorem exists_member_or_closing
    (hw : ∀ i ∈ items, ∃ w ws, words i = w :: ws ∧ BeginsMember closing w) {ts : List Token}
    {t : Token} (hs : Spells ts (items.flatMap words)) (ht : t.lexeme = .symbol closing)
    (hn : t.newline = true) (rest : List Token) :
    ∃ t' rest', ts ++ t :: rest = t' :: rest' ∧ t'.newline = true ∧
      (items = [] ∧ t'.lexeme = .symbol closing ∨
        t'.lexeme ≠ .symbol closing ∧ t'.lexeme ≠ .symbol ";") := by
  cases items with
  | nil =>
    obtain rfl := spells_nil.mp hs
    exact ⟨t, rest, rfl, hn, .inl ⟨rfl, ht⟩⟩
  | cons next items =>
    obtain ⟨w, ws, hwords, hgap, hsymbols⟩ := hw next List.mem_cons_self
    rw [List.flatMap_cons, hwords] at hs
    obtain ⟨t', ts', rfl, ht', -⟩ := hs.exists_cons
    obtain ⟨hl, hn', -⟩ := Token.seen_eq ht'
    refine ⟨t', _, rfl, by rw [hn', hgap]; rfl, .inr ?_⟩
    rwa [hl]

theorem membersWithin_eq (h : ∀ i ∈ items, Reads p true (words i) (value i) .newline)
    (hw : ∀ i ∈ items, ∃ w ws, words i = w :: ws ∧ BeginsMember closing w)
    {fuel : List Token} (hlen : items.length < fuel.length) {ts : List Token} {t : Token}
    (rest : List Token) (hs : Spells ts (items.flatMap words)) (ht : t.lexeme = .symbol closing)
    (hn : items ≠ [] → t.newline = true) :
    ∃ siblings, List.Forall₂ IsNode siblings (items.map value) ∧
      membersWithin closing false p fuel true (ts ++ t :: rest) = some (siblings, t :: rest) := by
  induction items generalizing fuel ts with
  | nil =>
    obtain rfl := spells_nil.mp hs
    cases fuel with
    | nil => cases hlen
    | cons _ fuel =>
      refine ⟨[], .nil, ?_⟩
      rw [List.nil_append, membersWithin, bind_of_some (peek_cons _ _), if_pos ht]
      rfl
  | cons i items ih =>
    obtain ⟨hi, his⟩ := List.forall_mem_cons.mp h
    obtain ⟨⟨w, ws, hwi, -, hclosing, -⟩, hws⟩ := List.forall_mem_cons.mp hw
    cases fuel with
    | nil => cases hlen
    | cons _ fuel =>
      rw [List.flatMap_cons] at hs
      obtain ⟨ts₁, ts₂, rfl, hs₁, hs₂⟩ := hs.exists_append
      obtain ⟨t', rest', he, hn', hlast⟩ :=
        exists_member_or_closing hws hs₂ ht (hn (List.cons_ne_nil _ _)) rest
      rw [hwi] at hi hs₁
      obtain ⟨s, hnode, hsibling⟩ := sibling_eq hi hs₁ hn' rest'
      obtain ⟨t₁, ts₁', rfl, ht₁, -⟩ := hs₁.exists_cons
      have hl₁ : t₁.lexeme ≠ .symbol closing := (Token.seen_eq ht₁).1 ▸ hclosing
      rw [List.append_assoc, he, List.cons_append, membersWithin, bind_of_some (peek_cons _ _),
        if_neg hl₁, ← List.cons_append, bind_of_some hsibling, bind_of_some (peek_cons _ _)]
      rcases hlast with ⟨rfl, hl'⟩ | ⟨hl', hsemicolon⟩
      · obtain rfl := spells_nil.mp hs₂
        obtain ⟨rfl, rfl⟩ := List.cons.inj he
        refine ⟨[s], .cons hnode .nil, ?_⟩
        rw [if_pos (by simp [hl'])]
        rfl
      · obtain ⟨siblings, hnodes, hrest⟩ :=
          ih his hws (Nat.lt_of_succ_lt_succ hlen) hs₂ fun _ ↦ hn (List.cons_ne_nil _ _)
        refine ⟨s :: siblings, .cons hnode hnodes, ?_⟩
        rw [if_neg (by simp [hl']), bind_of_some (terminator_newline hsemicolon hn'), ← he,
          bind_of_some hrest]
        rfl

/-- Members between brackets, with their values and no docs. -/
theorem members_eq (h : ∀ i ∈ items, Reads p true (words i) (value i) .newline)
    (hw : ∀ i ∈ items, ∃ w ws, words i = w :: ws ∧ BeginsMember closing w) {ts : List Token}
    (hs : Spells ts (bracketed opening closing (items.flatMap words))) (t : Token)
    (rest : List Token) :
    ∃ siblings, documented siblings = items.map (fun i ↦ ([], value i)) ∧
      Parser.members opening closing false p line (ts ++ t :: rest) =
        some (siblings, t :: rest) := by
  obtain ⟨first, last, heq, hf, hl, hgap⟩ :=
    exists_bracketed_eq opening closing (items.flatMap words)
  rw [heq] at hs
  obtain ⟨t₁, ts', rfl, ht₁, hs⟩ := hs.exists_cons
  obtain ⟨ts₁, ts₂, rfl, hs₁, hs₂⟩ := hs.exists_append
  obtain ⟨t₂, ts', rfl, ht₂, hs₂⟩ := hs₂.exists_cons
  obtain rfl := spells_nil.mp hs₂
  obtain ⟨hl₁, -, -⟩ := Token.seen_eq ht₁
  obtain ⟨hl₂, hn₂, -⟩ := Token.seen_eq ht₂
  have hne : ∀ i ∈ items, words i ≠ [] := fun i hi ↦ by
    obtain ⟨w, ws, hw, -⟩ := hw i hi
    exact hw ▸ List.cons_ne_nil w ws
  have hle := length_le_length_flatMap hne
  have hn : items ≠ [] → t₂.newline = true := by
    intro hitems
    rw [hn₂, hgap ?_, beq_self_eq_true]
    intro hws
    rw [hws] at hle
    exact hitems (List.length_eq_zero_iff.mp (Nat.le_zero.mp hle))
  have hlen : items.length < (ts₁ ++ t₂ :: t :: rest).length := by
    rw [List.length_append, hs₁.length_eq, List.length_cons]
    omega
  obtain ⟨siblings, hnodes, hmembers⟩ :=
    membersWithin_eq h hw hlen (t :: rest) hs₁ (hl₂.trans hl) hn
  refine ⟨siblings, by rw [documented_of_nodes hnodes, List.map_map]; rfl, ?_⟩
  have hwithin : Parser.within true (fun line ts ↦ membersWithin closing false p ts line ts) line
      (ts₁ ++ t₂ :: t :: rest) = some (siblings, t₂ :: t :: rest) := hmembers
  rw [List.cons_append, List.append_assoc, Parser.members,
    bind_of_some (symbol_cons (hl₁.trans hf) _)]
  refine (bind_of_some hwithin).trans ?_
  exact bind_of_some (symbol_cons (hl₂.trans hl) _)

end Parser

end GoOpenApi.Go
