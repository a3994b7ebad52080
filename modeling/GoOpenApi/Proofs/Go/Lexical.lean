import GoOpenApi.Go.Token
import Mathlib.Data.List.TakeWhile

/-!
The words of a Go text are identifiers: no other lexeme reads as a word, so a word is not empty and
has neither blanks nor signs in it.
-/

namespace GoOpenApi.Go

/-- A character that may stand somewhere in an identifier. -/
def InIdentifier (c : Char) : Prop := Text.isIdentifierStart c ∨ Text.isIdentifierPart c

instance (c : Char) : Decidable (InIdentifier c) := inferInstanceAs (Decidable (_ ∨ _))

/-- A text that can be read as one word. -/
structure IsIdentifier (s : String) : Prop where
  ne_empty : s ≠ ""
  chars : ∀ c ∈ s.toList, InIdentifier c

section

variable {s : String}

theorem IsIdentifier.not_mem (h : IsIdentifier s) {c : Char} (hc : ¬InIdentifier c) :
    c ∉ s.toList :=
  mt (h.chars c) hc

theorem IsIdentifier.ne_hyphen (h : IsIdentifier s) : s ≠ "-" := by
  rintro rfl
  exact h.not_mem (by decide : ¬InIdentifier '-') (by decide)

theorem isIdentifier_of_letters (hs : s ≠ "") (h : s.toList.all Text.isAsciiLetter) :
    IsIdentifier s := by
  refine ⟨hs, fun c hc ↦ .inr ?_⟩
  simp [Text.isIdentifierPart, List.all_eq_true.mp h c hc]

theorem IsIdentifier.append_number (h : IsIdentifier s) (n : Nat) :
    IsIdentifier (s ++ toString n) := by
  refine ⟨fun he ↦ h.ne_empty (String.append_eq_empty_iff.mp he).1, fun c hm ↦ ?_⟩
  rw [String.toList_append] at hm
  rcases List.mem_append.mp hm with hm | hm
  · exact h.chars c hm
  · have hn : c ∈ Nat.toDigits 10 n := by simpa using hm
    have hd : c.isDigit := Nat.isDigit_of_mem_toDigits (by decide) (by decide) hn
    have ha : Text.isAsciiDigit c := by
      simpa [Text.isAsciiDigit, Char.isDigit, Char.le_def] using hd
    exact .inr (by simp [Text.isIdentifierPart, ha])

end

namespace Lexer

variable {cs rest : List Char} {w : String}

theorem isIdentifier_of_lexeme? (h : lexeme? cs = some (.word w, rest)) : IsIdentifier w := by
  unfold lexeme? at h
  dsimp only at h
  split at h
  · obtain ⟨_, -, h⟩ := Option.bind_eq_some_iff.mp h
    cases h
  · obtain ⟨_, -, h⟩ := Option.bind_eq_some_iff.mp h
    cases h
  · rename_i c body _ _
    split at h
    · obtain ⟨_, -, h⟩ := Option.bind_eq_some_iff.mp h
      cases h
    · split at h
      · rename_i hs
        cases h
        refine ⟨by simp, fun c' hm ↦ ?_⟩
        rw [String.toList_ofList] at hm
        rcases List.mem_cons.mp hm with rfl | hm
        · exact .inl hs
        · exact .inr (List.mem_takeWhile_imp hm)
      · split at h
        · cases h
        · obtain ⟨_, -, h⟩ := Option.map_eq_some_iff.mp h
          cases h
  · cases h

theorem isIdentifier_of_piece? (h : piece? cs = some (.lexeme (.word w), rest)) :
    IsIdentifier w := by
  have hl {cs : List Char}
      (h : (lexeme? cs).map (fun r ↦ (Piece.lexeme r.1, r.2)) = some (.lexeme (.word w), rest)) :
      IsIdentifier w := by
    obtain ⟨⟨l, rest'⟩, hl, h⟩ := Option.map_eq_some_iff.mp h
    cases h
    exact isIdentifier_of_lexeme? hl
  unfold piece? at h
  split at h
  · cases h
  · cases h
  · split at h
    · cases h
    · exact hl h
  · split at h
    · cases h
    · exact hl h
  · cases h

theorem isIdentifier_of_piecesWithin? {n : Nat} {ps : List Piece}
    (h : piecesWithin? n cs = some ps) : ∀ w, .lexeme (.word w) ∈ ps → IsIdentifier w := by
  induction n generalizing cs ps with
  | zero =>
    cases cs <;> cases h
    nofun
  | succ n ih =>
    cases cs with
    | nil =>
      cases h
      nofun
    | cons c cs =>
      obtain ⟨⟨piece, rest⟩, hp, h⟩ := Option.bind_eq_some_iff.mp h
      obtain ⟨ps', hps, h⟩ := Option.bind_eq_some_iff.mp h
      cases h
      intro w hw
      rcases List.mem_cons.mp hw with rfl | hw
      · exact isIdentifier_of_piece? hp
      · exact ih hps w hw

end Lexer

/-- The words among tokens are identifiers. -/
def Lexical (ts : List Token) : Prop := ∀ t ∈ ts, ∀ w, t.lexeme = .word w → IsIdentifier w

namespace Token

theorem lexical_ofPiecesFrom {ps : List Piece}
    (h : ∀ w, .lexeme (.word w) ∈ ps → IsIdentifier w) (row lastRow : Nat)
    (comments : List Comment) (newline spaced : Bool) :
    Lexical (ofPiecesFrom row lastRow comments newline spaced ps) := by
  induction ps generalizing row lastRow comments newline spaced with
  | nil =>
    intro t ht w hw
    cases List.mem_singleton.mp ht
    cases hw
  | cons piece ps ih =>
    have ih := ih fun w hw ↦ h w (List.mem_cons_of_mem _ hw)
    cases piece with
    | blank | lineFeed | comment => exact ih _ _ _ _ _
    | lexeme l =>
      intro t ht w hw
      rcases List.mem_cons.mp ht with rfl | ht
      · exact h w (by rw [← hw]; exact List.mem_cons_self)
      · exact ih _ _ _ _ _ t ht w hw

theorem lexical_ofText? {s : String} {ts : List Token} (h : ofText? s = some ts) : Lexical ts := by
  obtain ⟨ps, hp, rfl⟩ := Option.map_eq_some_iff.mp h
  exact lexical_ofPiecesFrom (Lexer.isIdentifier_of_piecesWithin? hp) _ _ _ _ _

end Token

end GoOpenApi.Go
