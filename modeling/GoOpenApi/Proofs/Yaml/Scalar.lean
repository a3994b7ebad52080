import GoOpenApi.Proofs.Text.Number
import GoOpenApi.Yaml.Scalar

/-!
Scalars are told from what follows them. Where two scalars with their rests are one text, the
scalars are in one style and have one content, and the rests agree.
-/

namespace GoOpenApi.Yaml

variable {a b cs cs' r r' : List Char} {n n' : Nat}

/-! ### Texts up to a mark -/

/-- The text `a ++ r` satisfies `p` where `r` begins, and nowhere before. -/
def Stops (p : List Char → Prop) : List Char → List Char → Prop
  | [], r => p r
  | c :: a, r => ¬p (c :: a ++ r) ∧ Stops p a r

theorem Stops.unique {p : List Char → Prop} (ha : Stops p a r) (hb : Stops p b r')
    (h : a ++ r = b ++ r') : a = b ∧ r = r' := by
  induction a generalizing b with
  | nil =>
    cases b with
    | nil => exact ⟨rfl, h⟩
    | cons d b =>
      rw [List.nil_append] at h
      exact absurd (h ▸ ha) hb.1
  | cons c a ih =>
    cases b with
    | nil =>
      rw [List.nil_append] at h
      exact absurd (h ▸ hb) ha.1
    | cons d b =>
      obtain ⟨rfl, htail⟩ := List.cons.inj h
      obtain ⟨rfl, hr⟩ := ih ha.2 hb.2 htail
      exact ⟨rfl, hr⟩

/-- What stands before the first occurrence of a character. -/
theorem split_unique {c : Char} (ha : c ∉ a) (hb : c ∉ b) (h : a ++ c :: r = b ++ c :: r') :
    a = b ∧ r = r' := by
  have stops {a r : List Char} (ha : c ∉ a) : Stops (·.head? = some c) a (c :: r) := by
    induction a with
    | nil => rfl
    | cons d a ih =>
      obtain ⟨hd, ha⟩ := not_or.mp (List.mem_cons.not.mp ha)
      exact ⟨fun he ↦ hd (Option.some.inj he).symm, ih ha⟩
  obtain ⟨rfl, hr⟩ := (stops ha).unique (stops hb) h
  exact ⟨rfl, (List.cons.inj hr).2⟩

/-! ### Plain scalars -/

/-- A plain scalar ends here: at a line feed, or at a colon before a blank. -/
def isEnd : List Char → Bool
  | '\n' :: _ => true
  | ':' :: cs => beginsBlank cs
  | _ => false

theorem beginsBlank_append (h : beginsBlank cs = false) (r : List Char) :
    beginsBlank (cs ++ r) = false := by
  cases cs with
  | nil => simp [beginsBlank] at h
  | cons c cs => simpa [beginsBlank] using h

theorem stops_of_holdsIndicated (hn : '\n' ∉ cs) (hi : holdsIndicated cs = false)
    (hr : isEnd r) : Stops (isEnd ·) cs r := by
  induction cs with
  | nil => exact hr
  | cons c cs ih =>
    obtain ⟨hc, hn⟩ := not_or.mp (List.mem_cons.not.mp hn)
    have hrest : holdsIndicated cs = false := by
      unfold holdsIndicated at hi
      split at hi <;> simp_all
    refine ⟨?_, ih hn hrest⟩
    by_cases hcolon : c = ':'
    · subst hcolon
      rw [holdsIndicated, Bool.or_eq_false_iff] at hi
      simp [isEnd, beginsBlank_append hi.1]
    · simp [isEnd, Ne.symm hc, hcolon]

/-! ### Quoted scalars -/

/-- A character between single quotes. -/
def doubled (c : Char) : List Char := if c = '\'' then ['\'', '\''] else [c]

theorem head?_doubled_append (c : Char) (r : List Char) : (doubled c ++ r).head? = some c := by
  unfold doubled
  split <;> simp_all

theorem singleQuotedBody_eq (h : ∀ c ∈ cs, isBreak c = false) :
    singleQuotedBody n false cs = cs.flatMap doubled := by
  induction cs with
  | nil => rfl
  | cons c cs ih =>
    obtain ⟨hc, hcs⟩ := List.forall_mem_cons.mp h
    simp [singleQuotedBody, hc, ih hcs, doubled]

theorem singleQuoted_unique (hr : r.head? ≠ some '\'') (hr' : r'.head? ≠ some '\'')
    (h : cs.flatMap doubled ++ '\'' :: r = cs'.flatMap doubled ++ '\'' :: r') :
    cs = cs' ∧ r = r' := by
  -- a quote that ends a body is not doubled
  have ends {c : Char} {cs r r' : List Char} (hr : r.head? ≠ some '\'') :
      '\'' :: r ≠ doubled c ++ (cs.flatMap doubled ++ '\'' :: r') := by
    intro h
    unfold doubled at h
    split at h
    · obtain ⟨-, rfl⟩ := List.cons.inj h
      exact hr rfl
    · obtain ⟨hc, -⟩ := List.cons.inj h
      exact absurd hc.symm ‹_›
  induction cs generalizing cs' with
  | nil =>
    cases cs' with
    | nil => exact ⟨rfl, (List.cons.inj h).2⟩
    | cons d cs' =>
      rw [List.flatMap_cons, List.append_assoc] at h
      exact absurd h (ends hr)
  | cons c cs ih =>
    rw [List.flatMap_cons, List.append_assoc] at h
    cases cs' with
    | nil => exact absurd h.symm (ends hr')
    | cons d cs' =>
      rw [List.flatMap_cons, List.append_assoc] at h
      have hcd : c = d := by
        have hhead := congrArg List.head? h
        rw [head?_doubled_append, head?_doubled_append] at hhead
        exact Option.some.inj hhead
      subst hcd
      obtain ⟨rfl, hr⟩ := ih (List.append_cancel_left h)
      exact ⟨rfl, hr⟩

/-- The character with a number in hexadecimal digits, and what follows them. -/
def codePoint? (width : Nat) (cs : List Char) : Option (Char × List Char) :=
  (Text.digits? 16 (cs.take width)).map fun n ↦ (Char.ofNat n, cs.drop width)

/-- The first character of a text between double quotes. -/
def unescaped? : List Char → Option (Char × List Char)
  | '\\' :: 'x' :: cs => codePoint? 2 cs
  | '\\' :: 'u' :: cs => codePoint? 4 cs
  | '\\' :: 'U' :: cs => codePoint? 8 cs
  | '\\' :: letter :: cs =>
    (letterEscapes.find? (·.2 == letter)).map fun e ↦ (Char.ofNat e.1, cs)
  | c :: cs => some (c, cs)
  | [] => none

theorem codePoint?_upperHex {width : Nat} {c : Char} (hw : 0 < width)
    (hc : c.toNat < Nat.pow 16 width) (r : List Char) :
    codePoint? width (upperHex width c.toNat ++ r) = some (c, r) := by
  have hlen : (upperHex width c.toNat).length = width := by
    rw [upperHex, List.length_map, Text.length_hexList]
  have hne : upperHex width c.toNat ≠ [] := by
    intro he
    rw [he] at hlen
    exact absurd hlen (Nat.ne_of_lt hw)
  have hd : Text.digits? 16 (upperHex width c.toNat) = some c.toNat := by
    rw [Text.digits?_of_ne_nil hne, upperHex, Text.digitsFrom_map_toUpper, Text.digitsFrom_hexList,
      Nat.mod_eq_of_lt hc]
  rw [codePoint?, List.take_left' hlen, List.drop_left' hlen, hd, Option.map_some,
    Char.ofNat_toNat]

theorem ne_of_lookup_none {c : Char} (h : letterEscapes.lookup c.toNat = none) :
    c ≠ '"' ∧ c ≠ '\\' := by
  constructor
  · rintro rfl
    cases h
  · rintro rfl
    cases h

theorem head?_escapeChar_append (c : Char) (r : List Char) :
    (escapeChar c ++ r).head? ≠ some '"' := by
  unfold escapeChar
  split
  · simp
  split
  · simpa using (ne_of_lookup_none ‹_›).1
  split
  · simp
  split <;> simp

theorem unescaped?_escapeChar (c : Char) (r : List Char) :
    unescaped? (escapeChar c ++ r) = some (c, r) := by
  unfold escapeChar
  split
  · rename_i letter h
    have hletters : ∀ e ∈ letterEscapes,
        unescaped? ('\\' :: e.2 :: r) = some (Char.ofNat e.1, r) := by
      simp [letterEscapes, unescaped?]
    obtain ⟨l, l', hl, -⟩ := List.lookup_eq_some_iff.mp h
    have hread := hletters (c.toNat, letter) (by simp [hl])
    rwa [Char.ofNat_toNat] at hread
  split
  · have hc := (ne_of_lookup_none ‹_›).2
    simp [unescaped?, hc]
  split
  · have hc : c.toNat < Nat.pow 16 2 := Nat.lt_succ_of_le ‹_›
    rw [List.cons_append, List.cons_append, unescaped?, codePoint?_upperHex (by decide) hc]
  split
  · have hc : c.toNat < Nat.pow 16 4 := Nat.lt_succ_of_le ‹_›
    rw [List.cons_append, List.cons_append, unescaped?, codePoint?_upperHex (by decide) hc]
  · have hc : c.toNat < Nat.pow 16 8 := c.val.toNat_lt
    rw [List.cons_append, List.cons_append, unescaped?, codePoint?_upperHex (by decide) hc]

theorem doubleQuoted_unique
    (h : cs.flatMap escapeChar ++ '"' :: r = cs'.flatMap escapeChar ++ '"' :: r') :
    cs = cs' ∧ r = r' := by
  have ends {c : Char} {cs r r' : List Char} :
      '"' :: r ≠ escapeChar c ++ (cs.flatMap escapeChar ++ '"' :: r') := fun h ↦
    head?_escapeChar_append _ _ (congrArg List.head? h).symm
  induction cs generalizing cs' with
  | nil =>
    cases cs' with
    | nil => exact ⟨rfl, (List.cons.inj h).2⟩
    | cons d cs' =>
      rw [List.flatMap_cons, List.append_assoc] at h
      exact absurd h ends
  | cons c cs ih =>
    rw [List.flatMap_cons, List.append_assoc] at h
    cases cs' with
    | nil => exact absurd h.symm ends
    | cons d cs' =>
      rw [List.flatMap_cons, List.append_assoc] at h
      have hread := congrArg unescaped? h
      rw [unescaped?_escapeChar, unescaped?_escapeChar] at hread
      obtain ⟨rfl, htail⟩ := Prod.mk.inj (Option.some.inj hread)
      obtain ⟨rfl, hr⟩ := ih htail
      exact ⟨rfl, hr⟩

/-! ### Scalars of one line -/

/-- The text can be written in the style. -/
def Fits : Style → List Char → Prop
  | .plain, cs =>
    cs ≠ [] ∧ '\n' ∉ cs ∧ beginsIndicated cs = false ∧ holdsIndicated cs = false
  | .singleQuoted, cs => ∀ c ∈ cs, isBreak c = false
  | .doubleQuoted, _ => True
  | .literal, _ => False

/-- The style of the scalar that a text begins with. -/
def openingStyle : List Char → Style
  | '\'' :: _ => .singleQuoted
  | '"' :: _ => .doubleQuoted
  | _ => .plain

theorem Fits.openingStyle_eq {s : Style} (h : Fits s cs) (n : Nat) (r : List Char) :
    openingStyle (inlineScalar n s cs ++ r) = s := by
  cases s with
  | plain =>
    obtain ⟨hne, -, hb, -⟩ := h
    cases cs with
    | nil => exact absurd rfl hne
    | cons c cs =>
      have hs : c ≠ '\'' := by
        rintro rfl
        simp [beginsIndicated, indicators] at hb
      have hd : c ≠ '"' := by
        rintro rfl
        simp [beginsIndicated, indicators] at hb
      simp [inlineScalar, openingStyle, hs, hd]
  | singleQuoted => rfl
  | doubleQuoted => rfl
  | literal => exact h.elim

theorem head?_ne_of_isEnd (h : isEnd r) : r.head? ≠ some '\'' := by
  cases r with
  | nil => nofun
  | cons c r =>
    intro hc
    obtain rfl : c = '\'' := by simpa using hc
    cases h

/-- Scalars that end where their lines or keys do have one style and one content. -/
theorem Fits.unique {s s' : Style} (h : Fits s cs) (h' : Fits s' cs') (hr : isEnd r)
    (hr' : isEnd r') (he : inlineScalar n s cs ++ r = inlineScalar n' s' cs' ++ r') :
    s = s' ∧ cs = cs' ∧ r = r' := by
  obtain rfl : s = s' := by
    rw [← h.openingStyle_eq n r, ← h'.openingStyle_eq n' r', he]
  refine ⟨rfl, ?_⟩
  cases s with
  | plain =>
    obtain ⟨-, hn, -, hi⟩ := h
    obtain ⟨-, hn', -, hi'⟩ := h'
    exact (stops_of_holdsIndicated hn hi hr).unique (stops_of_holdsIndicated hn' hi' hr') he
  | singleQuoted =>
    simp only [inlineScalar, singleQuotedBody_eq h, singleQuotedBody_eq h', List.cons_append,
      List.append_assoc, List.nil_append, List.cons_inj_right] at he
    exact singleQuoted_unique (head?_ne_of_isEnd hr) (head?_ne_of_isEnd hr') he
  | doubleQuoted =>
    simp only [inlineScalar, List.cons_append, List.append_assoc, List.nil_append,
      List.cons_inj_right] at he
    exact doubleQuoted_unique he
  | literal => exact h.elim

/-- The line feed is the only line break in the text. -/
def Unbroken (cs : List Char) : Prop := ∀ c ∈ cs, isBreak c → c = '\n'

theorem isBreak_eq_false (h : Unbroken cs) (hn : '\n' ∉ cs) {c : Char} (hc : c ∈ cs) :
    isBreak c = false := by
  refine Bool.eq_false_iff.mpr fun hb ↦ ?_
  rw [h c hc hb] at hc
  exact hn hc

theorem fits_style (hn : '\n' ∉ cs) (hb : ∀ c ∈ cs, isBreak c = false) :
    Fits (style cs) cs := by
  have hc : cs.contains '\n' = false := by simpa using hn
  unfold style
  rw [if_neg (by simp [hn])]
  split
  · trivial
  split
  · exact hb
  · rename_i h
    simp only [Bool.or_eq_true, not_or, Bool.not_eq_true] at h
    obtain ⟨⟨⟨⟨ho, -⟩, hi⟩, hh⟩, -⟩ := h
    refine ⟨?_, hn, hi, hh⟩
    rintro rfl
    exact absurd ho (by decide)

theorem fits_style_of_ne_literal (h : Unbroken cs) (hl : style cs ≠ .literal) :
    Fits (style cs) cs := by
  by_cases hn : '\n' ∈ cs
  · unfold style at hl ⊢
    rw [if_pos (by simpa using hn)] at hl ⊢
    split
    · trivial
    · rw [if_neg ‹_›] at hl
      exact absurd rfl hl
  · exact fits_style hn fun c hc ↦ isBreak_eq_false h hn hc

theorem fits_keyStyle (cs : List Char) : Fits (keyStyle cs) cs := by
  unfold keyStyle
  split
  · trivial
  · rename_i h
    have hb : ∀ c ∈ cs, isBreak c = false := by simpa using h
    exact fits_style (fun hn ↦ absurd (hb _ hn) (by decide)) hb

theorem fits_bool (b : Bool) : Fits .plain (toString b).toList := by
  cases b <;> exact ⟨by decide, by decide, by decide, by decide⟩

/-- Texts that would read as truth values are quoted. -/
theorem style_bool_ne_plain (b : Bool) : style (toString b).toList ≠ .plain := by
  cases b <;> decide

end GoOpenApi.Yaml
