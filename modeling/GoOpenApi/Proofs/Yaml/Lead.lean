import GoOpenApi.Proofs.Yaml.Literal
import GoOpenApi.Yaml.Printer

/-!
How the text of a value begins. Its first characters say what kind of value it is, up to the scalar
that they may open; what follows that scalar says whether it is a key.
-/

namespace GoOpenApi.Yaml

variable {cs r : List Char} {v : Json}

/-- Texts and truth values in lists and objects; the line feed is the only line break in texts. -/
inductive Written : Json → Prop where
  | bool (b : Bool) : Written (.bool b)
  | str {s : String} (h : Unbroken s.toList) : Written (.str s)
  | arr {items : List Json} (h : ∀ v ∈ items, Written v) : Written (.arr items)
  | obj {members : List (String × Json)} (h : ∀ e ∈ members, Written e.2) : Written (.obj members)

/-! ### How texts begin -/

inductive Lead where
  | item
  | longKey
  | emptyObject
  | emptyList
  | literal
  | scalar
  deriving DecidableEq

/-- What a text on the line of a marker begins with. -/
def lead : List Char → Lead
  | '-' :: ' ' :: _ => .item
  | '?' :: ' ' :: _ => .longKey
  | '\x7b' :: _ => .emptyObject
  | '[' :: _ => .emptyList
  | '|' :: _ => .literal
  | _ => .scalar

/-- How a text begins that is not indicated. -/
structure Opens (c : Char) (cs : List Char) : Prop where
  notSpace : c ≠ ' '
  notBreak : isBreak c = false
  notIndicator : c ∉ indicators
  notBlank : c = '?' ∨ c = '-' → beginsBlank cs = false

theorem opens_of_beginsIndicated {c : Char} (h : beginsIndicated (c :: cs) = false) :
    Opens c cs := by
  unfold beginsIndicated at h
  split at h
  · cases h
  · cases h
  · rename_i he
    obtain ⟨rfl, rfl⟩ := List.cons.inj he
    simp only [Bool.or_eq_false_iff, beq_eq_false_iff_ne] at h
    obtain ⟨⟨⟨hs, hb⟩, hi⟩, hm⟩ := h
    refine ⟨hs, hb, by simpa using hi, ?_⟩
    rintro (rfl | rfl) <;> simpa using hm
  · rename_i he
    cases he

theorem Opens.lead_eq {c : Char} (h : Opens c cs) (r : List Char) :
    lead (c :: cs ++ r) = .scalar := by
  have blank {t : List Char} (hc : c = '?' ∨ c = '-') : cs ++ r ≠ ' ' :: t := by
    intro he
    have hb := beginsBlank_append (h.notBlank hc) r
    rw [he] at hb
    cases hb
  have hi := h.notIndicator
  rw [List.cons_append]
  unfold lead
  split
  · rename_i he
    obtain ⟨rfl, ht⟩ := List.cons.inj he
    exact absurd ht (blank (.inr rfl))
  · rename_i he
    obtain ⟨rfl, ht⟩ := List.cons.inj he
    exact absurd ht (blank (.inl rfl))
  · rename_i he
    obtain ⟨rfl, -⟩ := List.cons.inj he
    exact absurd (by decide) hi
  · rename_i he
    obtain ⟨rfl, -⟩ := List.cons.inj he
    exact absurd (by decide) hi
  · rename_i he
    obtain ⟨rfl, -⟩ := List.cons.inj he
    exact absurd (by decide) hi
  · rfl

theorem Opens.ne_lineFeed {c : Char} (h : Opens c cs) : c ≠ '\n' := by
  rintro rfl
  exact absurd h.notBreak (by decide)

theorem Fits.exists_cons {s : Style} (h : Fits s cs) (n : Nat) (r : List Char) :
    ∃ c t, inlineScalar n s cs ++ r = c :: t ∧ c ≠ ' ' ∧ c ≠ '\n' ∧ lead (c :: t) = .scalar := by
  cases s with
  | plain =>
    obtain ⟨hne, -, hb, -⟩ := h
    cases cs with
    | nil => exact absurd rfl hne
    | cons c cs =>
      have ho := opens_of_beginsIndicated hb
      exact ⟨c, cs ++ r, rfl, ho.notSpace, ho.ne_lineFeed, ho.lead_eq r⟩
  | singleQuoted => exact ⟨_, _, rfl, by decide, by decide, rfl⟩
  | doubleQuoted => exact ⟨_, _, rfl, by decide, by decide, rfl⟩
  | literal => exact h.elim

/-- What the text of a value on the line of a marker begins with. -/
def leadOf : Json → Lead
  | .obj ((k, _) :: _) => if isLongKey k then .longKey else .scalar
  | .obj [] => .emptyObject
  | .arr (_ :: _) => .item
  | .arr [] => .emptyList
  | .str s => if style s.toList = .literal then .literal else .scalar
  | _ => .scalar

/-- The values whose texts begin so; a mapping may begin with a scalar, too. -/
def Lead.IsOf : Lead → Json → Prop
  | .item, v => ∃ w items, v = .arr (w :: items)
  | .longKey, v => ∃ e members, v = .obj (e :: members)
  | .emptyObject, v => v = .obj []
  | .emptyList, v => v = .arr []
  | .literal, v => ∃ s, v = .str s ∧ style s.toList = .literal
  | .scalar, _ => True

theorem isOf_leadOf (v : Json) : (leadOf v).IsOf v := by
  cases v with
  | str s =>
    by_cases hs : style s.toList = .literal
    · rw [leadOf, if_pos hs]
      exact ⟨s, rfl, hs⟩
    · rw [leadOf, if_neg hs]
      trivial
  | arr items =>
    cases items with
    | nil => rfl
    | cons w items => exact ⟨w, items, rfl⟩
  | obj members =>
    cases members with
    | nil => rfl
    | cons e members =>
      by_cases hk : isLongKey e.1
      · rw [leadOf, if_pos hk]
        exact ⟨e, members, rfl⟩
      · rw [leadOf, if_neg hk]
        trivial
  | _ => trivial

theorem isOf_of_leadOf_eq {l : Lead} (h : leadOf v = l) : l.IsOf v := h ▸ isOf_leadOf v

/-- The scalar that the text of a value begins with, if it does. -/
def opening : Json → Style × List Char
  | .bool b => (.plain, (toString b).toList)
  | .str s => (style s.toList, s.toList)
  | .obj ((k, _) :: _) => (keyStyle k.toList, k.toList)
  | _ => (.plain, [])

/-- What stands after that scalar. -/
def remainder (n : Nat) : Json → List Char
  | .obj ((_, v) :: members) => ':' :: afterKey (n + 2) v ++ entries (n + 2) members
  | _ => ['\n']

theorem leadOf_str_iff {s : String} : leadOf (.str s) = .scalar ↔ style s.toList ≠ .literal := by
  simp [leadOf]

theorem leadOf_obj_cons_iff {e : String × Json} {members : List (String × Json)} :
    leadOf (.obj (e :: members)) = .scalar ↔ isLongKey e.1 = false := by
  simp [leadOf]

theorem exists_afterMarker_eq (hw : Written v) (hl : leadOf v = .scalar) (n : Nat)
    (r : List Char) : ∃ k, afterMarker n v ++ r =
      ' ' :: (inlineScalar k (opening v).1 (opening v).2 ++ (remainder n v ++ r)) := by
  cases hw with
  | bool b => exact ⟨n, by simp [afterMarker, opening, remainder, inlineScalar]⟩
  | @str s hu =>
    have hs := leadOf_str_iff.mp hl
    exact ⟨n + 2, by simp [afterMarker, opening, remainder, scalarLine]⟩
  | @arr items h => cases items <;> cases hl
  | @obj members h =>
    cases members with
    | nil => cases hl
    | cons e members =>
      obtain ⟨k, v⟩ := e
      have hk : isLongKey k = false := leadOf_obj_cons_iff.mp hl
      exact ⟨n + 4, by simp [afterMarker, opening, remainder, entry, key, hk]⟩

theorem beginsBlank_afterKey (n : Nat) (v : Json) (r : List Char) :
    beginsBlank (afterKey n v ++ r) := by
  obtain _ | _ | _ | _ | (_ | _) | (_ | _) := v <;> simp [afterKey, beginsBlank, isBreak]

theorem isEnd_remainder (n : Nat) (v : Json) (r : List Char) : isEnd (remainder n v ++ r) := by
  unfold remainder
  split
  · rw [List.append_assoc]
    exact beginsBlank_afterKey _ _ _
  · rfl

theorem fits_opening (hw : Written v) (hl : leadOf v = .scalar) :
    Fits (opening v).1 (opening v).2 := by
  cases hw with
  | bool b => exact fits_bool b
  | @str s hu => exact fits_style_of_ne_literal hu (leadOf_str_iff.mp hl)
  | @arr items h => cases items <;> cases hl
  | @obj members h =>
    cases members with
    | nil => cases hl
    | cons e members => exact fits_keyStyle _

theorem exists_afterMarker_eq_space (n : Nat) (v : Json) : ∃ t, afterMarker n v = ' ' :: t := by
  obtain _ | _ | _ | _ | (_ | _) | (_ | _) := v <;> simp [afterMarker]

theorem exists_afterMarker (hw : Written v) (n : Nat) (r : List Char) :
    ∃ t, afterMarker n v ++ r = ' ' :: t ∧ lead t = leadOf v := by
  by_cases hl : leadOf v = .scalar
  · obtain ⟨k, he⟩ := exists_afterMarker_eq hw hl n r
    obtain ⟨c, t, ht, -, -, hlead⟩ := (fits_opening hw hl).exists_cons k (remainder n v ++ r)
    exact ⟨c :: t, by rw [he, ht], hlead.trans hl.symm⟩
  cases hw with
  | bool b => exact absurd rfl hl
  | @str s hu =>
    have hs : style s.toList = .literal := by
      rwa [leadOf_str_iff, not_not] at hl
    simp [afterMarker, scalarLine, literalHeader, leadOf, hs, lead]
  | @arr items h =>
    cases items with
    | nil => exact ⟨'[' :: ']' :: '\n' :: r, by rw [afterMarker]; rfl, rfl⟩
    | cons v items =>
      obtain ⟨t, ht⟩ := exists_afterMarker_eq_space (n + 2) v
      simp [afterMarker, item, ht, leadOf, lead]
  | @obj members h =>
    cases members with
    | nil => exact ⟨'\x7b' :: '\x7d' :: '\n' :: r, by rw [afterMarker]; rfl, rfl⟩
    | cons e members =>
      obtain ⟨k, v⟩ := e
      have hk : isLongKey k = true := by
        rwa [leadOf_obj_cons_iff, Bool.not_eq_false] at hl
      simp [afterMarker, entry, leadOf, hk, lead]

end GoOpenApi.Yaml
