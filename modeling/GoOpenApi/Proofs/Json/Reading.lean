import GoOpenApi.Json.Reader
import GoOpenApi.Json.Printer
import GoOpenApi.Proofs.Text.Number

/-!
Reading the indented text of a value gives the value back.
-/

namespace GoOpenApi.Json

variable {cs rest : List Char}

/-! ### Texts between quotes -/

theorem unit?_hexList {n : Nat} (h : n < 0x10000) (rest : List Char) :
    unit? (Text.hexList 4 n ++ rest) = some (n, rest) := by
  have hd : Text.digits? 16 (Text.hexList 4 n) = some n := by
    rw [Text.digits?_of_ne_nil (by simp [Text.hexList]), Text.digitsFrom_hexList,
      Nat.mod_eq_of_lt (show n < Nat.pow 16 4 from h)]
  obtain ⟨a, b, c, d, he⟩ : ∃ a b c d, Text.hexList 4 n = [a, b, c, d] := by
    simp [Text.hexList]
  rw [he] at hd ⊢
  simp [unit?, hd]

/-- A character stands for itself, or it is what an escape reads as. -/
theorem escapeChar_cases (c : Char) :
    (escapeChar c = [c] ∧ c ≠ '"' ∧ c ≠ '\\' ∧ ¬c.toNat < 0x20) ∨
      ∃ e, escapeChar c = '\\' :: e ∧ ∀ rest, escaped? (e ++ rest) = some (c, rest) := by
  unfold escapeChar
  split
  · exact .inr ⟨_, rfl, fun _ ↦ by subst_vars; rfl⟩
  split
  · exact .inr ⟨_, rfl, fun _ ↦ by subst_vars; rfl⟩
  split
  · exact .inr ⟨_, rfl, fun _ ↦ by subst_vars; rfl⟩
  split
  · exact .inr ⟨_, rfl, fun _ ↦ by subst_vars; rfl⟩
  split
  · exact .inr ⟨_, rfl, fun _ ↦ by subst_vars; rfl⟩
  split
  · exact .inr ⟨_, rfl, fun _ ↦ by subst_vars; rfl⟩
  split
  · exact .inr ⟨_, rfl, fun _ ↦ by subst_vars; rfl⟩
  split
  · rename_i h
    refine .inr ⟨_, rfl, fun rest ↦ ?_⟩
    have hu := unit?_hexList (show c.toNat < 0x10000 by omega) rest
    have hlow : ¬(0xD800 ≤ c.toNat ∧ c.toNat < 0xDC00) := by omega
    have hhigh : ¬(0xDC00 ≤ c.toNat ∧ c.toNat < 0xE000) := by omega
    rw [List.cons_append, escaped?, unicode?, hu]
    simp only [if_neg hlow, if_neg hhigh, Char.ofNat_toNat]
  · exact .inl ⟨rfl, by assumption, by assumption, by assumption⟩

theorem quotedBody?_escaped (cs rest : List Char) (n : Nat) (h : cs.length < n) :
    quotedBody? n (cs.flatMap escapeChar ++ '"' :: rest) = some (cs, rest) := by
  induction cs generalizing n with
  | nil =>
    obtain ⟨n, rfl⟩ := Nat.exists_eq_add_of_lt h
    rfl
  | cons c cs ih =>
    obtain ⟨n, rfl⟩ := Nat.exists_eq_succ_of_ne_zero (Nat.ne_zero_of_lt h)
    have ih := ih n (Nat.lt_of_succ_lt_succ h)
    rw [List.flatMap_cons, List.append_assoc]
    rcases escapeChar_cases c with ⟨he, hq, hb, hc⟩ | ⟨e, he, hread⟩
    · rw [he]
      simp [quotedBody?, hc, ih]
    · rw [he]
      simp [quotedBody?, hread, ih]

theorem length_le_length_escaped (cs : List Char) :
    cs.length ≤ (cs.flatMap escapeChar).length := by
  induction cs with
  | nil => simp
  | cons c cs ih =>
    have hc : 0 < (escapeChar c).length := by
      rcases escapeChar_cases c with ⟨he, -⟩ | ⟨e, he, -⟩ <;> simp [he]
    rw [List.flatMap_cons, List.length_append, List.length_cons]
    omega

theorem quoted?_quoted (s : String) (rest : List Char) :
    quoted? (quoted s ++ rest) = some (s, rest) := by
  have hlen := length_le_length_escaped s.toList
  have hq : quoted s ++ rest = '"' :: (s.toList.flatMap escapeChar ++ '"' :: rest) := by
    simp [quoted, quoteList]
  rw [hq, quoted?, quotedBody?_escaped _ _ _ (by rw [List.length_append]; omega)]
  simp

/-! ### Blanks and numbers -/

theorem skipSpace_of_not_isSpace {c : Char} (h : isSpace c = false) :
    skipSpace (c :: cs) = c :: cs := by
  simp [skipSpace, h]

theorem skipSpace_breakLine (depth : Nat) : skipSpace (breakLine depth ++ cs) = skipSpace cs := by
  have hi (n : Nat) : skipSpace (List.replicate n ' ' ++ cs) = skipSpace cs := by
    induction n with
    | zero => rfl
    | succ n ih => exact ih
  exact hi _

/-- No digit follows. -/
def Ends (rest : List Char) : Prop := ∀ c ∈ rest.head?, c.isDigit = false

theorem takeWhile_digits {n : Nat} (h : Ends rest) :
    (Nat.toDigits 10 n ++ rest).takeWhile Char.isDigit = Nat.toDigits 10 n := by
  have ht : rest.takeWhile Char.isDigit = [] := by
    cases rest with
    | nil => rfl
    | cons c rest => simp [h c rfl]
  rw [List.takeWhile_append_of_pos fun c hc ↦ Text.isDigit_of_mem_toDigits hc, ht, List.append_nil]

theorem toDigits_append_ne {n : Nat} {c : Char} (hc : c.isDigit = false) (ds : List Char) :
    Nat.toDigits 10 n ++ rest ≠ c :: ds := by
  intro he
  cases hd : Nat.toDigits 10 n with
  | nil => exact Text.toDigits_ne_nil n hd
  | cons c' cs =>
    have hc' := Text.isDigit_of_mem_toDigits (n := n) (c := c') (by simp [hd])
    rw [hd] at he
    cases he
    simp [hc] at hc'

theorem toList_toString_ofNat (n : Nat) :
    (toString (Int.ofNat n)).toList = Nat.toDigits 10 n := by
  simp [toString, Int.repr]

theorem toList_toString_negSucc (n : Nat) :
    (toString (Int.negSucc n)).toList = '-' :: Nat.toDigits 10 (n + 1) := by
  simp [toString, Int.repr]

theorem number?_toString (n : Int) (h : Ends rest) :
    number? ((toString n).toList ++ rest) = some (.num n, rest) := by
  cases n with
  | ofNat n =>
    rw [toList_toString_ofNat, number?]
    · simp [takeWhile_digits h, Text.digits?_toDigits]
    · exact fun ds ↦ toDigits_append_ne (by decide) ds
  | negSucc n =>
    rw [toList_toString_negSucc, List.cons_append, number?]
    simp [takeWhile_digits h, Text.digits?_toDigits, Int.negSucc_eq]

/-! ### Values -/

section

variable {c : Char} {ds more : List Char} {n : Nat}

theorem value?_array {item : Json} {items : List Json} (hs : skipSpace cs = '[' :: more)
    (hd : skipSpace more = c :: ds) (hc : c ≠ ']') {after : List Char}
    (hi : value? n (c :: ds) = some (item, after))
    (his : itemsAfter? n after = some (items, rest)) :
    value? (n + 1) cs = some (.arr (item :: items), rest) := by
  simp [value?, hs, hd, hc, hi, his]

theorem value?_object {member : String × Json} {members : List (String × Json)}
    (hs : skipSpace cs = '\x7b' :: more) (hd : skipSpace more = c :: ds) (hc : c ≠ '\x7d')
    {after : List Char} (hm : member? n (c :: ds) = some (member, after))
    (hms : membersAfter? n after = some (members, rest)) :
    value? (n + 1) cs = some (.obj (member :: members), rest) := by
  simp [value?, hs, hd, hc, hm, hms]

theorem toString_eq_cons (i : Int) :
    ∃ c ds, (toString i).toList = c :: ds ∧ (c = '-' ∨ c.isDigit) := by
  cases i with
  | ofNat m =>
    cases hd : Nat.toDigits 10 m with
    | nil => exact absurd hd (Text.toDigits_ne_nil m)
    | cons c ds =>
      rw [toList_toString_ofNat, hd]
      exact ⟨c, ds, rfl, .inr (Text.isDigit_of_mem_toDigits (n := m) (by simp [hd]))⟩
  | negSucc m =>
    rw [toList_toString_negSucc]
    exact ⟨'-', _, rfl, .inl rfl⟩

theorem value?_number {i : Int} (hs : skipSpace cs = (toString i).toList ++ rest)
    (h : Ends rest) : value? (n + 1) cs = some (.num i, rest) := by
  obtain ⟨c, ds, he, hc⟩ := toString_eq_cons i
  have hn := number?_toString i h
  have hmarks : c ≠ 'n' ∧ c ≠ 't' ∧ c ≠ 'f' ∧ c ≠ '"' ∧ c ≠ '[' ∧ c ≠ '\x7b' := by
    refine ⟨?_, ?_, ?_, ?_, ?_, ?_⟩ <;> (rintro rfl; simp at hc)
  rw [he, List.cons_append] at hn hs
  simp [value?, hs, hmarks, hn]

end

/-- A value begins with none of the marks that tell an empty collection or a blank. -/
theorem renderList_eq_cons (depth : Nat) (v : Json) : ∃ c cs, renderList depth v = c :: cs ∧
    isSpace c = false ∧ c ≠ ']' ∧ c ≠ '\x7d' := by
  match v with
  | .null | .bool true | .bool false | .str _ | .arr [] | .arr (_ :: _) | .obj []
  | .obj (_ :: _) => exact ⟨_, _, rfl, by decide⟩
  | .num i =>
    obtain ⟨c, cs, he, hc⟩ := toString_eq_cons i
    refine ⟨c, cs, he, ?_⟩
    rcases hc with rfl | hc
    · decide
    · have hs : isSpace c = false := by
        by_contra h
        simp only [isSpace, Bool.not_eq_false, Bool.or_eq_true, beq_iff_eq] at h
        rcases h with ((rfl | rfl) | rfl) | rfl <;> simp at hc
      refine ⟨hs, ?_, ?_⟩ <;> (rintro rfl; simp at hc)

theorem skipSpace_renderList (depth : Nat) (v : Json) (rest : List Char) :
    skipSpace (renderList depth v ++ rest) = renderList depth v ++ rest := by
  obtain ⟨c, cs, he, hc, -⟩ := renderList_eq_cons depth v
  rw [he]
  exact skipSpace_of_not_isSpace hc

theorem quoted_eq_cons (s : String) : ∃ cs, quoted s = '"' :: cs := ⟨_, rfl⟩

theorem renderMember_eq_cons (depth : Nat) (member : String × Json) :
    ∃ cs, renderMember depth member = '"' :: cs := by
  obtain ⟨key, v⟩ := member
  exact ⟨_, rfl⟩

theorem skipSpace_renderMember (depth : Nat) (member : String × Json) (rest : List Char) :
    skipSpace (renderMember depth member ++ rest) = renderMember depth member ++ rest := by
  obtain ⟨cs, he⟩ := renderMember_eq_cons depth member
  rw [he]
  rfl

theorem ends_cons {c : Char} (h : c.isDigit = false) : Ends (c :: cs) := by
  rintro c' ⟨⟩
  exact h

theorem ends_items (depth outer : Nat) (items : List Json) (rest : List Char) :
    Ends (renderItems depth items ++ (breakLine outer ++ rest)) := by
  cases items with
  | nil => exact ends_cons (by decide)
  | cons item items => exact ends_cons (by decide)

theorem ends_members (depth outer : Nat) (members : List (String × Json)) (rest : List Char) :
    Ends (renderMembers depth members ++ (breakLine outer ++ rest)) := by
  cases members with
  | nil => exact ends_cons (by decide)
  | cons member members => exact ends_cons (by decide)

mutual

theorem value?_renderList : ∀ (v : Json) (depth n : Nat) (cs rest : List Char), Ends rest →
    (renderList depth v).length ≤ n → skipSpace cs = renderList depth v ++ rest →
    value? n cs = some (v, rest)
  | v, depth, 0, _, _, _, hn, _ => by
    obtain ⟨c, cs, he, -⟩ := renderList_eq_cons depth v
    simp [he] at hn
  | .null, _, n + 1, cs, rest, _, _, hs => by
    simp [value?, hs, renderList]
  | .bool true, _, n + 1, cs, rest, _, _, hs => by
    simp [value?, hs, renderList]
  | .bool false, _, n + 1, cs, rest, _, _, hs => by
    simp [value?, hs, renderList]
  | .num i, _, n + 1, cs, rest, h, _, hs => value?_number hs h
  | .str s, _, n + 1, cs, rest, _, _, hs => by
    obtain ⟨qs, hq⟩ := quoted_eq_cons s
    have hr := quoted?_quoted s rest
    rw [renderList] at hs
    rw [hq, List.cons_append] at hr hs
    simp [value?, hs, hr]
  | .arr [], _, n + 1, cs, rest, _, _, hs => by
    have hb : skipSpace (']' :: rest) = ']' :: rest := rfl
    simp [value?, hs, renderList, hb]
  | .arr (item :: items), depth, n + 1, cs, rest, h, hn, hs => by
    obtain ⟨c, ds, he, -, hc, -⟩ := renderList_eq_cons (depth + 1) item
    simp only [renderList, List.append_assoc, List.cons_append, List.nil_append,
      List.length_append, List.length_cons] at hn hs
    have hd := skipSpace_renderList (depth + 1) item
      (renderItems (depth + 1) items ++ (breakLine depth ++ ']' :: rest))
    have hi := value?_renderList item (depth + 1) n _ _ (ends_items _ depth items (']' :: rest))
      (by omega) hd
    rw [← skipSpace_breakLine (depth + 1), he, List.cons_append] at hd
    rw [he, List.cons_append] at hi hs
    exact value?_array hs hd hc hi
      (itemsAfter?_renderItems items (depth + 1) n depth rest (by omega))
  | .obj [], _, n + 1, cs, rest, _, _, hs => by
    have hb : skipSpace ('\x7d' :: rest) = '\x7d' :: rest := rfl
    simp [value?, hs, renderList, hb]
  | .obj (member :: members), depth, n + 1, cs, rest, _, hn, hs => by
    obtain ⟨ds, he⟩ := renderMember_eq_cons (depth + 1) member
    simp only [renderList, List.append_assoc, List.cons_append, List.nil_append,
      List.length_append, List.length_cons] at hn hs
    have hd := skipSpace_renderMember (depth + 1) member
      (renderMembers (depth + 1) members ++ (breakLine depth ++ '\x7d' :: rest))
    have hm := member?_renderMember member (depth + 1) n _ _
      (ends_members _ depth members ('\x7d' :: rest)) (by omega) hd
    rw [← skipSpace_breakLine (depth + 1), he, List.cons_append] at hd
    rw [he, List.cons_append] at hm hs
    exact value?_object hs hd (by decide) hm
      (membersAfter?_renderMembers members (depth + 1) n depth rest (by omega))

theorem itemsAfter?_renderItems : ∀ (items : List Json) (depth n outer : Nat) (rest : List Char),
    (renderItems depth items).length < n →
    itemsAfter? n (renderItems depth items ++ (breakLine outer ++ ']' :: rest)) =
      some (items, rest)
  | _, _, 0, _, _, hn => absurd hn (Nat.not_lt_zero _)
  | [], depth, n + 1, outer, rest, _ => by
    have hb : skipSpace (']' :: rest) = ']' :: rest := rfl
    simp [renderItems, itemsAfter?, skipSpace_breakLine, hb]
  | item :: items, depth, n + 1, outer, rest, hn => by
    simp only [renderItems, List.append_assoc, List.cons_append, List.length_append,
      List.length_cons] at hn ⊢
    have hi := value?_renderList item depth n
      (breakLine depth ++ (renderList depth item ++ (renderItems depth items ++
        (breakLine outer ++ ']' :: rest)))) _ (ends_items depth outer items (']' :: rest))
      (by omega) (by rw [skipSpace_breakLine, skipSpace_renderList])
    have his := itemsAfter?_renderItems items depth n outer rest (by omega)
    have hb (cs : List Char) : skipSpace (',' :: cs) = ',' :: cs := rfl
    simp [itemsAfter?, hb, hi, his]

theorem member?_renderMember : ∀ (member : String × Json) (depth n : Nat) (cs rest : List Char),
    Ends rest → (renderMember depth member).length < n →
    skipSpace cs = renderMember depth member ++ rest → member? n cs = some (member, rest)
  | _, _, 0, _, _, _, hn, _ => absurd hn (Nat.not_lt_zero _)
  | (key, v), depth, n + 1, cs, rest, h, hn, hs => by
    simp only [renderMember, List.append_assoc, List.cons_append, List.length_append,
      List.length_cons] at hn hs
    have hv := value?_renderList v depth n (' ' :: (renderList depth v ++ rest)) rest h (by omega)
      (skipSpace_renderList depth v rest)
    have hq := quoted?_quoted key (':' :: ' ' :: (renderList depth v ++ rest))
    have hb (cs : List Char) : skipSpace (':' :: cs) = ':' :: cs := rfl
    simp [member?, hs, hq, hb, hv]

theorem membersAfter?_renderMembers : ∀ (members : List (String × Json)) (depth n outer : Nat)
    (rest : List Char), (renderMembers depth members).length < n →
    membersAfter? n (renderMembers depth members ++ (breakLine outer ++ '\x7d' :: rest)) =
      some (members, rest)
  | _, _, 0, _, _, hn => absurd hn (Nat.not_lt_zero _)
  | [], depth, n + 1, outer, rest, _ => by
    have hb : skipSpace ('\x7d' :: rest) = '\x7d' :: rest := rfl
    simp [renderMembers, membersAfter?, skipSpace_breakLine, hb]
  | member :: members, depth, n + 1, outer, rest, hn => by
    simp only [renderMembers, List.append_assoc, List.cons_append, List.length_append,
      List.length_cons] at hn ⊢
    have hm := member?_renderMember member depth n
      (breakLine depth ++ (renderMember depth member ++ (renderMembers depth members ++
        (breakLine outer ++ '\x7d' :: rest)))) _
      (ends_members depth outer members ('\x7d' :: rest)) (by omega)
      (by rw [skipSpace_breakLine, skipSpace_renderMember])
    have hms := membersAfter?_renderMembers members depth n outer rest (by omega)
    have hb (cs : List Char) : skipSpace (',' :: cs) = ',' :: cs := rfl
    simp [membersAfter?, hb, hm, hms]

end

theorem parse?_render (v : Json) : parse? (render v) = some v := by
  have hs : skipSpace (renderList 0 v) = renderList 0 v ++ [] := by
    simpa using skipSpace_renderList 0 v []
  have hv := value?_renderList v 0 (2 * (renderList 0 v).length + 2) (renderList 0 v) [] nofun
    (by omega) hs
  rw [parse?, render, String.toList_ofList, parseList?, hv]
  rfl

/-- A value is read back from its JSON form, be it a tree or an indented text. -/
structure ReadsBack {α : Type} (encode : α → Json) (decode : Json → Option α) (a : α) : Prop where
  tree : decode (encode a) = some a
  text : (parse? (render (encode a))).bind decode = some a

theorem readsBack_of_decode {α : Type} {encode : α → Json} {decode : Json → Option α} {a : α}
    (h : decode (encode a) = some a) : ReadsBack encode decode a :=
  ⟨h, by rw [parse?_render, Option.bind_some, h]⟩

end GoOpenApi.Json
