import GoOpenApi.Proofs.Text.Split
import GoOpenApi.Proofs.Yaml.Scalar

/-!
Literal blocks are told from what follows them. The lines of a block are those that are blank or
indented enough, and the header says whether a line feed ends the text.
-/

namespace GoOpenApi.Yaml

variable {cs cs' l l' r r' : List Char} {k n n' : Nat}

/-! ### Indentation -/

theorem spaces_append_ne {c : Char} (hk : k < n) (hc : c ≠ ' ') :
    spaces k ++ c :: cs ≠ spaces n ++ r := by
  induction k generalizing n with
  | zero =>
    obtain ⟨n, rfl⟩ := Nat.exists_eq_succ_of_ne_zero (Nat.ne_zero_of_lt hk)
    intro h
    exact hc (List.cons.inj h).1
  | succ k ih =>
    obtain ⟨n, rfl⟩ := Nat.exists_eq_succ_of_ne_zero (Nat.ne_zero_of_lt hk)
    intro h
    exact ih (Nat.lt_of_succ_lt_succ hk) (List.cons.inj h).2

/-- The line that follows, if one does, is not blank and is indented by less than `n`. -/
inductive Below (n : Nat) : List Char → Prop where
  | nil : Below n []
  | line {k : Nat} {c : Char} {cs : List Char} (hk : k < n) (hs : c ≠ ' ') (hn : c ≠ '\n') :
    Below n (spaces k ++ c :: cs)

theorem Below.mono (h : Below n r) (hn : n ≤ n') : Below n' r := by
  cases h with
  | nil => exact .nil
  | line hk hs hl => exact .line (Nat.lt_of_lt_of_le hk hn) hs hl

theorem Below.ne_spaces_cons (h : Below n r) (c : Char) (cs : List Char) :
    r ≠ spaces n ++ c :: cs := by
  cases h with
  | nil => simp
  | line hk hs _ => exact spaces_append_ne hk hs

theorem Below.ne_lineFeed (h : Below n r) : r ≠ '\n' :: r' := by
  cases h with
  | nil => nofun
  | @line k c cs _ _ hn =>
    intro he
    cases k with
    | zero => exact hn (List.cons.inj he).1
    | succ k => cases he

/-! ### Lines -/

theorem literalLine_of_ne_nil (h : l ≠ []) : literalLine n l = spaces n ++ l := by
  rw [literalLine, if_neg (by simpa using h)]

theorem literalLine_unique (hn : 0 < n) (hl : '\n' ∉ l) (hl' : '\n' ∉ l')
    (h : literalLine n l ++ '\n' :: r = literalLine n l' ++ '\n' :: r') : l = l' ∧ r = r' := by
  obtain ⟨n, rfl⟩ := Nat.exists_eq_succ_of_ne_zero (Nat.ne_of_gt hn)
  -- a blank line is not indented
  have blank {l r r' : List Char} (hl : l ≠ []) :
      literalLine (n + 1) [] ++ '\n' :: r ≠ literalLine (n + 1) l ++ '\n' :: r' := by
    rw [literalLine_of_ne_nil hl]
    nofun
  by_cases he : l = []
  · subst he
    by_cases he' : l' = []
    · subst he'
      exact ⟨rfl, (List.cons.inj h).2⟩
    · exact absurd h (blank he')
  · by_cases he' : l' = []
    · subst he'
      exact absurd h.symm (blank he)
    · rw [literalLine_of_ne_nil he, literalLine_of_ne_nil he', List.append_assoc,
        List.append_assoc] at h
      exact split_unique hl hl' (List.append_cancel_left h)

/-- The lines of a text that a block writes out. -/
def blockLines (cs : List Char) : List (List Char) :=
  match (Text.splitList (· == '\n') cs).reverse with
  | [] => []
  | last :: ended => ended.reverse ++ if last.isEmpty then [] else [last]

def writtenLines (n : Nat) (ls : List (List Char)) : List Char :=
  ls.flatMap fun l ↦ literalLine n l ++ ['\n']

theorem literalBody_eq (n : Nat) (cs : List Char) :
    literalBody n cs = writtenLines n (blockLines cs) := by
  unfold literalBody blockLines writtenLines
  cases (Text.splitList (· == '\n') cs).reverse with
  | nil => rfl
  | cons last ended =>
    simp only [List.flatMap_append]
    split <;> simp

theorem writtenLines_cons (n : Nat) (l : List Char) (ls : List (List Char)) (r : List Char) :
    writtenLines n (l :: ls) ++ r = literalLine n l ++ '\n' :: (writtenLines n ls ++ r) := by
  simp [writtenLines]

theorem Below.ne_writtenLines_cons (h : Below n r) (l : List Char) (ls : List (List Char)) :
    r ≠ writtenLines n (l :: ls) ++ r' := by
  rw [writtenLines_cons]
  cases l with
  | nil => exact h.ne_lineFeed
  | cons c l =>
    rw [literalLine_of_ne_nil (List.cons_ne_nil c l), List.append_assoc]
    exact h.ne_spaces_cons _ _

theorem writtenLines_unique {ls ls' : List (List Char)} (hn : 0 < n) (hl : ∀ l ∈ ls, '\n' ∉ l)
    (hl' : ∀ l ∈ ls', '\n' ∉ l) (hr : Below n r) (hr' : Below n r')
    (h : writtenLines n ls ++ r = writtenLines n ls' ++ r') : ls = ls' ∧ r = r' := by
  induction ls generalizing ls' with
  | nil =>
    cases ls' with
    | nil => exact ⟨rfl, h⟩
    | cons l' ls' => exact absurd h (hr.ne_writtenLines_cons l' ls')
  | cons l ls ih =>
    cases ls' with
    | nil => exact absurd h.symm (hr'.ne_writtenLines_cons l ls)
    | cons l' ls' =>
      rw [List.forall_mem_cons] at hl hl'
      rw [writtenLines_cons, writtenLines_cons] at h
      obtain ⟨rfl, htail⟩ := literalLine_unique hn hl.1 hl'.1 h
      obtain ⟨rfl, hr⟩ := ih hl.2 hl'.2 htail
      exact ⟨rfl, hr⟩

/-! ### Blocks -/

/-- Whether a line feed ends the text. -/
def endsLine (cs : List Char) : Bool := cs.getLast? == some '\n'

theorem getLast?_splitList_ne (hne : cs ≠ []) (he : endsLine cs = false) :
    (Text.splitList (· == '\n') cs).getLast? ≠ some [] := by
  induction cs with
  | nil => exact absurd rfl hne
  | cons c cs ih =>
    obtain ⟨piece, pieces, hp⟩ := Text.splitList_eq_cons (· == '\n') cs
    by_cases hcs : cs = []
    · subst hcs
      have hc : c ≠ '\n' := by simpa [endsLine] using he
      simp [Text.splitList, hc]
    · have he' : endsLine cs = false := by
        rwa [endsLine, List.getLast?_cons_of_ne_nil hcs] at he
      have ih := ih hcs he'
      rw [hp] at ih
      by_cases hc : c = '\n'
      · rwa [Text.splitList_of_sep (by simpa using hc), hp, List.getLast?_cons_cons]
      · rw [Text.splitList_of_other (by simpa using hc) hp]
        cases pieces with
        | nil => simp
        | cons next pieces => simpa using ih

theorem splitList_eq (hne : cs ≠ []) : Text.splitList (· == '\n') cs =
    if endsLine cs then blockLines cs ++ [[]] else blockLines cs := by
  obtain ⟨ended, last, hs⟩ := (List.eq_nil_or_concat _).resolve_left
    (Text.splitList_ne_nil (· == '\n') cs)
  rw [List.concat_eq_append] at hs
  have hb : blockLines cs = ended ++ if last.isEmpty then [] else [last] := by
    simp [blockLines, hs]
  by_cases he : endsLine cs
  · have hc : cs = cs.dropLast ++ ['\n'] := by
      have hl : cs.getLast hne = '\n' := by
        simpa [endsLine, List.getLast?_eq_some_getLast hne] using he
      rw [← hl, List.dropLast_concat_getLast]
    have hlast : [[]] = [last] := by
      have hs' := hs
      rw [hc, Text.splitList_append (p := (· == '\n')) rfl] at hs'
      exact (List.append_inj' hs' rfl).2
    rw [if_pos he, hs, hb, ← List.singleton_inj.mp hlast]
    simp
  · have hlast : last ≠ [] := by
      have hne' := getLast?_splitList_ne hne (Bool.eq_false_iff.mpr he)
      rintro rfl
      simp [hs] at hne'
    rw [if_neg he, hs, hb, if_neg (by simpa using hlast)]

theorem not_mem_of_mem_blockLines (hne : cs ≠ []) (h : l ∈ blockLines cs) : '\n' ∉ l := by
  have hl : l ∈ Text.splitList (· == '\n') cs := by
    rw [splitList_eq hne]
    split
    · exact List.mem_append_left _ h
    · exact h
  exact fun hn ↦ Text.not_sep_of_mem_splitList hl '\n' hn rfl

theorem isBreak_eq (h : Unbroken cs) {c : Char} (hc : c ∈ cs) : isBreak c = (c == '\n') := by
  by_cases hb : isBreak c
  · rw [h c hc hb]
    rfl
  · rw [Bool.not_eq_true] at hb
    rw [hb, eq_comm, beq_eq_false_iff_ne]
    rintro rfl
    cases hb

/-- The header has a minus sign where no line feed ends the text. -/
theorem mem_literalHeader_iff (h : Unbroken cs) (hne : cs ≠ []) :
    '-' ∈ literalHeader cs ↔ ¬endsLine cs := by
  obtain ⟨as, c, hc⟩ := (List.eq_nil_or_concat cs).resolve_left hne
  rw [List.concat_eq_append] at hc
  have hr : cs.reverse = c :: as.reverse := by simp [hc]
  have he : endsLine cs = isBreak c := by
    rw [isBreak_eq h (by simp [hc])]
    simp [endsLine, hc]
  rw [he]
  cases cs with
  | nil => exact absurd rfl hne
  | cons d cs =>
    simp only [literalHeader, hr]
    cases as.reverse with
    | nil => by_cases hd : d = ' ' ∨ isBreak d <;> by_cases hb : isBreak c <;> simp [hd, hb]
    | cons b _ =>
      by_cases hd : d = ' ' ∨ isBreak d <;> by_cases hb : isBreak c <;>
        by_cases hb' : isBreak b <;> simp [hd, hb, hb']

theorem lineFeed_notMem_literalHeader (cs : List Char) : '\n' ∉ literalHeader cs := by
  unfold literalHeader
  repeat' split
  all_goals simp

theorem literal_unique (hn : 0 < n) (hu : Unbroken cs) (hu' : Unbroken cs') (hc : '\n' ∈ cs)
    (hc' : '\n' ∈ cs') (hr : Below n r) (hr' : Below n r')
    (h : literalHeader cs ++ '\n' :: (literalBody n cs ++ r) =
      literalHeader cs' ++ '\n' :: (literalBody n cs' ++ r')) : cs = cs' ∧ r = r' := by
  have hne : cs ≠ [] := List.ne_nil_of_mem hc
  have hne' : cs' ≠ [] := List.ne_nil_of_mem hc'
  obtain ⟨hheader, hbody⟩ := split_unique (lineFeed_notMem_literalHeader cs)
    (lineFeed_notMem_literalHeader cs') h
  rw [literalBody_eq, literalBody_eq] at hbody
  obtain ⟨hlines, hr⟩ := writtenLines_unique hn (fun _ ↦ not_mem_of_mem_blockLines hne)
    (fun _ ↦ not_mem_of_mem_blockLines hne') hr hr' hbody
  have hends : endsLine cs = endsLine cs' := by
    have he := mem_literalHeader_iff hu hne
    rw [hheader, mem_literalHeader_iff hu' hne'] at he
    simpa using he.symm
  have hsplit : Text.splitList (· == '\n') cs = Text.splitList (· == '\n') cs' := by
    rw [splitList_eq hne, splitList_eq hne', hlines, hends]
  refine ⟨?_, hr⟩
  rw [← Text.intercalate_splitList '\n' cs, hsplit, Text.intercalate_splitList]

end GoOpenApi.Yaml
