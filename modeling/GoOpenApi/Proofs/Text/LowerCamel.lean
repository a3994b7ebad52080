import GoOpenApi.Proofs.Text.Case
import Mathlib.Data.List.TakeWhile
import Mathlib.Tactic.Common

/-!
A name in lower camel case is its own lower camel case. Some upper-case characters have no lower
case and stay, so the second time meets another run of them. It changes nothing, because what is
still in upper case after lowering is a character that stays.
-/

namespace GoOpenApi.Text

variable {c : Char} {cs : List Char} {n : Nat}

/-! ### Rows of tables -/

namespace CharTable

variable {row row' : Nat × Nat × Nat} {rows : List (Nat × Nat × Nat)}
  {maps : List (Nat × Nat × Nat × Nat)}

def Within (row : Nat × Nat × Nat) (n : Nat) : Prop :=
  row.1 ≤ n ∧ n ≤ row.2.1 ∧ (n - row.1) % row.2.2 = 0

theorem holds_iff : holds rows n ↔ ∃ row ∈ rows, Within row n := by
  simp [holds, Within, and_assoc]

/-- All members of the row have the parity of the first one. -/
def hasOneParity (row : Nat × Nat × Nat) : Bool := row.2.2 % 2 == 0 || row.1 == row.2.1

theorem Within.mod_two (hn : Within row n) (h : hasOneParity row) : n % 2 = row.1 % 2 := by
  obtain ⟨hlo, hhi, hstep⟩ := hn
  simp only [hasOneParity, Bool.or_eq_true, beq_iff_eq] at h
  cases h with
  | inl heven =>
    have htwo : 2 ∣ n - row.1 :=
      Nat.dvd_trans (Nat.dvd_of_mod_eq_zero heven) (Nat.dvd_of_mod_eq_zero hstep)
    omega
  | inr hone => omega

/-- One row ends before the other one begins, or one has even and the other odd members. -/
def isApart (row row' : Nat × Nat × Nat) : Bool :=
  row.2.1 < row'.1 || row'.2.1 < row.1 ||
    (row.1 % 2 != row'.1 % 2 && hasOneParity row && hasOneParity row')

theorem Within.not_within (hn : Within row n) (h : isApart row row') : ¬Within row' n := by
  intro hn'
  have hlo := hn.1.trans hn'.2.1
  have hhi := hn'.1.trans hn.2.1
  simp only [isApart, Bool.or_eq_true, Bool.and_eq_true, decide_eq_true_eq, bne_iff_ne] at h
  obtain (h | h) | ⟨⟨hne, ho⟩, ho'⟩ := h
  · omega
  · omega
  · exact hne ((hn.mod_two ho).symm.trans (hn'.mod_two ho'))

/-- Where a row of a map leads. -/
def image (row : Nat × Nat × Nat × Nat) : Nat × Nat × Nat :=
  (row.2.2.2, row.2.2.2 + (row.2.1 - row.1), row.2.2.1)

theorem shifted_cases (maps : List (Nat × Nat × Nat × Nat)) (n : Nat) :
    shifted maps n = n ∨ ∃ row ∈ maps, Within (image row) (shifted maps n) := by
  unfold shifted
  split
  · rename_i lo hi step first hf
    right
    refine ⟨_, List.mem_of_find?_eq_some hf, ?_⟩
    have hrow := List.find?_some hf
    simp only [Bool.and_eq_true, decide_eq_true_eq, beq_iff_eq] at hrow
    simp only [Within, image]
    refine ⟨by omega, by omega, ?_⟩
    rw [Nat.add_sub_cancel_left]
    exact hrow.2
  · exact .inl rfl

theorem shifted_of_isApart (h : ∀ row ∈ maps, rows.all (isApart (image row))) :
    shifted maps n = n ∨ holds rows (shifted maps n) = false := by
  obtain heq | ⟨row, hrow, hw⟩ := shifted_cases maps n
  · exact .inl heq
  · right
    rw [Bool.eq_false_iff, ne_eq, holds_iff]
    intro ⟨row', hrow', hw'⟩
    exact hw.not_within (List.all_eq_true.mp (h row hrow) row' hrow') hw'

end CharTable

/-! ### Characters in lower case -/

theorem lowerRows_isApart : ∀ row ∈ lowerRows,
    uppercaseRows.all (CharTable.isApart (CharTable.image row)) := by decide +kernel

theorem lowerRows_above_letters : ∀ row ∈ lowerRows, 'Z'.toNat < row.2.2.2 := by decide +kernel

theorem isUpper_eq_false (hz : 'Z'.toNat < c.toNat)
    (hc : CharTable.holds uppercaseRows c.toNat = false) : isUpper c = false := by
  have hle : ¬c ≤ 'Z' := by
    intro h
    exact Nat.not_le_of_lt hz (UInt32.le_iff_toNat_le.mp h)
  simp [isUpper, hle, hc]

theorem isUpper_ofNat_eq_false (hz : 'Z'.toNat < n)
    (hn : CharTable.holds uppercaseRows n = false) : isUpper (Char.ofNat n) = false := by
  -- a code point that is no character stands for the character zero
  by_cases h0 : Char.ofNat n = Char.ofNat 0
  · rw [h0]
    decide
  · have hc := eq_toNat_of_ofNat rfl h0
    rw [hc] at hz hn
    exact isUpper_eq_false hz hn

/-- The lower case of a character is the character itself or not in upper case. -/
theorem lowerChar_eq_or (c : Char) : lowerChar c = c ∨ isUpper (lowerChar c) = false := by
  by_cases ha : c.toNat < 0x80
  · have hs : ∀ n < 0x80, lowerChar (Char.ofNat n) = Char.ofNat n ∨
        isUpper (lowerChar (Char.ofNat n)) = false := by decide +kernel
    have hc := hs c.toNat ha
    rwa [Char.ofNat_toNat] at hc
  · rw [lowerChar, if_neg ha]
    split
    · exact .inr (by decide)
    · obtain heq | hh := CharTable.shifted_of_isApart (n := c.toNat) lowerRows_isApart
      · left
        rw [heq, Char.ofNat_toNat]
      · right
        apply isUpper_ofNat_eq_false _ hh
        apply CharTable.lt_shifted lowerRows_above_letters
        exact Nat.lt_of_lt_of_le (by decide) (Nat.le_of_not_lt ha)

theorem lowerChar_eq_of_isUpper (h : isUpper (lowerChar c)) : lowerChar c = c :=
  (lowerChar_eq_or c).resolve_right (by simp [h])

/-! ### The run of upper-case characters -/

theorem lowerCamelCount_le (cs : List Char) :
    lowerCamelCount cs ≤ (cs.takeWhile isUpper).length := by
  unfold lowerCamelCount
  dsimp only
  split
  · omega
  · split <;> omega

theorem lowerCamelCount_le_length (cs : List Char) : lowerCamelCount cs ≤ cs.length :=
  (lowerCamelCount_le cs).trans (List.takeWhile_sublist isUpper).length_le

theorem isUpper_of_mem_take (hn : n ≤ (cs.takeWhile isUpper).length) (hc : c ∈ cs.take n) :
    isUpper c := by
  have hle : (cs.take n).length ≤ (cs.takeWhile isUpper).length := by
    rw [List.length_take]
    omega
  have hp := List.prefix_of_prefix_length_le (List.take_prefix n cs)
    (List.takeWhile_prefix isUpper) hle
  exact List.mem_takeWhile_imp (hp.subset hc)

theorem take_lowerCamelList (cs : List Char) :
    (lowerCamelList cs).take (lowerCamelCount cs) =
      (cs.take (lowerCamelCount cs)).map lowerChar := by
  have hn := lowerCamelCount_le_length cs
  rw [lowerCamelList]
  apply List.take_left'
  rw [List.length_map, List.length_take]
  omega

theorem lowerCamelList_of_forall (h : ∀ c ∈ cs.take (lowerCamelCount cs), lowerChar c = c) :
    lowerCamelList cs = cs := by
  have hmap : (cs.take (lowerCamelCount cs)).map lowerChar = cs.take (lowerCamelCount cs) :=
    (List.map_congr_left h).trans (List.map_id _)
  rw [lowerCamelList, hmap, List.take_append_drop]

theorem lowerCamelList_lowerCamelList (cs : List Char) :
    lowerCamelList (lowerCamelList cs) = lowerCamelList cs := by
  obtain hle | hle :=
    Nat.le_total (lowerCamelCount (lowerCamelList cs)) (lowerCamelCount cs)
  · -- what is lowered the second time was lowered before
    apply lowerCamelList_of_forall
    intro d hd
    have hu := isUpper_of_mem_take (lowerCamelCount_le _) hd
    have hm := (List.take_prefix_take_left hle).subset hd
    rw [take_lowerCamelList] at hm
    obtain ⟨c, hc, rfl⟩ := List.mem_map.mp hm
    rw [lowerChar_eq_of_isUpper hu, lowerChar_eq_of_isUpper hu]
  · -- all that was lowered is still in upper case, so it has not changed
    have hsame : lowerCamelList cs = cs := by
      apply lowerCamelList_of_forall
      intro c hc
      have hm : lowerChar c ∈ (lowerCamelList cs).take (lowerCamelCount cs) := by
        rw [take_lowerCamelList]
        exact List.mem_map_of_mem hc
      exact lowerChar_eq_of_isUpper (isUpper_of_mem_take (hle.trans (lowerCamelCount_le _)) hm)
    rw [hsame, hsame]

theorem getElem?_lowerCamelList_cases (cs : List Char) (i : Nat) :
    (lowerCamelList cs)[i]? = cs[i]? ∨
      i < (cs.takeWhile isUpper).length ∧ (lowerCamelList cs)[i]? = cs[i]?.map lowerChar := by
  have hn := lowerCamelCount_le_length cs
  by_cases hi : i < lowerCamelCount cs
  · right
    refine ⟨Nat.lt_of_lt_of_le hi (lowerCamelCount_le cs), ?_⟩
    rw [← List.getElem?_take_of_lt hi, take_lowerCamelList, List.getElem?_map,
      List.getElem?_take_of_lt hi]
  · left
    have hl : ((cs.take (lowerCamelCount cs)).map lowerChar).length = lowerCamelCount cs := by
      rw [List.length_map, List.length_take]
      omega
    rw [lowerCamelList, List.getElem?_append_right (by omega), hl, List.getElem?_drop]
    congr 1
    omega

/-- The first character is lowered. -/
theorem head?_lowerCamelList (cs : List Char) : (lowerCamelList cs).head? =
    cs.head?.map fun c ↦ if isUpper c then lowerChar c else c := by
  cases cs with
  | nil => rfl
  | cons c cs =>
    by_cases hc : isUpper c
    · have hpos : 0 < lowerCamelCount (c :: cs) := by
        simp only [lowerCamelCount, List.takeWhile_cons_of_pos hc, List.length_cons]
        split
        · omega
        · split <;> omega
      obtain ⟨n, hn⟩ := Nat.exists_eq_succ_of_ne_zero hpos.ne'
      simp [lowerCamelList, hn, hc]
    · have hzero : lowerCamelCount (c :: cs) = 0 := by
        have hle := lowerCamelCount_le (c :: cs)
        rw [List.takeWhile_cons_of_neg hc] at hle
        exact Nat.le_zero.mp hle
      simp [lowerCamelList, hzero, hc]

/-- A name keeps its length. At most the upper-case characters it begins with change, each to its
lower case, and the first one of them does. Nothing changes the second time. -/
theorem lowerCamel_changes_run (s : String) :
    (lowerCamel s).length = s.length ∧
      (∀ i, (lowerCamel s).toList[i]? ≠ s.toList[i]? →
        i < (s.toList.takeWhile isUpper).length ∧
          (lowerCamel s).toList[i]? = s.toList[i]?.map lowerChar) ∧
      ((lowerCamel s).toList.head? =
        s.toList.head?.map fun c ↦ if isUpper c then lowerChar c else c) ∧
      lowerCamel (lowerCamel s) = lowerCamel s := by
  have hchars : (lowerCamel s).toList = lowerCamelList s.toList := String.toList_ofList
  refine ⟨?_, ?_, ?_, ?_⟩
  · rw [← String.length_toList, hchars, length_lowerCamelList, String.length_toList]
  · intro i hne
    rw [hchars] at hne ⊢
    exact (getElem?_lowerCamelList_cases s.toList i).resolve_left hne
  · rw [hchars, head?_lowerCamelList]
  · rw [lowerCamel, hchars, lowerCamelList_lowerCamelList, ← hchars, String.ofList_toList]

/-- The first letter has no lower case, so the second time the run is this letter alone. -/
theorem lowerCamel_letter_that_stays :
    lowerCamel "𝐇TTPServer" = "𝐇ttpServer" ∧
      1 < ("𝐇TTPServer".toList.takeWhile isUpper).length ∧
      lowerCamel "𝐇ttpServer" = "𝐇ttpServer" := by
  have hlower : lowerCamel "𝐇TTPServer" = "𝐇ttpServer" := by decide +kernel
  obtain ⟨-, hrun, -, hagain⟩ := lowerCamel_changes_run "𝐇TTPServer"
  rw [hlower] at hrun hagain
  exact ⟨hlower, (hrun 1 (by decide)).1, hagain⟩

end GoOpenApi.Text
