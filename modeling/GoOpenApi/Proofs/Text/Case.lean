import GoOpenApi.Text.Case
import Mathlib.Data.List.Forall2
import Mathlib.Tactic.Common

/-!
What lower case leaves of a text. Signs are never made of letters, and names with one lower camel
case have the same letters.
-/

namespace GoOpenApi.Text

variable {c c' : Char} {cs cs' ds : List Char}

/-- What stands before the small letters is in lower case only where it was before. -/
theorem eq_of_toLower_eq (hc' : c'.toNat < 'a'.toNat) (h : c.toLower = c') : c = c' := by
  unfold Char.toLower at h
  split at h
  · rename_i hu
    obtain ⟨hlo, hhi⟩ := hu
    have hv := congrArg (fun c : Char ↦ c.val.toNat) h
    rw [ge_iff_le, UInt32.le_iff_toNat_le] at hlo
    rw [UInt32.le_iff_toNat_le] at hhi
    simp [UInt32.toNat_add] at hlo hhi hv hc'
    omega
  · exact h

theorem CharTable.lt_shifted {rows : List (Nat × Nat × Nat × Nat)} {n bound : Nat}
    (hr : ∀ row ∈ rows, bound < row.2.2.2) (hn : bound < n) : bound < shifted rows n := by
  unfold shifted
  split
  · rename_i lo hi step image hf
    exact Nat.lt_add_right _ (hr _ (List.mem_of_find?_eq_some hf))
  · exact hn

theorem eq_toNat_of_ofNat {n : Nat} (h : Char.ofNat n = c) (hc : c ≠ Char.ofNat 0) :
    n = c.toNat := by
  subst h
  by_cases hn : n.isValidChar
  · have he : Char.ofNat n = Char.ofNatAux n hn := dif_pos hn
    rw [he]
    rfl
  · exact absurd (dif_neg hn) hc

theorem lowerRows_above_slash : ∀ row ∈ lowerRows, '/'.toNat < row.2.2.2 := by decide +kernel

theorem lowerChar_ne_slash (h : c ≠ '/') : lowerChar c ≠ '/' := by
  unfold lowerChar
  split
  · exact fun hl ↦ h (eq_of_toLower_eq (by decide) hl)
  · rename_i hc
    split
    · decide
    -- rows of the table start above the slash and only add to a character
    · intro hl
      have hn : '/'.toNat < c.toNat := Nat.lt_of_lt_of_le (by decide) (Nat.le_of_not_lt hc)
      exact Nat.ne_of_lt (CharTable.lt_shifted lowerRows_above_slash hn)
        (eq_toNat_of_ofNat hl (by decide)).symm

theorem slash_not_mem_lowerCamelList (h : '/' ∉ cs) : '/' ∉ lowerCamelList cs := by
  intro hm
  rcases List.mem_append.mp hm with hm | hm
  · obtain ⟨c, hc, hl⟩ := List.mem_map.mp hm
    exact lowerChar_ne_slash (fun he ↦ h (he ▸ List.mem_of_mem_take hc)) hl
  · exact h (List.mem_of_mem_drop hm)

/-- The second character is the first or its lower case. -/
def Lowers (c d : Char) : Prop := d = c ∨ d = lowerChar c

theorem lowers_lowerCamelList (cs : List Char) : List.Forall₂ Lowers cs (lowerCamelList cs) := by
  have ht : List.Forall₂ Lowers (cs.take (lowerCamelCount cs))
      ((cs.take (lowerCamelCount cs)).map lowerChar) :=
    List.forall₂_map_right_iff.mpr (List.forall₂_same.mpr fun _ _ ↦ .inr rfl)
  have hd : List.Forall₂ Lowers (cs.drop (lowerCamelCount cs)) (cs.drop (lowerCamelCount cs)) :=
    List.forall₂_same.mpr fun _ _ ↦ .inl rfl
  have h : List.Forall₂ Lowers
      (cs.take (lowerCamelCount cs) ++ cs.drop (lowerCamelCount cs)) (lowerCamelList cs) :=
    List.rel_append ht hd
  rwa [List.take_append_drop] at h

/-- Lowered or not, the characters are the same. -/
def SameLetter (c c' : Char) : Prop := ∃ d, Lowers c d ∧ Lowers c' d

theorem sameLetters_of_lowers (h : List.Forall₂ Lowers cs ds) (h' : List.Forall₂ Lowers cs' ds) :
    List.Forall₂ SameLetter cs cs' := by
  induction h generalizing cs' with
  | nil =>
    cases h'
    exact .nil
  | cons hc _ ih =>
    cases h' with
    | cons hc' h' => exact .cons ⟨_, hc, hc'⟩ (ih h')

theorem sameLetters_of_lowerCamel {s s' : String} (h : lowerCamel s = lowerCamel s') :
    List.Forall₂ SameLetter s.toList s'.toList := by
  have hl : lowerCamelList s.toList = lowerCamelList s'.toList := String.ofList_injective h
  have hs := lowers_lowerCamelList s.toList
  rw [hl] at hs
  exact sameLetters_of_lowers hs (lowers_lowerCamelList s'.toList)

end GoOpenApi.Text
