import GoOpenApi.Text.Split
import Mathlib.Tactic.Common

/-!
A text is the pieces between its separators, and joined pieces are cut apart again.
-/

namespace GoOpenApi.Text

variable {p : Char → Bool}

theorem splitList_of_sep {c : Char} (hc : p c) (cs : List Char) :
    splitList p (c :: cs) = [] :: splitList p cs := by simp [splitList, hc]

theorem splitList_of_other {c : Char} {cs piece : List Char} {pieces : List (List Char)}
    (hc : ¬p c) (h : splitList p cs = piece :: pieces) :
    splitList p (c :: cs) = (c :: piece) :: pieces := by simp [splitList, hc, h]

theorem splitList_eq_cons (p : Char → Bool) (cs : List Char) :
    ∃ piece pieces, splitList p cs = piece :: pieces :=
  List.exists_cons_of_ne_nil (splitList_ne_nil p cs)

theorem splitList_of_none {cs : List Char} (h : ∀ c ∈ cs, ¬p c) : splitList p cs = [cs] := by
  induction cs with
  | nil => rfl
  | cons c cs ih =>
    rw [List.forall_mem_cons] at h
    rw [splitList_of_other h.1 (ih h.2)]

theorem not_sep_of_mem_splitList {cs piece : List Char} (h : piece ∈ splitList p cs) :
    ∀ c ∈ piece, ¬p c := by
  induction cs generalizing piece with
  | nil =>
    rw [splitList, List.mem_singleton] at h
    simp [h]
  | cons c cs ih =>
    by_cases hc : p c
    · rw [splitList_of_sep hc] at h
      rcases List.mem_cons.mp h with rfl | h
      · simp
      · exact ih h
    · obtain ⟨first, pieces, hp⟩ := splitList_eq_cons p cs
      rw [hp] at ih
      rw [splitList_of_other hc hp] at h
      rcases List.mem_cons.mp h with rfl | h
      · exact List.forall_mem_cons.mpr ⟨hc, ih List.mem_cons_self⟩
      · exact ih (List.mem_cons_of_mem _ h)

theorem splitList_append {sep : Char} (hs : p sep) (as bs : List Char) :
    splitList p (as ++ sep :: bs) = splitList p as ++ splitList p bs := by
  induction as with
  | nil => rw [List.nil_append, splitList_of_sep hs]; rfl
  | cons c as ih =>
    by_cases hc : p c
    · rw [List.cons_append, splitList_of_sep hc, splitList_of_sep hc, ih, List.cons_append]
    · obtain ⟨piece, pieces, h⟩ := splitList_eq_cons p as
      rw [splitList_of_other hc h]
      rw [h] at ih
      rw [List.cons_append, splitList_of_other hc ih]; rfl

theorem splitList_intercalate {sep : Char} {pieces : List (List Char)} (hne : pieces ≠ [])
    (h : ∀ piece ∈ pieces, sep ∉ piece) :
    splitList (· == sep) ([sep].intercalate pieces) = pieces := by
  induction pieces with
  | nil => exact absurd rfl hne
  | cons piece pieces ih =>
    rw [List.forall_mem_cons] at h
    have hpiece : splitList (· == sep) piece = [piece] :=
      splitList_of_none fun c hc he ↦ h.1 (beq_iff_eq.mp he ▸ hc)
    cases pieces with
    | nil => simpa using hpiece
    | cons next pieces =>
      rw [List.intercalate_cons_cons, List.append_assoc, List.singleton_append,
        splitList_append (p := (· == sep)) (by simp), hpiece, ih (List.cons_ne_nil _ _) h.2]
      rfl

theorem intercalate_splitList (sep : Char) (cs : List Char) :
    [sep].intercalate (splitList (· == sep) cs) = cs := by
  induction cs with
  | nil => rfl
  | cons c cs ih =>
    obtain ⟨piece, pieces, hp⟩ := splitList_eq_cons (· == sep) cs
    by_cases hc : c = sep
    · subst hc
      rw [splitList_of_sep (p := (· == c)) (by simp), hp, List.intercalate_cons_cons, ← hp, ih]
      rfl
    · rw [splitList_of_other (by simpa using hc) hp]
      rw [hp] at ih
      cases pieces with
      | nil => simpa using ih
      | cons next pieces =>
        rw [List.intercalate_cons_cons] at ih ⊢
        rw [List.cons_append, List.cons_append, ih]

theorem notMem_intercalate {sep c : Char} {pieces : List (List Char)} (hs : c ≠ sep)
    (h : ∀ piece ∈ pieces, c ∉ piece) : c ∉ [sep].intercalate pieces := by
  induction pieces with
  | nil => simp
  | cons piece pieces ih =>
    obtain ⟨hp, hps⟩ := List.forall_mem_cons.mp h
    cases pieces with
    | nil => simpa using hp
    | cons next pieces =>
      rw [List.intercalate_cons_cons]
      simp [hp, hs, ih hps]

/-- What holds of the pieces and of the separator holds of the joined text, if it holds of what
two texts make together. -/
theorem intercalate_of_append {P : List Char → Prop} {sep : Char} {pieces : List (List Char)}
    (hsep : P [sep])
    (happend : ∀ as bs, as ≠ [] → bs ≠ [] → P as → P bs → P (as ++ bs)) (hne : pieces ≠ [])
    (h : ∀ piece ∈ pieces, piece ≠ [] ∧ P piece) :
    [sep].intercalate pieces ≠ [] ∧ P ([sep].intercalate pieces) := by
  induction pieces with
  | nil => exact absurd rfl hne
  | cons piece pieces ih =>
    obtain ⟨⟨hpne, hpiece⟩, hpieces⟩ := List.forall_mem_cons.mp h
    cases pieces with
    | nil => simpa using ⟨hpne, hpiece⟩
    | cons next pieces =>
      obtain ⟨hrne, hrest⟩ := ih (List.cons_ne_nil _ _) hpieces
      rw [List.intercalate_cons_cons, List.append_assoc]
      have hbehind : P ([sep] ++ [sep].intercalate (next :: pieces)) :=
        happend _ _ (List.cons_ne_nil _ _) hrne hsep hrest
      exact ⟨by simp [hpne], happend _ _ hpne (by simp) hpiece hbehind⟩

/-! ### Cutting at a separator -/

variable {sep : Char} {cs as bs : List Char}

theorem cutList_eq_some_iff :
    cutList (· == sep) cs = some (as, bs) ↔ cs = as ++ sep :: bs ∧ sep ∉ as := by
  induction cs generalizing as with
  | nil => simp [cutList]
  | cons c cs ih =>
    rw [cutList]
    by_cases hc : c = sep
    · rw [if_pos (by simpa using hc)]
      cases as with
      | nil => simp [hc, eq_comm]
      | cons a as =>
        refine iff_of_false (by simp) fun ⟨h, hn⟩ ↦ hn ?_
        rw [← hc, (List.cons.inj h).1]
        exact List.mem_cons_self
    · rw [if_neg (by simpa using hc), Option.map_eq_some_iff]
      cases as with
      | nil => simp [hc]
      | cons a as =>
        simp only [Prod.exists, Prod.mk.injEq, List.cons.injEq, List.cons_append, List.mem_cons,
          not_or]
        grind

theorem cutList_eq_none_iff : cutList (· == sep) cs = none ↔ sep ∉ cs := by
  induction cs with
  | nil => simp [cutList]
  | cons c cs ih =>
    rw [cutList]
    by_cases hc : c = sep
    · simp [hc]
    · simp [hc, ih, Ne.symm hc]

theorem cutLast_eq_some_iff {s before after : String} : cutLast sep s = some (before, after) ↔
    s.toList = before.toList ++ sep :: after.toList ∧ sep ∉ after.toList := by
  have hrev (as bs : List Char) :
      s.toList.reverse = as ++ sep :: bs ↔ s.toList = bs.reverse ++ sep :: as.reverse := by
    rw [List.reverse_eq_iff]
    simp
  rw [cutLast, Option.map_eq_some_iff]
  constructor
  · rintro ⟨⟨as, bs⟩, hc, he⟩
    obtain ⟨hs, hn⟩ := cutList_eq_some_iff.mp hc
    cases he
    simpa [hrev] using And.intro hs hn
  · rintro ⟨hs, hn⟩
    refine ⟨(after.toList.reverse, before.toList.reverse), cutList_eq_some_iff.mpr ⟨?_, ?_⟩, ?_⟩
    · simpa [hrev] using hs
    · simpa using hn
    · simp

theorem dropHead_eq_some_iff {head cs rest : List Char} :
    dropHead head cs = some rest ↔ cs = head ++ rest := by
  unfold dropHead
  split
  · rename_i h
    obtain ⟨left, rfl⟩ := List.isPrefixOf_iff_prefix.mp h
    simp
  · rename_i h
    rw [List.isPrefixOf_iff_prefix] at h
    refine ⟨nofun, ?_⟩
    rintro rfl
    exact absurd (List.prefix_append _ _) h

end GoOpenApi.Text
