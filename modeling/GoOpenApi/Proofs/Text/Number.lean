import GoOpenApi.Text.Number
import Mathlib.Data.String.Basic

/-!
Written numbers are read back.
-/

namespace GoOpenApi.Text

theorem digitValue?_digitChar {base d : Nat} (h : d < base) (hb : base ≤ 16) :
    digitValue? base (Nat.digitChar d) = some d := by
  have ht : ∀ base < 17, ∀ d < base, digitValue? base (Nat.digitChar d) = some d := by decide
  exact ht base (by omega) d h

theorem digitsFrom_append (base : Nat) (cs ds : List Char) (acc : Nat) :
    digitsFrom base acc (cs ++ ds) =
      (digitsFrom base acc cs).bind fun n ↦ digitsFrom base n ds := by
  induction cs generalizing acc with
  | nil => rfl
  | cons c cs ih =>
    rw [List.cons_append, digitsFrom, digitsFrom, Option.bind_assoc]
    congr 1
    funext d
    exact ih _

theorem digitsFrom_concat {base acc n d : Nat} {cs : List Char}
    (h : digitsFrom base acc cs = some n) (hd : d < base) (hb : base ≤ 16) :
    digitsFrom base acc (cs ++ [Nat.digitChar d]) = some (n * base + d) := by
  rw [digitsFrom_append, h]
  simp [digitsFrom, digitValue?_digitChar hd hb]

theorem digitsFrom_toDigits (n : Nat) : digitsFrom 10 0 (Nat.toDigits 10 n) = some n := by
  induction n using Nat.strongRecOn with
  | ind n ih =>
    rcases Nat.lt_or_ge n 10 with h | h
    · rw [Nat.toDigits_of_lt_base h]
      simp [digitsFrom, digitValue?_digitChar h (by decide : 10 ≤ 16)]
    · rw [Nat.toDigits_of_base_le (by decide) h,
        digitsFrom_concat (ih (n / 10) (by omega)) (by omega) (by decide)]
      congr 1
      omega

theorem digits?_of_ne_nil {base : Nat} {cs : List Char} (h : cs ≠ []) :
    digits? base cs = digitsFrom base 0 cs := by
  cases cs with
  | nil => contradiction
  | cons c cs => rfl

theorem toDigits_ne_nil (n : Nat) : Nat.toDigits 10 n ≠ [] := by
  intro h
  have hn := digitsFrom_toDigits n
  rw [h] at hn
  obtain rfl : n = 0 := by simpa [digitsFrom] using hn.symm
  simp [Nat.toDigits_of_lt_base] at h

theorem digits?_toDigits (n : Nat) : digits? 10 (Nat.toDigits 10 n) = some n := by
  rw [digits?_of_ne_nil (toDigits_ne_nil n), digitsFrom_toDigits]

theorem length_hexList (width n : Nat) : (hexList width n).length = width := by
  induction width generalizing n with
  | zero => rfl
  | succ width ih => rw [hexList, List.length_append, ih]; rfl

theorem digitsFrom_hexList (width n : Nat) :
    digitsFrom 16 0 (hexList width n) = some (n % Nat.pow 16 width) := by
  induction width generalizing n with
  | zero => simp [hexList, digitsFrom, Nat.mod_one]
  | succ width ih =>
    rw [hexList, digitsFrom_concat (ih (n / 16)) (Nat.mod_lt _ (by decide)) (by decide)]
    congr 1
    have h := Nat.mod_mul (x := n) (a := 16) (b := Nat.pow 16 width)
    have hp : Nat.pow 16 (width + 1) = 16 * Nat.pow 16 width := Nat.pow_succ'
    rw [hp, h]
    omega

/-- Letters in digits may be small or capital. -/
theorem digitValue?_toUpper (c : Char) : digitValue? 16 c.toUpper = digitValue? 16 c := by
  by_cases h : 'a'.val ≤ c.val ∧ c.val ≤ 'z'.val
  · have hs : ∀ n < 123, 97 ≤ n →
        digitValue? 16 (Char.ofNat n).toUpper = digitValue? 16 (Char.ofNat n) := by decide
    have hc := hs c.toNat (Nat.lt_succ_of_le (UInt32.le_iff_toNat_le.mp h.2))
      (UInt32.le_iff_toNat_le.mp h.1)
    rwa [Char.ofNat_toNat] at hc
  · rw [show c.toUpper = c from dif_neg h]

theorem digitsFrom_map_toUpper (acc : Nat) (cs : List Char) :
    digitsFrom 16 acc (cs.map Char.toUpper) = digitsFrom 16 acc cs := by
  induction cs generalizing acc with
  | nil => rfl
  | cons c cs ih =>
    rw [List.map_cons, digitsFrom, digitsFrom, digitValue?_toUpper]
    congr 1
    funext d
    exact ih _

theorem isDigit_of_mem_toDigits {n : Nat} {c : Char} (h : c ∈ Nat.toDigits 10 n) : c.isDigit :=
  Nat.isDigit_of_mem_toDigits (by decide) (by decide) h

theorem not_isBlank_of_isDigit {c : Char} (h : c.isDigit) : isBlank c = false := by
  have ht : ∀ n < 58, 48 ≤ n → isBlank (Char.ofNat n) = false := by decide
  simp only [Char.isDigit, Bool.and_eq_true, decide_eq_true_eq] at h
  have hc := ht c.toNat (Nat.lt_succ_of_le (UInt32.le_iff_toNat_le.mp h.2))
    (UInt32.le_iff_toNat_le.mp h.1)
  rwa [Char.ofNat_toNat] at hc

theorem exists_toDigits_eq_cons (n : Nat) :
    ∃ c cs, Nat.toDigits 10 n = c :: cs ∧ c.isDigit ∧ ∀ d ∈ cs, d.isDigit := by
  cases h : Nat.toDigits 10 n with
  | nil => exact absurd h (toDigits_ne_nil n)
  | cons c cs =>
    have hall : ∀ d ∈ c :: cs, d.isDigit := fun d hd ↦ isDigit_of_mem_toDigits (h ▸ hd)
    exact ⟨c, cs, rfl, List.forall_mem_cons.mp hall⟩

theorem unsigned?_toDigits {bits n : Nat} (h : n < Nat.pow 2 bits) :
    unsigned? bits 10 (Nat.toDigits 10 n) = some n := by
  obtain ⟨c, cs, hd, hc, -⟩ := exists_toDigits_eq_cons n
  have hn := digits?_toDigits n
  have hsign : natural? 10 (c :: cs) = digits? 10 (c :: cs) := by
    rw [natural?]
    rintro cs ⟨⟩
    exact absurd hc (by decide)
  rw [unsigned?, hd, hsign, ← hd, hn]
  simpa using h

/-! ### The usual way to write a number -/

theorem eq_digitChar_of_digitValue? {c : Char} {d : Nat} (h : digitValue? 10 c = some d) :
    d < 10 ∧ c = Nat.digitChar d := by
  simp only [digitValue?, Option.filter_eq_some_iff, decide_eq_true_eq, Bool.and_eq_true] at h
  obtain ⟨hv, hd⟩ := h
  refine ⟨hd, Char.toNat_inj.mp ?_⟩
  rw [Nat.toNat_digitChar_of_lt_ten hd]
  -- the values of letters are ten and more
  split_ifs at hv <;> cases hv <;> omega

theorem toDigits_append_of_digitsFrom {acc n : Nat} {cs : List Char} (ha : 0 < acc)
    (h : digitsFrom 10 acc cs = some n) : Nat.toDigits 10 acc ++ cs = Nat.toDigits 10 n := by
  induction cs generalizing acc with
  | nil =>
    cases h
    exact List.append_nil _
  | cons c cs ih =>
    obtain ⟨d, hd, hrest⟩ := Option.bind_eq_some_iff.mp h
    obtain ⟨hlt, rfl⟩ := eq_digitChar_of_digitValue? hd
    have hstep := Nat.toDigits_append_toDigits (by decide : 1 < 10) ha hlt
    rw [Nat.toDigits_of_lt_base hlt, Nat.mul_comm] at hstep
    rw [List.append_cons, hstep, ih (by omega) hrest]

/-- A number without leading zeros is written with its digits. -/
theorem eq_toDigits_of_digits? {c : Char} {cs : List Char} {n : Nat} (hc : c ≠ '0')
    (h : digits? 10 (c :: cs) = some n) : c :: cs = Nat.toDigits 10 n := by
  obtain ⟨d, hd, hrest⟩ := Option.bind_eq_some_iff.mp h
  obtain ⟨hlt, rfl⟩ := eq_digitChar_of_digitValue? hd
  have hpos : 0 < d := Nat.pos_of_ne_zero fun hz ↦ hc (by rw [hz]; rfl)
  rw [Nat.zero_mul, Nat.zero_add] at hrest
  have hn := toDigits_append_of_digitsFrom hpos hrest
  rwa [Nat.toDigits_of_lt_base hlt] at hn

theorem head?_toDigits_ne_zero {n : Nat} (hn : 0 < n) : (Nat.toDigits 10 n).head? ≠ some '0' := by
  induction n using Nat.strongRecOn with
  | ind n ih =>
    rcases Nat.lt_or_ge n 10 with h | h
    · have ht : ∀ d < 10, 0 < d → Nat.digitChar d ≠ '0' := by decide
      rw [Nat.toDigits_of_lt_base h]
      simpa using ht n h hn
    · rw [Nat.toDigits_of_base_le (by decide) h,
        List.head?_append_of_ne_nil _ (toDigits_ne_nil _)]
      exact ih (n / 10) (by omega) (by omega)

/-- Of all ways to write a positive number the usual one is the last, since a plus sign and a zero
stand before all other digits. -/
theorem le_toString_of_natural? {s : String} {n : Nat} (hn : 0 < n)
    (h : natural? 10 s.toList = some n) : s ≤ toString n := by
  obtain ⟨d, ds, htext, hdigit, -⟩ := exists_toDigits_eq_cons n
  have hlow : '0' ≤ d := of_decide_eq_true (Bool.and_eq_true_iff.mp hdigit).1
  have hne : '0' ≠ d := by
    rintro rfl
    exact head?_toDigits_ne_zero hn (by rw [htext]; rfl)
  have hzero : '0' < d := hlow.lt_of_ne hne
  have hfirst {c : Char} (hc : c < d) (cs : List Char) : ¬d :: ds < c :: cs := fun hlt ↦
    (List.cons_lt_cons_iff.mp hlt).elim hc.asymm fun he ↦ hc.ne' he.1
  rw [← not_lt, String.lt_iff_toList_lt, Nat.toString_eq_repr, Nat.toList_repr]
  generalize s.toList = cs at h
  unfold natural? at h
  split at h
  · rw [htext]
    exact hfirst (lt_trans (by decide) hzero) _
  · cases cs with
    | nil => cases h
    | cons c cs =>
      by_cases hc : c = '0'
      · rw [htext, hc]
        exact hfirst hzero cs
      · rw [eq_toDigits_of_digits? hc h]
        exact List.lt_irrefl _

end GoOpenApi.Text
