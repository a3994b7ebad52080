import GoOpenApi.Proofs.Text.Split
import Mathlib.Data.List.DropRight

/-!
Trimmed texts. A text that is solid, without blanks at its ends, is its own trimming, and the
trimming of a longer text that begins with it.
-/

namespace GoOpenApi.Text

variable {as bs cs : List Char}

def AllBlank (cs : List Char) : Prop := ∀ c ∈ cs, isBlank c

instance : DecidablePred AllBlank := fun _ ↦ decidable_of_iff _ List.all_eq_true

/-- No blank stands at an end of the text. -/
def Solid (cs : List Char) : Prop :=
  ∀ c, cs.head? = some c ∨ cs.getLast? = some c → isBlank c = false

/-- What stands between two solid texts may have blanks at its ends. -/
theorem Solid.append_between (ha : Solid as) (hb : Solid bs) (hna : as ≠ []) (hnb : bs ≠ [])
    (cs : List Char) : Solid (as ++ (cs ++ bs)) := by
  rintro c (h | h)
  · rw [List.head?_append_of_ne_nil _ hna] at h
    exact ha c (.inl h)
  · rw [← List.append_assoc, List.getLast?_append_of_ne_nil _ hnb] at h
    exact hb c (.inr h)

theorem Solid.append (ha : Solid as) (hb : Solid bs) (hna : as ≠ []) (hnb : bs ≠ []) :
    Solid (as ++ bs) := ha.append_between hb hna hnb []

/-- Texts that have something in them, with commas between them. -/
theorem Solid.intercalate {pieces : List (List Char)}
    (h : ∀ piece ∈ pieces, piece ≠ [] ∧ Solid piece) : Solid ([','].intercalate pieces) := by
  by_cases hne : pieces = []
  · subst hne
    exact fun c h ↦ by simp at h
  · have hcomma : Solid [','] := by
      rintro c (h | h) <;> cases h <;> decide
    exact (intercalate_of_append hcomma (fun _ _ hna hnb ha hb ↦ ha.append hb hna hnb) hne h).2

theorem solid_of_forall (h : ∀ c ∈ cs, isBlank c = false) : Solid cs := by
  rintro c (hc | hc)
  · exact h c (List.mem_of_mem_head? hc)
  · exact h c (List.mem_of_getLast? hc)

theorem solid_trimList (cs : List Char) : Solid (trimList cs) := by
  have hprefix : trimList cs <+: cs.dropWhile isBlank := List.rdropWhile_prefix isBlank _
  rintro c (h | h)
  · obtain ⟨rest, he⟩ := hprefix
    have hne : trimList cs ≠ [] := by
      intro hn
      rw [hn] at h
      cases h
    have hhead : (trimList cs ++ rest).head? = (trimList cs).head? :=
      List.head?_append_of_ne_nil _ hne
    have hd := List.head?_dropWhile_not isBlank cs
    rw [← he, hhead, h] at hd
    simpa using hd
  · have hne : trimList cs ≠ [] := by
      intro hn
      rw [hn] at h
      cases h
    rw [List.getLast?_eq_some_getLast hne] at h
    cases h
    exact Bool.eq_false_iff.mpr (List.rdropWhile_last_not isBlank _ hne)

/-- Only blanks at the end of what follows a solid text are trimmed. -/
theorem Solid.trimList_append (h : Solid as) (hne : as ≠ []) (bs : List Char) :
    trimList (as ++ bs) = as ++ dropEndWhile isBlank bs := by
  obtain ⟨c, cs, rfl⟩ := List.exists_cons_of_ne_nil hne
  have hc := h c (.inl rfl)
  have hlast := h _ (.inr (List.getLast?_eq_some_getLast hne))
  have hself : dropEndWhile isBlank (c :: cs) = c :: cs :=
    List.rdropWhile_eq_self_iff.mpr fun _ ↦ by simp [hlast]
  rw [trimList, List.cons_append, List.dropWhile_cons_of_neg (by simp [hc]), ← List.cons_append,
    dropEndWhile, List.reverse_append, List.dropWhile_append]
  split
  · rename_i he
    have hb : dropEndWhile isBlank bs = [] := List.reverse_eq_nil_iff.mpr (List.isEmpty_iff.mp he)
    rw [hb, List.append_nil]
    exact hself
  · rw [List.reverse_append, List.reverse_reverse, dropEndWhile]

theorem Solid.trimList_eq (h : Solid cs) : trimList cs = cs := by
  cases cs with
  | nil => rfl
  | cons c cs => simpa [dropEndWhile] using h.trimList_append (List.cons_ne_nil c cs) []

theorem Solid.trim_eq {s : String} (h : Solid s.toList) : trim s = s := by
  rw [trim, h.trimList_eq, String.ofList_toList]

theorem trim_trim (s : String) : trim (trim s) = trim s := by
  refine Solid.trim_eq ?_
  rw [trim, String.toList_ofList]
  exact solid_trimList _

instance : DecidablePred Solid := fun cs ↦
  decidable_of_iff (trimList cs = cs) ⟨fun h ↦ h ▸ solid_trimList cs, Solid.trimList_eq⟩

theorem dropEndWhile_append_blank (hb : AllBlank bs) (as : List Char) :
    dropEndWhile isBlank (as ++ bs) = dropEndWhile isBlank as := by
  rw [dropEndWhile, List.reverse_append, List.dropWhile_append_of_pos, dropEndWhile]
  intro c hc
  exact hb c (List.mem_reverse.mp hc)

theorem trimList_blank_append (ha : AllBlank as) (bs : List Char) :
    trimList (as ++ bs) = trimList bs := by
  rw [trimList, List.dropWhile_append_of_pos ha, trimList]

theorem trimList_space_cons (cs : List Char) : trimList (' ' :: cs) = trimList cs :=
  @trimList_blank_append [' '] (by decide) cs

theorem trimList_append_blank (hb : AllBlank bs) (as : List Char) :
    trimList (as ++ bs) = trimList as := by
  rw [trimList, List.dropWhile_append]
  split
  · rename_i he
    have hnil : bs.dropWhile isBlank = [] := List.dropWhile_eq_nil_iff.mpr hb
    rw [hnil, trimList, List.isEmpty_iff.mp he]
  · rw [dropEndWhile_append_blank hb, trimList]

theorem exists_eq_dropEndWhile_append (cs : List Char) :
    ∃ bs, AllBlank bs ∧ cs = dropEndWhile isBlank cs ++ bs := by
  refine ⟨(cs.reverse.takeWhile isBlank).reverse,
    fun c hc ↦ List.mem_takeWhile_imp (List.mem_reverse.mp hc), ?_⟩
  rw [dropEndWhile, ← List.reverse_append, List.takeWhile_append_dropWhile, List.reverse_reverse]

theorem trimList_dropEndWhile (cs : List Char) :
    trimList (dropEndWhile isBlank cs) = trimList cs := by
  obtain ⟨bs, hb, he⟩ := exists_eq_dropEndWhile_append cs
  conv_rhs => rw [he, trimList_append_blank hb]

/-! ### Blanks around a text -/

/-- The second text is the first one with blanks around it. -/
def Padded (cs padded : List Char) : Prop :=
  ∃ as bs, AllBlank as ∧ AllBlank bs ∧ padded = as ++ cs ++ bs

variable {ds : List Char} {c : Char}

theorem padded_trimList (cs : List Char) : Padded (trimList cs) cs := by
  obtain ⟨bs, hb, he⟩ := exists_eq_dropEndWhile_append (cs.dropWhile isBlank)
  refine ⟨cs.takeWhile isBlank, bs, fun c hc ↦ List.mem_takeWhile_imp hc, hb, ?_⟩
  rw [trimList, List.append_assoc, ← he, List.takeWhile_append_dropWhile]

theorem AllBlank.padded (h : AllBlank cs) : Padded [] cs :=
  ⟨cs, [], h, by simp [AllBlank], by simp⟩

theorem Padded.trimList_eq (h : Padded cs ds) (hs : Solid cs) : trimList ds = cs := by
  obtain ⟨as, bs, ha, hb, rfl⟩ := h
  rw [trimList_append_blank hb, trimList_blank_append ha, hs.trimList_eq]

theorem Padded.notMem (h : Padded cs ds) (hc : c ∉ cs) (hb : isBlank c = false) : c ∉ ds := by
  obtain ⟨as, bs, has, hbs, rfl⟩ := h
  have hblank {bs : List Char} (hbs : AllBlank bs) : c ∉ bs := fun hm ↦ by
    simp [hbs c hm] at hb
  exact List.not_mem_append (List.not_mem_append (hblank has) hc) (hblank hbs)

theorem Padded.mem (h : Padded cs ds) (hc : c ∈ cs) : c ∈ ds := by
  obtain ⟨as, bs, -, -, rfl⟩ := h
  simp [hc]

/-- A text is blank, or it is a trimmed text with blanks around it. -/
theorem allBlank_or_padded (ds : List Char) :
    AllBlank ds ∨ ∃ s : String, s ≠ "" ∧ Solid s.toList ∧ Padded s.toList ds := by
  have hp := padded_trimList ds
  by_cases hne : trimList ds = []
  · left
    obtain ⟨as, bs, ha, hb, he⟩ := hp
    rw [he, hne, List.append_nil]
    exact List.forall_mem_append.mpr ⟨ha, hb⟩
  · right
    refine ⟨String.ofList (trimList ds), by simpa using hne, ?_, ?_⟩
    · rw [String.toList_ofList]
      exact solid_trimList ds
    · rwa [String.toList_ofList]

end GoOpenApi.Text
