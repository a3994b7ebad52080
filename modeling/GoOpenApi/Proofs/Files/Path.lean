import GoOpenApi.Files.Tree
import GoOpenApi.Proofs.Text.Split

/-!
Paths with the same components name the same place, and those of a parent begin those of the path.
-/

namespace GoOpenApi

namespace Path

/-- The pieces between slashes. -/
def pieces (p : Path) : List (List Char) := Text.splitList (· == '/') p.text.toList

theorem filterMap_piecesFrom (start : Nat) (rest : List (List Char)) :
    ((piecesFrom start rest).filterMap fun piece ↦
      (component? false piece.1).map (·, piece.2)).map (·.1) =
      rest.filterMap (component? false) := by
  induction rest generalizing start with
  | nil => rfl
  | cons piece rest ih =>
    rw [piecesFrom, List.filterMap_cons, List.filterMap_cons]
    cases hc : component? false piece with
    | none => simpa [hc] using ih (start + piece.length + 1)
    | some c => simpa [hc] using ih (start + piece.length + 1)

theorem components_of_pieces {p : Path} {first : List Char} {rest : List (List Char)}
    (h : p.pieces = first :: rest) :
    p.components = (if p.isAbsolute then [.root] else (component? true first).toList) ++
      rest.filterMap (component? false) := by
  have hr := filterMap_piecesFrom (first.length + 1) rest
  rw [pieces] at h
  rw [components, placed, h, piecesFrom]
  simp only [Nat.zero_add]
  split
  · rw [List.map_cons, hr]; rfl
  · cases component? true first with
    | none => exact hr
    | some c => rw [List.map_cons, hr]; rfl

theorem component?_of_ne_nil {piece : List Char} (h : piece ≠ []) :
    component? true piece ≠ none := by
  unfold component?
  rw [if_neg h]
  split
  · simp
  · split <;> simp

theorem components_eq_nil {p : Path} (h : p.components = []) : p.text = "" := by
  obtain ⟨first, rest, hp⟩ := Text.splitList_eq_cons (· == '/') p.text.toList
  rw [components_of_pieces hp, List.append_eq_nil_iff] at h
  by_contra ht
  obtain ⟨c, cs, hc⟩ := List.exists_cons_of_ne_nil fun h ↦ ht (String.toList_eq_nil_iff.mp h)
  by_cases hs : c = '/'
  · simp [isAbsolute, hc, hs] at h
  · have ha : p.isAbsolute = false := by simp [isAbsolute, hc, hs]
    obtain ⟨piece, pieces, hpieces⟩ := Text.splitList_eq_cons (· == '/') cs
    rw [hc, Text.splitList_of_other (by simpa using hs) hpieces] at hp
    obtain ⟨rfl, rfl⟩ := List.cons.inj hp
    rw [ha] at h
    exact component?_of_ne_nil (List.cons_ne_nil _ _) (by simpa using h.1)

theorem components_nil_iff {p : Path} : p.components = [] ↔ p.text = "" := by
  refine ⟨components_eq_nil, fun h ↦ ?_⟩
  obtain ⟨text⟩ := p
  subst h
  rfl

/-- The pieces of a path with a slash and another one after it. -/
theorem components_of_slash {p r : Path} {as bs : List Char} (hr : r.text.toList = as ++ '/' :: bs)
    (hp : p.text.toList = as ∨ p.text.toList = as ++ ['/']) (hp' : p.text ≠ "") :
    r.components =
      p.components ++ (Text.splitList (· == '/') bs).filterMap (component? false) := by
  obtain ⟨first, rest, ha⟩ := Text.splitList_eq_cons (· == '/') as
  have hrp : r.pieces = first :: (rest ++ Text.splitList (· == '/') bs) := by
    rw [pieces, hr, Text.splitList_append rfl, ha, List.cons_append]
  have hpp : p.components =
      (if p.isAbsolute then [.root] else (component? true first).toList) ++
        rest.filterMap (component? false) := by
    rcases hp with hp | hp
    · exact components_of_pieces (by rw [pieces, hp, ha])
    · have h : p.pieces = first :: (rest ++ [[]]) := by
        rw [pieces, hp, Text.splitList_append rfl, ha]
        rfl
      rw [components_of_pieces h, List.filterMap_append]
      simp [component?]
  have habs : r.isAbsolute = p.isAbsolute := by
    obtain ⟨c, cs, hc⟩ := List.exists_cons_of_ne_nil fun h ↦ hp' (String.toList_eq_nil_iff.mp h)
    simp only [isAbsolute, hr, hc]
    rcases hp with hp | hp
    · simp [← hp, hc]
    · rw [hp] at hc
      cases as with
      | nil => rw [(List.cons.inj hc).1]; rfl
      | cons a as => rw [(List.cons.inj hc).1]; rfl
  rw [components_of_pieces hrp, hpp, habs, List.filterMap_append, List.append_assoc]

theorem components_join {p q : Path} (hp : p.text ≠ "") (hq : q.isAbsolute = false) :
    (p.join q).components = p.components ++ q.pieces.filterMap (component? false) := by
  by_cases hl : p.text.toList.getLast? = some '/'
  · obtain ⟨as, ha⟩ := List.getLast?_eq_some_iff.mp hl
    have hj : p.join q = ⟨p.text ++ q.text⟩ := by simp [join, hq, hl]
    exact hj ▸ components_of_slash (by simp [ha]) (.inr ha) hp
  · have hj : p.join q = ⟨p.text ++ "/" ++ q.text⟩ := by simp [join, hq, hl, hp]
    exact hj ▸ components_of_slash (by simp) (.inl rfl) hp

theorem components_join_congr {p p' : Path} (h : p.components = p'.components) (q : Path) :
    (p.join q).components = (p'.join q).components := by
  by_cases hq : q.isAbsolute
  · simp [join, hq]
  · have hq : q.isAbsolute = false := by simpa using hq
    by_cases hp : p.text = ""
    · have hp' : p'.text = "" := components_nil_iff.mp (h ▸ components_nil_iff.mpr hp)
      simp [join, hp, hp']
    · have hp' : p'.text ≠ "" :=
        fun hp' ↦ hp (components_nil_iff.mp (h ▸ components_nil_iff.mpr hp'))
      rw [components_join hp hq, components_join hp' hq, h]

theorem le_of_mem_piecesFrom {start stop : Nat} {piece : List Char} {pieces : List (List Char)}
    (h : (piece, stop) ∈ piecesFrom start pieces) : start ≤ stop := by
  induction pieces generalizing start with
  | nil => cases h
  | cons first pieces ih =>
    rcases List.mem_cons.mp h with h | h
    · obtain ⟨-, rfl⟩ := Prod.mk.inj h
      omega
    · have hle := ih h
      omega

theorem splitList_take {sep : Char → Bool} {cs piece : List Char} {start stop : Nat}
    {front rest : List (List Char × Nat)}
    (h : piecesFrom start (Text.splitList sep cs) = front ++ (piece, stop) :: rest) :
    Text.splitList sep (cs.take (stop - start)) = front.map (·.1) ++ [piece] := by
  induction cs generalizing start front piece with
  | nil =>
    cases front with
    | nil =>
      obtain ⟨rfl, rfl⟩ := Prod.mk.inj (List.cons.inj h).1
      simp [Text.splitList]
    | cons entry front => simp [Text.splitList, piecesFrom] at h
  | cons c cs ih =>
    -- cut behind the first character, what is left of the text is cut in the same way
    have hcut {piece : List Char} {front : List (List Char × Nat)}
        (h : piecesFrom (start + 1) (Text.splitList sep cs) = front ++ (piece, stop) :: rest) :
        ∃ left, (c :: cs).take (stop - start) = c :: left ∧
          Text.splitList sep left = front.map (·.1) ++ [piece] := by
      have hm : (piece, stop) ∈ piecesFrom (start + 1) (Text.splitList sep cs) := by simp [h]
      have hle := le_of_mem_piecesFrom hm
      refine ⟨cs.take (stop - (start + 1)), ?_, ih h⟩
      rw [show stop - start = stop - (start + 1) + 1 by omega, List.take_succ_cons]
    by_cases hs : sep c
    · rw [Text.splitList_of_sep hs, piecesFrom] at h
      cases front with
      | nil =>
        obtain ⟨rfl, rfl⟩ := Prod.mk.inj (List.cons.inj h).1
        simp [Text.splitList]
      | cons entry front =>
        obtain ⟨he, hr⟩ := List.cons.inj h
        obtain ⟨left, ht, hp⟩ := hcut hr
        rw [ht, Text.splitList_of_sep hs, hp, ← he]
        rfl
    · obtain ⟨first, pieces, hfirst⟩ := Text.splitList_eq_cons sep cs
      have hstart : start + (c :: first).length = start + 1 + first.length := by
        simp only [List.length_cons]
        omega
      rw [Text.splitList_of_other hs hfirst, piecesFrom, hstart] at h
      cases front with
      | nil =>
        obtain ⟨he, rfl⟩ := List.cons.inj h
        obtain ⟨rfl, rfl⟩ := Prod.mk.inj he
        obtain ⟨left, ht, hp⟩ := hcut (by rw [hfirst, piecesFrom, List.nil_append])
        rw [ht, Text.splitList_of_other hs hp]
        rfl
      | cons entry front =>
        obtain ⟨he, hr⟩ := List.cons.inj h
        obtain ⟨left, ht, hp⟩ := hcut (by rw [hfirst, piecesFrom, hr]; exact List.cons_append.symm)
        rw [ht, Text.splitList_of_other hs hp, ← he]
        rfl

theorem isAbsolute_take {p : Path} {stop : Nat} (h : 0 < stop) :
    isAbsolute ⟨String.ofList (p.text.toList.take stop)⟩ = p.isAbsolute := by
  obtain ⟨stop, rfl⟩ : ∃ n, stop = n + 1 := ⟨stop - 1, by omega⟩
  rw [isAbsolute, isAbsolute, String.toList_ofList]
  cases p.text.toList <;> rfl

section

variable {p : Path} {c : Component} {stop : Nat} {first : List Char} {more : List (List Char)}

theorem pieces_take {piece : List Char} {front rest : List (List Char × Nat)}
    (h : piecesFrom 0 p.pieces = front ++ (piece, stop) :: rest) :
    pieces ⟨String.ofList (p.text.toList.take stop)⟩ = front.map (·.1) ++ [piece] := by
  rw [pieces, String.toList_ofList]
  exact splitList_take h

theorem components_take {front rest : List (Component × Nat)} (hp : p.pieces = first :: more)
    (h : ((piecesFrom (first.length + 1) more).filterMap fun piece ↦
      (component? false piece.1).map (·, piece.2)) = front ++ (c, stop) :: rest) :
    components ⟨String.ofList (p.text.toList.take stop)⟩ =
      (if p.isAbsolute then [.root] else (component? true first).toList) ++
        (front.map (·.1) ++ [c]) := by
  obtain ⟨before, behind, hl, rfl, hbehind⟩ := List.filterMap_eq_append_iff.mp h
  obtain ⟨skipped, ⟨piece, stop'⟩, after, rfl, hskipped, hc, -⟩ :=
    List.filterMap_eq_cons_iff.mp hbehind
  obtain ⟨c', hpiece, he⟩ := Option.map_eq_some_iff.mp hc
  obtain ⟨rfl, rfl⟩ : c' = c ∧ stop' = stop := Prod.mk.inj he
  have hm : (piece, stop') ∈ piecesFrom (first.length + 1) more := by simp [hl]
  have hstop := le_of_mem_piecesFrom hm
  have hall : piecesFrom 0 p.pieces =
      ((first, first.length) :: (before ++ skipped)) ++ (piece, stop') :: after := by
    rw [hp, piecesFrom, Nat.zero_add, hl]
    simp
  have hq := pieces_take hall
  rw [List.map_cons, List.cons_append] at hq
  rw [components_of_pieces hq, isAbsolute_take (by omega)]
  have hnone : (skipped.map (·.1)).filterMap (component? false) = [] := by
    rw [List.filterMap_eq_nil_iff]
    intro cs hcs
    obtain ⟨entry, hentry, rfl⟩ := List.mem_map.mp hcs
    simpa using hskipped entry hentry
  have hfront : (before.map (·.1)).filterMap (component? false) =
      (before.filterMap fun piece ↦ (component? false piece.1).map (·, piece.2)).map (·.1) := by
    rw [List.map_filterMap, List.filterMap_map]
    simp [Function.comp_def]
  rw [List.map_append, List.filterMap_append, List.filterMap_append, hnone, hfront]
  simp [show component? false piece = some c' from hpiece]

/-- A path cut behind a component has the components up to that one. -/
theorem components_of_placed {front rest : List (Component × Nat)}
    (h : p.placed = front ++ (c, stop) :: rest) :
    components ⟨String.ofList (p.text.toList.take stop)⟩ = front.map (·.1) ++ [c] := by
  obtain ⟨first, more, hp⟩ := Text.splitList_eq_cons (· == '/') p.text.toList
  rw [placed, hp, piecesFrom, Nat.zero_add] at h
  simp only at h
  split at h
  · rename_i habs
    cases front with
    | nil =>
      obtain ⟨rfl, rfl⟩ := Prod.mk.inj (List.cons.inj h).1
      obtain ⟨cs, hcs⟩ := List.head?_eq_some_iff.mp (beq_iff_eq.mp habs)
      rw [hcs, List.take_succ_cons, List.take_zero]
      decide
    | cons entry front =>
      obtain ⟨rfl, hr⟩ := List.cons.inj h
      rw [components_take hp hr, if_pos habs]
      rfl
  · rename_i habs
    split at h
    · rename_i c' hc
      cases front with
      | nil =>
        obtain ⟨rfl, rfl⟩ := Prod.mk.inj (List.cons.inj h).1
        have hstop : 0 < first.length := by
          refine List.length_pos_iff.mpr fun hn ↦ ?_
          rw [hn] at hc
          cases hc
        have hq : pieces ⟨String.ofList (p.text.toList.take first.length)⟩ = [first] :=
          pieces_take (by rw [pieces, hp, piecesFrom, Nat.zero_add]; exact (List.nil_append _).symm)
        rw [components_of_pieces hq, isAbsolute_take hstop, if_neg habs, hc]
        rfl
      | cons entry front =>
        obtain ⟨rfl, hr⟩ := List.cons.inj h
        rw [components_take hp hr, if_neg habs, hc]
        rfl
    · rename_i hc
      rw [components_take hp h, if_neg habs, hc]
      rfl

end

/-- The parent of a path lacks its last component. -/
theorem components_parent {p q : Path} (h : p.parent = some q) :
    q.components = p.components.dropLast := by
  unfold parent at h
  split at h
  · cases h
  · cases h
  · rename_i hp
    cases h
    rw [components_nil_iff.mpr rfl, components, ← List.reverse_reverse p.placed, hp]
    rfl
  · rename_i last c stop rest _ hp
    cases h
    have hplaced : p.placed = rest.reverse ++ (c, stop) :: [last] := by
      rw [← List.reverse_reverse p.placed, hp]
      simp
    rw [components_of_placed hplaced, components, hplaced]
    simp

end Path

end GoOpenApi
