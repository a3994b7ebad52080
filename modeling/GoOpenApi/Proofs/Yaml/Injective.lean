import GoOpenApi.Proofs.Yaml.Lead

/-!
Different values are written differently. The text of a value is told from what follows it: what
follows a block stands further left, and how a value begins says what kind of value it is.
-/

namespace GoOpenApi.Yaml

variable {cs r r' : List Char} {n : Nat} {v v' : Json}

/-! ### What follows -/

/-- What may follow a value in a mapping at `n`: no item at `n`, and nothing further right. -/
structure Follows (n : Nat) (r : List Char) : Prop where
  below : Below (n + 1) r
  noItem : ∀ t, r ≠ spaces n ++ '-' :: ' ' :: t

theorem Below.follows (h : Below n r) : Follows n r :=
  ⟨h.mono (Nat.le_succ n), fun _ ↦ h.ne_spaces_cons _ _⟩

theorem exists_entry_eq (n : Nat) (e : String × Json) (r : List Char) :
    ∃ c t, entry n e ++ r = c :: t ∧ c ≠ ' ' ∧ c ≠ '\n' ∧ lead (c :: t) ≠ .item := by
  obtain ⟨k, v⟩ := e
  rw [entry]
  split
  · simp [lead]
  · obtain ⟨c, t, ht, hs, hn, hl⟩ :=
      (fits_keyStyle k.toList).exists_cons (n + 2) (':' :: afterKey n v ++ r)
    refine ⟨c, t, ?_, hs, hn, by simp [hl]⟩
    rw [List.append_assoc]
    exact ht

theorem entries_nil_append (n : Nat) (r : List Char) : entries n [] ++ r = r := by
  rw [entries, List.nil_append]

theorem entries_cons_append (n : Nat) (e : String × Json) (members : List (String × Json))
    (r : List Char) :
    entries n (e :: members) ++ r = spaces n ++ (entry n e ++ (entries n members ++ r)) := by
  simp [entries]

theorem Below.follows_entries (h : Below n r) (members : List (String × Json)) :
    Follows n (entries n members ++ r) := by
  cases members with
  | nil =>
    rw [entries_nil_append]
    exact h.follows
  | cons e members =>
    rw [entries_cons_append]
    obtain ⟨c, t, ht, hs, hn, hl⟩ := exists_entry_eq n e (entries n members ++ r)
    rw [ht]
    refine ⟨.line (Nat.lt_succ_self n) hs hn, fun t' he ↦ ?_⟩
    rw [List.append_cancel_left he] at hl
    exact hl rfl

theorem sequence_nil_append (n : Nat) (r : List Char) : sequence n [] ++ r = r := by
  rw [sequence, List.nil_append]

theorem sequence_cons_append (n : Nat) (v : Json) (items : List Json) (r : List Char) :
    sequence n (v :: items) ++ r =
      spaces n ++ '-' :: (afterMarker n v ++ (sequence n items ++ r)) := by
  simp [sequence, item]

theorem Follows.below_sequence (h : Follows n r) (items : List Json) :
    Below (n + 1) (sequence n items ++ r) := by
  cases items with
  | nil =>
    rw [sequence_nil_append]
    exact h.below
  | cons v items =>
    rw [sequence_cons_append]
    exact .line (Nat.lt_succ_self n) (by decide) (by decide)

/-! ### Values -/

/-- The text of a value is told from what follows it. -/
structure Told (v : Json) : Prop where
  afterKey : ∀ {n v' r r'}, Written v' → Follows n r → Follows n r' →
    afterKey n v ++ r = afterKey n v' ++ r' → v = v' ∧ r = r'
  afterMarker : ∀ {n v' r r'}, Written v' → Below (n + 1) r → Below (n + 1) r' →
    afterMarker n v ++ r = afterMarker n v' ++ r' → v = v' ∧ r = r'

theorem entry_of_isLongKey {k : String} (hk : isLongKey k) (n : Nat) (v : Json) (r : List Char) :
    entry n (k, v) ++ r = '?' :: ' ' :: (key (n + 2) k ++
      '\n' :: (spaces n ++ ':' :: (afterMarker n v ++ r))) := by
  simp [entry, hk]

theorem entry_of_not_isLongKey {k : String} (hk : ¬isLongKey k) (n : Nat) (v : Json)
    (r : List Char) : entry n (k, v) ++ r = key (n + 2) k ++ ':' :: (afterKey n v ++ r) := by
  simp [entry, hk]

theorem entry_unique {e e' : String × Json} (ht : Told e.2) (hw : Written e'.2)
    (hr : Follows n r) (hr' : Follows n r') (h : entry n e ++ r = entry n e' ++ r') :
    e = e' ∧ r = r' := by
  obtain ⟨k, v⟩ := e
  obtain ⟨k', v'⟩ := e'
  -- a key after a question mark is no scalar
  have mixed {k k' : String} {v v' : Json} {r r' : List Char} (hk : isLongKey k)
      (hk' : ¬isLongKey k') : entry n (k, v) ++ r ≠ entry n (k', v') ++ r' := by
    rw [entry_of_isLongKey hk, entry_of_not_isLongKey hk']
    obtain ⟨c, t, ht, -, -, hl⟩ :=
      (fits_keyStyle k'.toList).exists_cons (n + 2) (':' :: (afterKey n v' ++ r'))
    have ht : key (n + 2) k' ++ ':' :: (afterKey n v' ++ r') = c :: t := ht
    rw [ht]
    intro he
    rw [← he] at hl
    cases hl
  by_cases hk : isLongKey k <;> by_cases hk' : isLongKey k'
  · rw [entry_of_isLongKey hk, entry_of_isLongKey hk', List.cons_inj_right,
      List.cons_inj_right] at h
    obtain ⟨-, hkey, hrest⟩ := (fits_keyStyle _).unique (fits_keyStyle _) rfl rfl h
    obtain ⟨rfl, hr⟩ := ht.afterMarker hw hr.below hr'.below
      (List.cons.inj (List.append_cancel_left (List.cons.inj hrest).2)).2
    exact ⟨by rw [String.toList_inj.mp hkey], hr⟩
  · exact absurd h (mixed hk hk')
  · exact absurd h.symm (mixed hk' hk)
  · rw [entry_of_not_isLongKey hk, entry_of_not_isLongKey hk'] at h
    have hend (v : Json) (r : List Char) : isEnd (':' :: (afterKey n v ++ r)) :=
      beginsBlank_afterKey n v r
    obtain ⟨-, hkey, hrest⟩ :=
      (fits_keyStyle _).unique (fits_keyStyle _) (hend v r) (hend v' r') h
    obtain ⟨rfl, hr⟩ := ht.afterKey hw hr hr' (List.cons.inj hrest).2
    exact ⟨by rw [String.toList_inj.mp hkey], hr⟩

theorem entries_unique {ms ms' : List (String × Json)} (ht : ∀ e ∈ ms, Told e.2)
    (hw : ∀ e ∈ ms', Written e.2) (hr : Below n r) (hr' : Below n r')
    (h : entries n ms ++ r = entries n ms' ++ r') : ms = ms' ∧ r = r' := by
  -- what is below the entries is no entry
  have ends {e : String × Json} {ms : List (String × Json)} {r r' : List Char} (hr : Below n r) :
      r ≠ entries n (e :: ms) ++ r' := by
    obtain ⟨c, t, ht, -⟩ := exists_entry_eq n e (entries n ms ++ r')
    rw [entries_cons_append, ht]
    exact hr.ne_spaces_cons c t
  induction ms generalizing ms' with
  | nil =>
    rw [entries_nil_append] at h
    cases ms' with
    | nil =>
      rw [entries_nil_append] at h
      exact ⟨rfl, h⟩
    | cons e' ms' => exact absurd h (ends hr)
  | cons e ms ih =>
    cases ms' with
    | nil =>
      rw [entries_nil_append] at h
      exact absurd h.symm (ends hr')
    | cons e' ms' =>
      rw [List.forall_mem_cons] at ht hw
      rw [entries_cons_append, entries_cons_append] at h
      obtain ⟨rfl, hrest⟩ := entry_unique ht.1 hw.1 (hr.follows_entries ms)
        (hr'.follows_entries ms') (List.append_cancel_left h)
      obtain ⟨rfl, hr⟩ := ih ht.2 hw.2 hrest
      exact ⟨rfl, hr⟩

theorem sequence_unique {items items' : List Json} (ht : ∀ v ∈ items, Told v)
    (hw : ∀ v ∈ items', Written v) (hr : Follows n r) (hr' : Follows n r')
    (h : sequence n items ++ r = sequence n items' ++ r') : items = items' ∧ r = r' := by
  have ends {v : Json} {items : List Json} {r r' : List Char} (hr : Follows n r) :
      r ≠ sequence n (v :: items) ++ r' := by
    obtain ⟨t, ht⟩ := exists_afterMarker_eq_space n v
    rw [sequence_cons_append, ht]
    exact hr.noItem _
  induction items generalizing items' with
  | nil =>
    rw [sequence_nil_append] at h
    cases items' with
    | nil =>
      rw [sequence_nil_append] at h
      exact ⟨rfl, h⟩
    | cons v' items' => exact absurd h (ends hr)
  | cons v items ih =>
    cases items' with
    | nil =>
      rw [sequence_nil_append] at h
      exact absurd h.symm (ends hr')
    | cons v' items' =>
      rw [List.forall_mem_cons] at ht hw
      rw [sequence_cons_append, sequence_cons_append] at h
      obtain ⟨rfl, hrest⟩ := ht.1.afterMarker hw.1 (hr.below_sequence items)
        (hr'.below_sequence items') (List.cons.inj (List.append_cancel_left h)).2
      obtain ⟨rfl, hr⟩ := ih ht.2 hw.2 hrest
      exact ⟨rfl, hr⟩

theorem afterKey_obj_append (n : Nat) (e : String × Json) (members : List (String × Json))
    (r : List Char) : afterKey n (.obj (e :: members)) ++ r =
      '\n' :: (entries (n + 2) (e :: members) ++ r) := by
  simp [afterKey, entries]

theorem afterKey_arr_append (n : Nat) (v : Json) (items : List Json) (r : List Char) :
    afterKey n (.arr (v :: items)) ++ r = '\n' :: (sequence n (v :: items) ++ r) := by
  simp [afterKey, sequence]

theorem afterMarker_obj_append (n : Nat) (e : String × Json) (members : List (String × Json))
    (r : List Char) : ∃ t, afterMarker n (.obj (e :: members)) ++ r = ' ' :: t ∧
      entries (n + 2) (e :: members) ++ r = spaces (n + 2) ++ t :=
  ⟨entry (n + 2) e ++ (entries (n + 2) members ++ r), by simp [afterMarker],
    entries_cons_append _ _ _ _⟩

theorem afterMarker_arr_append (n : Nat) (v : Json) (items : List Json) (r : List Char) :
    ∃ t, afterMarker n (.arr (v :: items)) ++ r = ' ' :: t ∧
      sequence (n + 2) (v :: items) ++ r = spaces (n + 2) ++ t :=
  ⟨item (n + 2) v ++ (sequence (n + 2) items ++ r), by simp [afterMarker],
    by simp [sequence]⟩

theorem leadOf_eq (hw : Written v) (hw' : Written v')
    (h : afterMarker n v ++ r = afterMarker n v' ++ r') : leadOf v = leadOf v' := by
  obtain ⟨t, ht, hl⟩ := exists_afterMarker hw n r
  obtain ⟨t', ht', hl'⟩ := exists_afterMarker hw' n r'
  rw [ht, ht'] at h
  rw [← hl, ← hl', (List.cons.inj h).2]

/-- Two values whose texts begin with scalars have one scalar there. -/
theorem opening_eq (hw : Written v) (hw' : Written v') (hl : leadOf v = .scalar)
    (h : afterMarker n v ++ r = afterMarker n v' ++ r') :
    opening v = opening v' ∧ remainder n v ++ r = remainder n v' ++ r' := by
  have hl' : leadOf v' = .scalar := (leadOf_eq hw hw' h).symm.trans hl
  obtain ⟨k, he⟩ := exists_afterMarker_eq hw hl n r
  obtain ⟨k', he'⟩ := exists_afterMarker_eq hw' hl' n r'
  rw [he, he', List.cons_inj_right] at h
  obtain ⟨hs, hcs, hr⟩ := (fits_opening hw hl).unique (fits_opening hw' hl')
    (isEnd_remainder n v r) (isEnd_remainder n v' r') h
  exact ⟨Prod.ext hs hcs, hr⟩

/-- A value stands on the line of its key as on that of a marker, or it is a block. -/
theorem line_or_block (v : Json) : (∀ n, afterKey n v = afterMarker n v) ∨
    (∃ e members, v = .obj (e :: members)) ∨ ∃ w items, v = .arr (w :: items) := by
  obtain _ | _ | _ | _ | (_ | ⟨w, items⟩) | (_ | ⟨e, members⟩) := v
  case arr.cons => exact .inr (.inr ⟨w, items, rfl⟩)
  case obj.cons => exact .inr (.inl ⟨e, members, rfl⟩)
  all_goals exact .inl fun n ↦ by rw [afterKey, afterMarker]

theorem afterKey_ne_lineFeed (hline : ∀ n, afterKey n v = afterMarker n v) :
    afterKey n v ++ r ≠ '\n' :: cs := by
  obtain ⟨t, ht⟩ := exists_afterMarker_eq_space n v
  rw [hline, ht]
  nofun

theorem told_of_line (hline : ∀ n, afterKey n v = afterMarker n v)
    (hm : ∀ {n v' r r'}, Written v' → Below (n + 1) r → Below (n + 1) r' →
      afterMarker n v ++ r = afterMarker n v' ++ r' → v = v' ∧ r = r') : Told v := by
  refine ⟨fun {n v' r r'} hw' hr hr' h ↦ ?_, hm⟩
  rcases line_or_block v' with hline' | ⟨e, members, rfl⟩ | ⟨w, items, rfl⟩
  · rw [hline, hline'] at h
    exact hm hw' hr.below hr'.below h
  · rw [afterKey_obj_append] at h
    exact absurd h (afterKey_ne_lineFeed hline)
  · rw [afterKey_arr_append] at h
    exact absurd h (afterKey_ne_lineFeed hline)

/-- A scalar and nothing more on its line is one value. -/
theorem eq_of_opening_eq (hw : Written v) (hw' : Written v') (hl : leadOf v = .scalar)
    (hline : remainder n v = ['\n']) (h : afterMarker n v ++ r = afterMarker n v' ++ r') :
    v = v' ∧ r = r' := by
  have hl' : leadOf v' = .scalar := (leadOf_eq hw hw' h).symm.trans hl
  obtain ⟨ho, hrest⟩ := opening_eq hw hw' hl h
  rw [hline] at hrest
  -- a text that a truth value would be written as is quoted
  have mixed {b : Bool} {s : String} : opening (.bool b) ≠ opening (.str s) := by
    intro ho
    obtain ⟨hs, hcs⟩ := Prod.mk.inj ho
    rw [← hcs] at hs
    exact style_bool_ne_plain b hs.symm
  cases hw' with
  | bool b' =>
    refine ⟨?_, (List.cons.inj hrest).2⟩
    cases hw with
    | bool b =>
      have hb : toString b = toString b' := String.toList_inj.mp (Prod.mk.inj ho).2
      have hb : b = b' := by
        revert hb
        cases b <;> cases b' <;> decide
      rw [hb]
    | str _ => exact absurd ho.symm mixed
    | @arr items _ => cases items <;> cases hl
    | @obj members _ => cases members <;> cases hline; cases hl
  | @str s' _ =>
    refine ⟨?_, (List.cons.inj hrest).2⟩
    cases hw with
    | bool b => exact absurd ho mixed
    | str _ => rw [String.toList_inj.mp (Prod.mk.inj ho).2]
    | @arr items _ => cases items <;> cases hl
    | @obj members _ => cases members <;> cases hline; cases hl
  | @arr items _ => cases items <;> cases hl'
  | @obj members _ => cases members <;> first | cases hl' | cases hrest

theorem mem_of_style_eq_literal (h : style cs = .literal) : '\n' ∈ cs := by
  unfold style at h
  split at h
  · rename_i hn
    simpa using hn
  · split at h
    · cases h
    · split at h <;> cases h

theorem told_bool (b : Bool) : Told (.bool b) :=
  told_of_line (fun n ↦ by rw [afterKey, afterMarker]) fun hw' _ _ h ↦
    eq_of_opening_eq (.bool b) hw' rfl rfl h

theorem afterMarker_literal_append {s : String} (hs : style s.toList = .literal) (n : Nat)
    (r : List Char) : afterMarker n (.str s) ++ r =
      ' ' :: (literalHeader s.toList ++ '\n' :: (literalBody (n + 2) s.toList ++ r)) := by
  simp [afterMarker, scalarLine, hs]

theorem told_str {s : String} (hu : Unbroken s.toList) : Told (.str s) := by
  refine told_of_line (fun n ↦ by rw [afterKey, afterMarker]) fun {n v' r r'} hw' hr hr' h ↦ ?_
  by_cases hs : style s.toList = .literal
  · have hl : leadOf v' = .literal := by
      rw [← leadOf_eq (.str hu) hw' h]
      simp [leadOf, hs]
    obtain ⟨s', rfl, hs'⟩ := isOf_of_leadOf_eq hl
    obtain _ | hu' := hw'
    rw [afterMarker_literal_append hs, afterMarker_literal_append hs', List.cons_inj_right] at h
    obtain ⟨hcs, hrest⟩ := literal_unique (Nat.succ_pos _) hu hu' (mem_of_style_eq_literal hs)
      (mem_of_style_eq_literal hs') (hr.mono (Nat.le_succ _)) (hr'.mono (Nat.le_succ _)) h
    exact ⟨by rw [String.toList_inj.mp hcs], hrest⟩
  · exact eq_of_opening_eq (.str hu) hw' (leadOf_str_iff.mpr hs) rfl h

theorem told_nil_arr : Told (.arr []) := by
  refine told_of_line (fun n ↦ by rw [afterKey, afterMarker]) fun {n v' r r'} hw' hr hr' h ↦ ?_
  have hl := leadOf_eq (.arr (List.forall_mem_nil _)) hw' h
  obtain rfl : v' = .arr [] := isOf_of_leadOf_eq hl.symm
  exact ⟨rfl, List.append_cancel_left h⟩

theorem told_nil_obj : Told (.obj []) := by
  refine told_of_line (fun n ↦ by rw [afterKey, afterMarker]) fun {n v' r r'} hw' hr hr' h ↦ ?_
  have hl := leadOf_eq (.obj (List.forall_mem_nil _)) hw' h
  obtain rfl : v' = .obj [] := isOf_of_leadOf_eq hl.symm
  exact ⟨rfl, List.append_cancel_left h⟩

/-- The entries after a key stand further right than items do. -/
theorem afterKey_obj_ne_afterKey_arr {e : String × Json} {members : List (String × Json)}
    {items : List Json} :
    afterKey n (.obj (e :: members)) ++ r ≠ afterKey n (.arr (v :: items)) ++ r' := by
  rw [afterKey_obj_append, afterKey_arr_append, entries_cons_append, sequence_cons_append]
  intro h
  exact spaces_append_ne (by omega) (by decide) (List.cons.inj h).2.symm

theorem told_cons_arr {items : List Json} (hw : Written (.arr (v :: items)))
    (ht : ∀ w ∈ v :: items, Told w) : Told (.arr (v :: items)) := by
  refine ⟨fun {n v' r r'} hw' hr hr' h ↦ ?_, fun {n v' r r'} hw' hr hr' h ↦ ?_⟩
  · rcases line_or_block v' with hline | ⟨e, members, rfl⟩ | ⟨w, items', rfl⟩
    · rw [afterKey_arr_append] at h
      exact absurd h.symm (afterKey_ne_lineFeed hline)
    · exact absurd h.symm afterKey_obj_ne_afterKey_arr
    · obtain _ | _ | hw' | _ := hw'
      rw [afterKey_arr_append, afterKey_arr_append] at h
      obtain ⟨hitems, hrest⟩ := sequence_unique ht hw' hr hr' (List.cons.inj h).2
      exact ⟨by rw [hitems], hrest⟩
  · obtain ⟨w, items', rfl⟩ := isOf_of_leadOf_eq (leadOf_eq hw hw' h).symm
    obtain ⟨t, htext, hs⟩ := afterMarker_arr_append n v items r
    obtain ⟨t', htext', hs'⟩ := afterMarker_arr_append n w items' r'
    rw [htext, htext', List.cons_inj_right] at h
    obtain _ | _ | hw' | _ := hw'
    obtain ⟨hitems, hrest⟩ := sequence_unique ht hw' (hr.mono (Nat.le_succ _)).follows
      (hr'.mono (Nat.le_succ _)).follows (by rw [hs, hs', h])
    exact ⟨by rw [hitems], hrest⟩

/-- A mapping on the line of a marker is no scalar, as a colon follows its first key. -/
theorem exists_of_afterMarker_obj {e : String × Json} {members : List (String × Json)}
    (hw : Written (.obj (e :: members))) (hw' : Written v')
    (h : afterMarker n (.obj (e :: members)) ++ r = afterMarker n v' ++ r') :
    ∃ e' members', v' = .obj (e' :: members') := by
  by_cases hk : isLongKey e.1
  · exact isOf_of_leadOf_eq ((leadOf_eq hw hw' h).symm.trans (if_pos hk))
  · obtain ⟨-, hrest⟩ := opening_eq hw hw' (if_neg hk) h
    cases v' with
    | obj members' =>
      cases members' with
      | nil => cases hrest
      | cons e' members' => exact ⟨e', members', rfl⟩
    | _ => cases hrest

theorem told_cons_obj {e : String × Json} {members : List (String × Json)}
    (hw : Written (.obj (e :: members))) (ht : ∀ e' ∈ e :: members, Told e'.2) :
    Told (.obj (e :: members)) := by
  refine ⟨fun {n v' r r'} hw' hr hr' h ↦ ?_, fun {n v' r r'} hw' hr hr' h ↦ ?_⟩
  · rcases line_or_block v' with hline | ⟨e', members', rfl⟩ | ⟨w, items, rfl⟩
    · rw [afterKey_obj_append] at h
      exact absurd h.symm (afterKey_ne_lineFeed hline)
    · obtain _ | _ | _ | hw' := hw'
      rw [afterKey_obj_append, afterKey_obj_append] at h
      obtain ⟨hmembers, hrest⟩ := entries_unique ht hw' (hr.below.mono (Nat.le_succ _))
        (hr'.below.mono (Nat.le_succ _)) (List.cons.inj h).2
      exact ⟨by rw [hmembers], hrest⟩
    · exact absurd h afterKey_obj_ne_afterKey_arr
  · obtain ⟨e', members', rfl⟩ := exists_of_afterMarker_obj hw hw' h
    obtain ⟨t, htext, hs⟩ := afterMarker_obj_append n e members r
    obtain ⟨t', htext', hs'⟩ := afterMarker_obj_append n e' members' r'
    rw [htext, htext', List.cons_inj_right] at h
    obtain _ | _ | _ | hw' := hw'
    obtain ⟨hmembers, hrest⟩ := entries_unique ht hw' (hr.mono (Nat.le_succ _))
      (hr'.mono (Nat.le_succ _)) (by rw [hs, hs', h])
    exact ⟨by rw [hmembers], hrest⟩

theorem Written.told (hw : Written v) : Told v := by
  induction hw with
  | bool b => exact told_bool b
  | str hu => exact told_str hu
  | @arr items hw ih =>
    cases items with
    | nil => exact told_nil_arr
    | cons v items => exact told_cons_arr (.arr hw) ih
  | @obj members hw ih =>
    cases members with
    | nil => exact told_nil_obj
    | cons e members => exact told_cons_obj (.obj hw) ih

/-- Two mappings that are written alike are one. -/
theorem render_obj_injective {ms ms' : List (String × Json)} (hw : Written (.obj ms))
    (hw' : Written (.obj ms')) (hne : ms ≠ []) (hne' : ms' ≠ [])
    (h : render (.obj ms) = render (.obj ms')) : ms = ms' := by
  have hlist {ms : List (String × Json)} (hne : ms ≠ []) :
      renderList (.obj ms) = entries 0 ms ++ [] := by
    cases ms with
    | nil => exact absurd rfl hne
    | cons e ms => simp [renderList, entries, spaces]
  have htext := String.ofList_injective h
  rw [hlist hne, hlist hne'] at htext
  obtain _ | _ | _ | hw := hw
  obtain _ | _ | _ | hw' := hw'
  exact (entries_unique (fun e he ↦ (hw e he).told) hw' .nil .nil htext).1

end GoOpenApi.Yaml
