import GoOpenApi.Go.Tag
import GoOpenApi.Proofs.Dict
import GoOpenApi.Proofs.Text.Blank
import Mathlib.Tactic.MkIffOfInductiveProp

/-!
Struct tags in canonical form are read back, whatever the order of their items and the blanks
between them. A rest without a colon is left out.
-/

namespace GoOpenApi.Tag

variable {cs r : List Char}

/-- No blank stands at an end of the text. -/
def Trimmed (s : String) : Prop := Text.trimList s.toList = s.toList

/-- An entry that a tag can hold: it has a value, no blanks at the ends of its texts, and none of
the signs that set them off. -/
@[mk_iff]
structure CanonicalItem (e : String × List String) : Prop where
  key : ':' ∉ e.1.toList
  trimmedKey : Trimmed e.1
  nonempty : e.2 ≠ []
  trimmedValues : ∀ v ∈ e.2, Trimmed v
  values : ∀ v ∈ e.2, ',' ∉ v.toList ∧ '"' ∉ v.toList

@[mk_iff]
structure Canonical (tags : Dict (List String)) : Prop where
  ordered : tags.Ordered
  items : ∀ e ∈ tags, CanonicalItem e

instance (s : String) : Decidable (Trimmed s) := inferInstanceAs (Decidable (_ = _))

instance (e : String × List String) : Decidable (CanonicalItem e) :=
  decidable_of_iff' _ (canonicalItem_iff e)

instance (tags : Dict (List String)) : Decidable (Canonical tags) :=
  decidable_of_iff' _ (canonical_iff tags)

/-- An item `key:"value,value"`. -/
def itemChars (e : String × List String) : List Char :=
  e.1.toList ++ ':' :: '"' :: ([','].intercalate (e.2.map String.toList) ++ ['"'])

/-- Items with what stands after each of them. -/
def itemsChars (items : List ((String × List String) × List Char)) : List Char :=
  items.flatMap fun item ↦ itemChars item.1 ++ item.2

/-! ### Items -/

theorem item?_itemChars {e : String × List String} (h : CanonicalItem e) (r : List Char) :
    item? (itemChars e ++ r) = some (e, r) := by
  obtain ⟨key, values⟩ := e
  have hkey : Text.cutList (· == ':') (key.toList ++
      ':' :: '"' :: ([','].intercalate (values.map String.toList) ++ '"' :: r)) = some _ :=
    Text.cutList_eq_some_iff.mpr ⟨rfl, h.key⟩
  have hquote : '"' ∉ [','].intercalate (values.map String.toList) := by
    refine Text.notMem_intercalate (by decide) fun piece hp ↦ ?_
    obtain ⟨v, hv, rfl⟩ := List.mem_map.mp hp
    exact (h.values v hv).2
  have hvalue : Text.cutList (· == '"')
      ([','].intercalate (values.map String.toList) ++ '"' :: r) = some _ :=
    Text.cutList_eq_some_iff.mpr ⟨rfl, hquote⟩
  have hsplit : Text.splitList (· == ',') ([','].intercalate (values.map String.toList)) =
      values.map String.toList := by
    refine Text.splitList_intercalate (by simpa using h.nonempty) fun piece hp ↦ ?_
    obtain ⟨v, hv, rfl⟩ := List.mem_map.mp hp
    exact (h.values v hv).1
  have hvalues : (values.map String.toList).map (fun v ↦ String.ofList (Text.trimList v)) =
      values := by
    rw [List.map_map]
    refine (List.map_congr_left fun v hv ↦ ?_).trans (List.map_id values)
    rw [Function.comp_apply, h.trimmedValues v hv, String.ofList_toList, id]
  have hk : String.ofList (Text.trimList key.toList) = key := by
    rw [h.trimmedKey, String.ofList_toList]
  have htext : itemChars (key, values) ++ r = key.toList ++
      ':' :: ('"' :: ([','].intercalate (values.map String.toList) ++ '"' :: r)) := by
    simp [itemChars]
  rw [htext, item?, hkey]
  simp only [Option.bind_eq_bind, Option.bind_some, hvalue, hsplit, hvalues, hk]
  rfl

theorem solid_itemChars {e : String × List String} (h : CanonicalItem e) :
    Text.Solid (itemChars e) := by
  have hkey : Text.Solid e.1.toList := by
    have hs := Text.solid_trimList e.1.toList
    rwa [h.trimmedKey] at hs
  have hvalue :
      Text.Solid (':' :: '"' :: ([','].intercalate (e.2.map String.toList) ++ ['"'])) := by
    rintro c (hc | hc)
    · cases hc
      decide
    · rw [← List.cons_append, ← List.cons_append, List.getLast?_concat] at hc
      cases hc
      decide
  by_cases hne : e.1.toList = []
  · rwa [itemChars, hne]
  · exact hkey.append hvalue hne (List.cons_ne_nil _ _)

theorem itemChars_ne_nil (e : String × List String) : itemChars e ≠ [] := by simp [itemChars]

theorem items_of_notMem (h : ':' ∉ cs) (n : Nat) : items n cs = [] := by
  cases n with
  | zero => rfl
  | succ n =>
    have hitem : item? cs = none := by
      rw [item?, Text.cutList_eq_none_iff.mpr h]
      rfl
    rw [items, hitem]

theorem dropWhile_itemsChars {items : List ((String × List String) × List Char)}
    (h : ∀ item ∈ items, CanonicalItem item.1) {rest : List Char} (hr : ':' ∉ rest) :
    ∃ rest', ':' ∉ rest' ∧
      (itemsChars items ++ rest).dropWhile Text.isBlank = itemsChars items ++ rest' := by
  cases items with
  | nil => exact ⟨_, fun hm ↦ hr ((List.dropWhile_sublist _).subset hm), rfl⟩
  | cons item items =>
    obtain ⟨c, cs, hc⟩ := List.exists_cons_of_ne_nil (itemChars_ne_nil item.1)
    have hb := solid_itemChars (h item List.mem_cons_self) c (.inl (by rw [hc]; rfl))
    exact ⟨rest, hr, by simp [itemsChars, hc, hb]⟩

/-- Items are read one by one, whatever blanks stand between them. -/
theorem items_itemsChars {items : List ((String × List String) × List Char)}
    (h : ∀ item ∈ items, CanonicalItem item.1) (hb : ∀ item ∈ items, Text.AllBlank item.2)
    {rest : List Char} (hr : ':' ∉ rest) {n : Nat} (hn : items.length ≤ n) :
    Tag.items n (itemsChars items ++ rest) = items.map (·.1) := by
  induction items generalizing n rest with
  | nil => exact items_of_notMem hr n
  | cons item items ih =>
    obtain ⟨e, gap⟩ := item
    obtain ⟨he, hes⟩ := List.forall_mem_cons.mp h
    obtain ⟨hgap, hgaps⟩ := List.forall_mem_cons.mp hb
    cases n with
    | zero => cases hn
    | succ n =>
      have htext : itemsChars ((e, gap) :: items) ++ rest =
          itemChars e ++ (gap ++ (itemsChars items ++ rest)) := by
        simp [itemsChars]
      have hread := item?_itemChars he (gap ++ (itemsChars items ++ rest))
      obtain ⟨rest', hr', hrest⟩ := dropWhile_itemsChars hes hr
      rw [htext, Tag.items, hread]
      simp only [List.dropWhile_append_of_pos hgap, hrest,
        ih hes hgaps hr' (Nat.le_of_succ_le_succ hn), List.map_cons]

theorem length_le_length_itemsChars {items : List ((String × List String) × List Char)} :
    items.length ≤ (itemsChars items).length := by
  induction items with
  | nil => exact Nat.le_refl 0
  | cons item items ih =>
    have hi : 0 < (itemChars item.1).length := by
      simp only [itemChars, List.length_append, List.length_cons]
      omega
    rw [itemsChars, List.flatMap_cons, List.length_append, List.length_append, List.length_cons]
    rw [itemsChars] at ih
    omega

/-! ### Tags -/

/-- Trimming leaves all items, and at most blanks behind the last of them go. -/
theorem trimList_itemsChars {items : List ((String × List String) × List Char)}
    {e : String × List String} {gap rest : List Char}
    (h : ∀ item ∈ items ++ [(e, gap)], CanonicalItem item.1) :
    Text.trimList (itemsChars (items ++ [(e, gap)]) ++ rest) =
      itemsChars (items ++ [(e, [])]) ++ Text.dropEndWhile Text.isBlank (gap ++ rest) := by
  obtain ⟨hitems, he⟩ := List.forall_mem_append.mp h
  have hlast := solid_itemChars (he _ List.mem_cons_self)
  have hsolid : Text.Solid (itemsChars items ++ itemChars e) := by
    cases items with
    | nil => exact hlast
    | cons item items =>
      have hfirst := solid_itemChars (hitems item List.mem_cons_self)
      have hs := hfirst.append_between hlast (itemChars_ne_nil _) (itemChars_ne_nil e)
        (item.2 ++ itemsChars items)
      simpa [itemsChars] using hs
  have htext (gap : List Char) :
      itemsChars (items ++ [(e, gap)]) = itemsChars items ++ itemChars e ++ gap := by
    simp [itemsChars]
  rw [htext, htext, List.append_nil, List.append_assoc _ gap,
    hsolid.trimList_append (by simp [itemChars_ne_nil])]

theorem parseList_itemsChars {items : List ((String × List String) × List Char)}
    (h : ∀ item ∈ items, CanonicalItem item.1) (hb : ∀ item ∈ items, Text.AllBlank item.2)
    {rest : List Char} (hr : ':' ∉ rest) :
    parseList (itemsChars items ++ rest) = Dict.ofList (items.map (·.1)) := by
  have hend {cs : List Char} (hc : ':' ∉ cs) : ':' ∉ Text.dropEndWhile Text.isBlank cs :=
    fun hm ↦ hc ((List.rdropWhile_prefix _ _).subset hm)
  rcases List.eq_nil_or_concat' items with rfl | ⟨items, ⟨e, gap⟩, rfl⟩
  · have ht : ':' ∉ Text.trimList rest :=
      hend fun hm ↦ hr ((List.dropWhile_sublist _).subset hm)
    rw [parseList]
    exact congrArg Dict.ofList (items_of_notMem ht _)
  · obtain ⟨hitems, he⟩ := List.forall_mem_append.mp h
    obtain ⟨hblank, hgap⟩ := List.forall_mem_append.mp hb
    have hbehind : ':' ∉ gap ++ rest := by
      refine List.not_mem_append (fun hm ↦ ?_) hr
      exact absurd (hgap _ List.mem_cons_self _ hm) (by decide)
    have hcanonical : ∀ item ∈ items ++ [(e, [])], CanonicalItem item.1 :=
      List.forall_mem_append.mpr ⟨hitems, by simpa using he⟩
    have hblanks : ∀ item ∈ items ++ [(e, [])], Text.AllBlank item.2 :=
      List.forall_mem_append.mpr ⟨hblank, by simp [Text.AllBlank]⟩
    have hn : (items ++ [(e, [])]).length ≤ (itemsChars (items ++ [(e, [])]) ++
        Text.dropEndWhile Text.isBlank (gap ++ rest)).length :=
      Nat.le_trans length_le_length_itemsChars (by simp)
    rw [parseList, trimList_itemsChars h]
    simpa using congrArg Dict.ofList (items_itemsChars hcanonical hblanks (hend hbehind) hn)

/-- The entries of tags with a space after each but the last. -/
def spaced : Dict (List String) → List ((String × List String) × List Char)
  | [] => []
  | [e] => [(e, [])]
  | e :: next :: tags => (e, [' ']) :: spaced (next :: tags)

/-- The usual text of tags. -/
def chars (tags : Dict (List String)) : List Char := itemsChars (spaced tags)

theorem map_spaced (tags : Dict (List String)) : (spaced tags).map (·.1) = tags := by
  induction tags with
  | nil => rfl
  | cons e tags ih =>
    cases tags with
    | nil => rfl
    | cons next tags => rw [spaced, List.map_cons, ih]

theorem blank_spaced (tags : Dict (List String)) :
    ∀ item ∈ spaced tags, ∀ c ∈ item.2, Text.isBlank c := by
  induction tags with
  | nil => exact List.forall_mem_nil _
  | cons e tags ih =>
    cases tags with
    | nil => simp [spaced]
    | cons next tags =>
      rw [spaced]
      exact List.forall_mem_cons.mpr ⟨by simpa using (by decide : Text.isBlank ' '), ih⟩

theorem parseList_chars {tags : Dict (List String)} (h : Canonical tags) :
    parseList (chars tags) = tags := by
  have hitems : ∀ item ∈ spaced tags, CanonicalItem item.1 := fun item hi ↦
    h.items _ (by rw [← map_spaced tags]; exact List.mem_map_of_mem hi)
  have hread := parseList_itemsChars hitems (blank_spaced tags) (List.not_mem_nil (a := ':'))
  rwa [List.append_nil, map_spaced, h.ordered.ofList_eq] at hread

/-- Tags are read back from their items in any order, with any blanks between them. The items are
also read in full when something without a colon follows. -/
theorem parse_of_items {tags : Dict (List String)} (h : Canonical tags)
    {items : List ((String × List String) × List Char)} (hp : (items.map (·.1)).Perm tags)
    (hb : ∀ item ∈ items, Text.AllBlank item.2) {rest : List Char} (hr : ':' ∉ rest) :
    parse (String.ofList (itemsChars items ++ rest)) = tags := by
  have hitems : ∀ item ∈ items, CanonicalItem item.1 := fun item hi ↦
    h.items _ (hp.mem_iff.mp (List.mem_map_of_mem hi))
  rw [parse, String.toList_ofList, parseList_itemsChars hitems hb hr, h.ordered.ofList_of_perm hp]

/-- Items out of order, with blanks of several kinds between them and behind the last. -/
def looseItems : List ((String × List String) × List Char) :=
  [(("json", ["größe", "omitempty"]), ['\t', ' ']),
    (("form file", ["", "at: 10:30"]), [' ', '\u3000'])]

theorem looseItems_read :
    String.ofList (itemsChars looseItems ++ "broken \"".toList) =
        "json:\"größe,omitempty\"\t form file:\",at: 10:30\" \u3000broken \"" ∧
      parse (String.ofList (itemsChars looseItems ++ "broken \"".toList)) =
        [("form file", ["", "at: 10:30"]), ("json", ["größe", "omitempty"])] :=
  ⟨by decide, parse_of_items (by decide) (by decide) (by decide) (by decide)⟩

end GoOpenApi.Tag
