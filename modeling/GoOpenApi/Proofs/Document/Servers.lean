import GoOpenApi.Document.Builder
import GoOpenApi.Proofs.Text.Blank
import Mathlib.Tactic.MkIffOfInductiveProp

/-!
Servers written one after the other with bars between them. A text says exactly one list of
servers: the list whose entries, with blanks around their parts, stand in it among entries without
a URL.
-/

namespace GoOpenApi

namespace Server

open Text (AllBlank Padded Solid trimList)

variable {s : Server} {o : Option Server} {servers : List Server} {text : String}
  {entry us ds : List Char}

/-! ### Entries -/

/-- A server that an entry can hold. Its texts are not empty and have no blanks at their ends, and
the signs of the list stand in neither, but a description may have semicolons. -/
@[mk_iff]
structure Writable (s : Server) : Prop where
  nonempty : s.url ≠ ""
  solid : Solid s.url.toList
  signs : ';' ∉ s.url.toList ∧ '|' ∉ s.url.toList
  description : ∀ d ∈ s.description, d ≠ "" ∧ Solid d.toList ∧ '|' ∉ d.toList

instance : DecidablePred Writable := fun s ↦ decidable_of_iff' _ (writable_iff s)

/-- What an entry says: a server, or none if nothing but blanks stands before a semicolon. -/
inductive Entry : Option Server → List Char → Prop where
  | plain {url : String} {us : List Char} (hu : Padded url.toList us) :
    Entry (some ⟨url, none⟩) us
  | described {s : Server} {us ds : List Char} (hu : Padded s.url.toList us)
    (hd : Padded (s.description.getD "").toList ds) : Entry (some s) (us ++ ';' :: ds)
  | blank {us : List Char} (hu : AllBlank us) : Entry none us
  | withoutUrl {us ds : List Char} (hu : AllBlank us) (hd : '|' ∉ ds) :
    Entry none (us ++ ';' :: ds)

theorem ofEntry?_plain (h : ';' ∉ us) : ofEntry? us =
    if (trimList us).isEmpty then none else some ⟨String.ofList (trimList us), none⟩ := by
  unfold ofEntry?
  rw [Text.cutList_eq_none_iff.mpr h]
  rfl

theorem ofEntry?_cut (h : ';' ∉ us) (ds : List Char) : ofEntry? (us ++ ';' :: ds) =
    if (trimList us).isEmpty then none
    else some ⟨String.ofList (trimList us),
      if (trimList ds).isEmpty then none else some (String.ofList (trimList ds))⟩ := by
  unfold ofEntry?
  rw [Text.cutList_eq_some_iff.mpr ⟨rfl, h⟩]

/-- The part of a description that is left out is blank. -/
theorem Writable.solid_description (h : Writable s) : Solid (s.description.getD "").toList := by
  cases hd : s.description with
  | none => exact fun c hc ↦ by simp at hc
  | some d => exact (h.description d hd).2.1

theorem Writable.bar_notMem_description (h : Writable s) :
    '|' ∉ (s.description.getD "").toList := by
  cases hd : s.description with
  | none => simp
  | some d => exact (h.description d hd).2.2

theorem Entry.bar_notMem (h : Entry o entry) (ho : ∀ s ∈ o, Writable s) : '|' ∉ entry := by
  cases h with
  | plain hu => exact hu.notMem (ho _ rfl).signs.2 (by decide)
  | @described s us ds hu hd =>
    have hus := hu.notMem (ho s rfl).signs.2 (by decide)
    have hds := hd.notMem (ho s rfl).bar_notMem_description (by decide)
    simp [hus, hds]
  | blank hu => exact hu.padded.notMem (by simp) (by decide)
  | withoutUrl hu hd =>
    have hus := hu.padded.notMem (c := '|') (by simp) (by decide)
    simp [hus, hd]

theorem Entry.ofEntry?_eq (h : Entry o entry) (ho : ∀ s ∈ o, Writable s) :
    ofEntry? entry = o := by
  cases h with
  | @plain url us hu =>
    have hw := ho _ rfl
    rw [ofEntry?_plain (hu.notMem hw.signs.1 (by decide)), hu.trimList_eq hw.solid,
      String.ofList_toList]
    simp [hw.nonempty]
  | @described s us ds hu hd =>
    have hw := ho s rfl
    rw [ofEntry?_cut (hu.notMem hw.signs.1 (by decide)), hu.trimList_eq hw.solid,
      hd.trimList_eq hw.solid_description, String.ofList_toList, String.ofList_toList]
    obtain ⟨url, description⟩ := s
    cases description with
    | none => simp [hw.nonempty]
    | some d => simp [hw.nonempty, (hw.description d rfl).1]
  | blank hu =>
    rw [ofEntry?_plain (hu.padded.notMem (by simp) (by decide)),
      hu.padded.trimList_eq (by decide)]
    rfl
  | withoutUrl hu hd =>
    rw [ofEntry?_cut (hu.padded.notMem (by simp) (by decide)),
      hu.padded.trimList_eq (by decide)]
    rfl

/-- What is cut off between the signs and trimmed can be held by an entry. -/
theorem writable_of_padded {url : String} {description : Option String} (hne : url ≠ "")
    (hsolid : Solid url.toList) (hp : Padded url.toList us) (hs : ';' ∉ us) (hb : '|' ∉ us)
    (hd : ∀ d ∈ description, d ≠ "" ∧ Solid d.toList ∧ '|' ∉ d.toList) :
    ∀ s ∈ some (Server.mk url description), Writable s := by
  intro s hm
  cases hm
  exact ⟨hne, hsolid, ⟨fun hm ↦ hs (hp.mem hm), fun hm ↦ hb (hp.mem hm)⟩, hd⟩

/-- An entry without bars says something. -/
theorem exists_entry (h : '|' ∉ entry) : ∃ o, Entry o entry ∧ ∀ s ∈ o, Writable s := by
  cases hc : Text.cutList (· == ';') entry with
  | none =>
    have hs := Text.cutList_eq_none_iff.mp hc
    obtain hblank | ⟨url, hne, hsolid, hp⟩ := Text.allBlank_or_padded entry
    · exact ⟨none, .blank hblank, by simp⟩
    · exact ⟨_, .plain hp, writable_of_padded hne hsolid hp hs h (by simp)⟩
  | some parts =>
    obtain ⟨us, ds⟩ := parts
    obtain ⟨rfl, hs⟩ := Text.cutList_eq_some_iff.mp hc
    have hus : '|' ∉ us := fun hm ↦ h (by simp [hm])
    have hds : '|' ∉ ds := fun hm ↦ h (by simp [hm])
    obtain hblank | ⟨url, hne, hsolid, hp⟩ := Text.allBlank_or_padded us
    · exact ⟨none, .withoutUrl hblank hds, by simp⟩
    · obtain hblank | ⟨d, hned, hsolidd, hpd⟩ := Text.allBlank_or_padded ds
      · refine ⟨some ⟨url, none⟩, .described hp hblank.padded, ?_⟩
        exact writable_of_padded hne hsolid hp hs hus (by simp)
      · refine ⟨some ⟨url, some d⟩, .described hp hpd, ?_⟩
        apply writable_of_padded hne hsolid hp hs hus
        intro d' hm
        cases hm
        exact ⟨hned, hsolidd, fun hm ↦ hds (hpd.mem hm)⟩

/-! ### Lists -/

/-- The text consists of entries with bars between them, and these servers are what the entries
say, in their order. -/
def WrittenIn (servers : List Server) (text : String) : Prop :=
  ∃ entries : List (Option Server × List Char), (∀ e ∈ entries, Entry e.1 e.2) ∧
    entries.filterMap (·.1) = servers ∧ text.toList = ['|'].intercalate (entries.map (·.2))

theorem parse_of_entries (h : ∀ s ∈ servers, Writable s) (hw : WrittenIn servers text) :
    parse text = servers := by
  obtain ⟨entries, he, rfl, ht⟩ := hw
  have ho : ∀ e ∈ entries, ∀ s ∈ e.1, Writable s := by
    intro e hm s hs
    exact h s (List.mem_filterMap.mpr ⟨e, hm, hs⟩)
  by_cases hne : entries = []
  · subst hne
    rw [parse, ht]
    rfl
  · have hbar : ∀ entry ∈ entries.map (·.2), '|' ∉ entry := by
      intro entry hm
      obtain ⟨e, hme, rfl⟩ := List.mem_map.mp hm
      exact (he e hme).bar_notMem (ho e hme)
    rw [parse, parseList, ht, Text.splitList_intercalate (by simpa using hne) hbar,
      List.filterMap_map]
    exact List.filterMap_congr fun e hm ↦ (he e hm).ofEntry?_eq (ho e hm)

theorem writtenIn_parse (text : String) :
    (∀ s ∈ parse text, Writable s) ∧ WrittenIn (parse text) text := by
  have hbar : ∀ entry ∈ Text.splitList (· == '|') text.toList, '|' ∉ entry := by
    intro entry hm hb
    exact Text.not_sep_of_mem_splitList hm _ hb (by simp)
  constructor
  · intro s hs
    obtain ⟨entry, hm, hs⟩ := List.mem_filterMap.mp hs
    obtain ⟨o, he, ho⟩ := exists_entry (hbar entry hm)
    rw [he.ofEntry?_eq ho] at hs
    exact ho s hs
  · refine ⟨(Text.splitList (· == '|') text.toList).map fun entry ↦ ( ofEntry? entry, entry),
      ?_, ?_, ?_⟩
    · intro e hm
      obtain ⟨entry, hme, rfl⟩ := List.mem_map.mp hm
      obtain ⟨o, he, ho⟩ := exists_entry (hbar entry hme)
      dsimp only
      rwa [he.ofEntry?_eq ho]
    · rw [List.filterMap_map]
      rfl
    · rw [List.map_map]
      exact ((congrArg _ (List.map_id _)).trans (Text.intercalate_splitList '|' _)).symm

/-- What is read from a text is the one list of servers that is written in it. -/
theorem parse_eq_iff (servers : List Server) (text : String) :
    parse text = servers ↔ (∀ s ∈ servers, Writable s) ∧ WrittenIn servers text := by
  constructor
  · intro h
    rw [← h]
    exact writtenIn_parse text
  · intro ⟨h, hw⟩
    exact parse_of_entries h hw

def localServer : Server := ⟨"http://localhost:9000", some "local; for tests"⟩

def publicServer : Server := ⟨"https://api.acme.io", none⟩

def shopEntries : List (Option Server × List Char) :=
  [(none, []),
    (some localServer, [' '] ++ localServer.url.toList ++ ['\t'] ++
      ';' :: ([' '] ++ "local; for tests".toList ++ [' '])),
    (none, [' '] ++ ';' :: "nowhere".toList),
    (some publicServer, ['\u3000'] ++ publicServer.url.toList ++ [] ++ ';' :: [' '])]

theorem shopEntries_read : (∀ s ∈ [localServer, publicServer], Writable s) ∧
    parse "| http://localhost:9000\t; local; for tests | ;nowhere|\u3000https://api.acme.io; " =
      [localServer, publicServer] := by
  have hw : ∀ s ∈ [localServer, publicServer], Writable s := by decide
  refine ⟨hw, (parse_eq_iff _ _).mpr ⟨hw, shopEntries, ?_, rfl, by decide⟩⟩
  simp only [shopEntries, List.forall_mem_cons]
  refine ⟨.blank (by decide), ?_, ?_, ?_, List.forall_mem_nil _⟩
  · exact .described ⟨[' '], ['\t'], by decide, by decide, rfl⟩
      ⟨[' '], [' '], by decide, by decide, rfl⟩
  · exact .withoutUrl (by decide) (by decide)
  · exact .described ⟨['\u3000'], [], by decide, by decide, rfl⟩
      ⟨[' '], [], by decide, by decide, rfl⟩

end Server

end GoOpenApi
