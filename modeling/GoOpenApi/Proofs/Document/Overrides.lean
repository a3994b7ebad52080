import GoOpenApi.Proofs.Directive.Writing
import GoOpenApi.Proofs.Document.Responses
import GoOpenApi.Proofs.Text.Number

/-!
From a line to the response for a status code. The line is cut at its first blank or colon, its
values are joined again, and the text is cut at its last colon. An import path and a name come
through both, whatever colons the path has, and any other text is a description.
-/

namespace GoOpenApi

namespace Directives

variable {key : String} {code : Nat} {docs own block : List String} {word rest : List Char}

/-! ### The line of a key -/

/-- The last directive of a block with the key. -/
def lastOf (key : String) (block : List String) : Option (List Char) :=
  (directiveLines (block.map String.toList)).reverse.find? fun line ↦ (entry line).1 = key

/-- The directive that a key of a method comes from: one of its own, or else of its service. -/
def decidingLine (key : String) (docs own : List String) : Option String :=
  ((lastOf key own).or (lastOf key docs)).map String.ofList

theorem find?_map_entry (key : String) (lines : List (List Char)) :
    Dict.find? key (lines.map entry) =
      (lines.find? fun line ↦ (entry line).1 = key).map fun line ↦ (entry line).2 := by
  induction lines with
  | nil => rfl
  | cons line lines ih =>
    rw [List.map_cons, Dict.find?_cons, List.find?_cons]
    by_cases h : (entry line).1 = key
    · simp [h]
    · simp [h, Ne.symm h, ih]

theorem find?_parse (key : String) (block : List String) :
    Dict.find? key (parse block) = (lastOf key block).map fun line ↦ (entry line).2 := by
  rw [parse, parseLists, Dict.find?_ofList, ← List.map_reverse, find?_map_entry, lastOf]

theorem find?_of_decidingLine {line : String} (h : decidingLine key docs own = some line) :
    Dict.find? key ((parse docs).merge (parse own)) = some (entry line.toList).2 := by
  obtain ⟨cs, hc, rfl⟩ := Option.map_eq_some_iff.mp h
  rw [find?_merge (ordered_parse own), find?_parse, find?_parse, ← Option.map_or, hc,
    String.toList_ofList, Option.map_some]

/-! ### Directives for status codes -/

theorem statusCode?_toString (hlo : 100 ≤ code) (hhi : code ≤ 599) :
    Endpoint.statusCode? (toString code) = some code := by
  rw [Endpoint.statusCode?, Nat.toString_eq_repr, Nat.toList_repr,
    Text.unsigned?_toDigits (by show code < 2 ^ 16; omega)]
  simp [hlo, hhi]

/-- The usual way to write a code counts, also if there are others. -/
theorem countsFor_toString {d : Directives} (hlo : 100 ≤ code) (hhi : code ≤ 599)
    (h : toString code ∈ Dict.keys d) : d.CountsFor code (toString code) := by
  refine ⟨⟨h, statusCode?_toString hlo hhi⟩, fun other _ hc ↦ ?_⟩
  have hn := (Option.filter_eq_some_iff.mp (Option.filter_eq_some_iff.mp hc).1).1
  exact Text.le_toString_of_natural? (by omega) hn

/-! ### The two shapes of a line -/

/-- The first word of a line, without colons. -/
structure Word (word : List Char) : Prop where
  nonempty : word ≠ []
  blank : ∀ c ∈ word, Text.isBlank c = false
  colon : ':' ∉ word

theorem word_toString (code : Nat) : Word (toString code).toList := by
  rw [Nat.toString_eq_repr, Nat.toList_repr]
  refine ⟨Text.toDigits_ne_nil code, fun c hc ↦ ?_, fun hc ↦ ?_⟩
  · exact Text.not_isBlank_of_isDigit (Text.isDigit_of_mem_toDigits hc)
  · exact absurd (Text.isDigit_of_mem_toDigits hc) (by decide)

/-- Behind a blank stands one value, which is the rest of the line. -/
theorem Word.values_of_blank (h : Word word) (text : List Char) :
    (readLine (Text.trimList (word ++ ' ' :: text))).2 =
      if (Text.trimList text).isEmpty then [] else [Text.trimList text] := by
  have hsolid : Text.Solid word := Text.solid_of_forall h.blank
  have hhead : ∀ c, (Text.dropEndWhile Text.isBlank (' ' :: text)).head? = some c →
      Text.isBlank c := by
    intro c hc
    obtain ⟨bs, -, he⟩ := Text.exists_eq_dropEndWhile_append (' ' :: text)
    obtain ⟨cs, hcs⟩ := List.head?_eq_some_iff.mp hc
    rw [hcs, List.cons_append] at he
    rw [← (List.cons.inj he).1]
    decide
  rw [hsolid.trimList_append h.nonempty, readLine_append h.blank hhead,
    Text.cutList_eq_none_iff.mpr h.colon, Text.trimList_dropEndWhile,
    Text.trimList_space_cons]

/-- Behind a colon stand values without commas in them. -/
theorem Word.values_of_colon (h : Word word) (hne : rest ≠ [])
    (hb : ∀ c ∈ rest, Text.isBlank c = false) (hc : ',' ∉ rest) :
    (readLine (word ++ ':' :: rest)).2 = [rest] := by
  have hvalues : listedValues ([','].intercalate [rest]) = [rest] :=
    listedValues_intercalate fun v hv ↦ by
      rw [List.mem_singleton.mp hv]
      exact ⟨hne, hc, Text.solid_of_forall hb⟩
  rw [readLine_listed h.blank h.colon (Text.singleSpaced_of_forall hb)]
  simpa using hvalues

theorem entry_snd (line : List Char) : (entry line).2 = (readLine line).2.map String.ofList := rfl

/-- The value of a line that has its text behind a blank is the text. -/
theorem join_values_of_text (code : Nat) (text : String) :
    Text.join "," (entry (Text.trim (toString code ++ " " ++ text)).toList).2 = Text.trim text := by
  have hline : (Text.trim (toString code ++ " " ++ text)).toList =
      Text.trimList ((toString code).toList ++ ' ' :: text.toList) := by
    rw [Text.trim, String.toList_ofList]
    simp
  rw [hline, entry_snd, (word_toString code).values_of_blank, Text.trim]
  cases Text.trimList text.toList with
  | nil => rfl
  | cons c cs => exact String.intercalate_singleton

end Directives

/-! ### Texts for responses -/

/-- An import path and the name of a type. -/
structure NamesType (package name : String) : Prop where
  blank : ∀ c ∈ package.toList, Text.isBlank c = false
  path : '/' ∈ package.toList ∨ '.' ∈ package.toList
  nonempty : name ≠ ""
  nameBlank : ∀ c ∈ name.toList, Text.isBlank c = false
  nameColon : ':' ∉ name.toList

theorem namesType_iff {package name : String} : NamesType package name ↔
    (isImportPath package && !name.isEmpty && !Text.hasBlank name) ∧ ':' ∉ name.toList := by
  have hpath : isImportPath package ↔ (∀ c ∈ package.toList, Text.isBlank c = false) ∧
      ('/' ∈ package.toList ∨ '.' ∈ package.toList) := by
    simp only [isImportPath, Text.hasBlank, Bool.and_eq_true, Bool.not_eq_true',
      List.any_eq_false, List.any_eq_true, Bool.or_eq_true, beq_iff_eq, Bool.not_eq_true]
    grind
  have hname : (!name.isEmpty && !Text.hasBlank name) ↔
      name ≠ "" ∧ ∀ c ∈ name.toList, Text.isBlank c = false := by
    simp [Text.hasBlank]
  rw [Bool.and_assoc, Bool.and_eq_true, hpath, hname]
  exact ⟨fun h ↦ ⟨⟨⟨h.1, h.2⟩, h.3, h.4⟩, h.5⟩, fun h ↦ ⟨h.1.1.1, h.1.1.2, h.1.2.1, h.1.2.2, h.2⟩⟩

instance (package name : String) : Decidable (NamesType package name) :=
  decidable_of_iff' _ namesType_iff

theorem toList_typeText (package name : String) :
    (package ++ ":" ++ name).toList = package.toList ++ ':' :: name.toList := by
  simp

theorem NamesType.typeText_blank {package name : String} (h : NamesType package name) :
    ∀ c ∈ (package ++ ":" ++ name).toList, Text.isBlank c = false := by
  rw [toList_typeText]
  exact List.forall_mem_append.mpr ⟨h.blank, List.forall_mem_cons.mpr ⟨by decide, h.nameBlank⟩⟩

theorem NamesType.trim_typeText {package name : String} (h : NamesType package name) :
    Text.trim (package ++ ":" ++ name) = package ++ ":" ++ name :=
  (Text.solid_of_forall h.typeText_blank).trim_eq

theorem NamesType.join_values_of_blank {package name : String} (h : NamesType package name)
    (code : Nat) : Text.join "," (Directives.entry
      (toString code ++ " " ++ package ++ ":" ++ name).toList).2 = package ++ ":" ++ name := by
  have hword := Directives.word_toString code
  have hline : (toString code ++ " " ++ package ++ ":" ++ name).toList =
      (toString code).toList ++ ([' '] ++ (package ++ ":" ++ name).toList) := by
    simp
  have hsolid : Text.Solid (toString code ++ " " ++ package ++ ":" ++ name).toList := by
    rw [hline]
    exact (Text.solid_of_forall hword.blank).append_between
      (Text.solid_of_forall h.typeText_blank) hword.nonempty (by simp) [' ']
  have htrim : Text.trim (toString code ++ " " ++ (package ++ ":" ++ name)) =
      toString code ++ " " ++ package ++ ":" ++ name := by
    rw [← String.append_assoc, ← String.append_assoc, hsolid.trim_eq]
  rw [← htrim, Directives.join_values_of_text, h.trim_typeText]

theorem NamesType.join_values_of_colon {package name : String} (h : NamesType package name)
    (hp : ',' ∉ package.toList) (hn : ',' ∉ name.toList) (code : Nat) :
    Text.join "," (Directives.entry
      (toString code ++ ":" ++ package ++ ":" ++ name).toList).2 = package ++ ":" ++ name := by
  have hline : (toString code ++ ":" ++ package ++ ":" ++ name).toList =
      (toString code).toList ++ ':' :: (package ++ ":" ++ name).toList := by
    simp
  have hcomma : ',' ∉ (package ++ ":" ++ name).toList := by
    simp [hp, hn]
  rw [hline, Directives.entry_snd, (Directives.word_toString code).values_of_colon (by simp)
    h.typeText_blank hcomma, List.map_singleton, String.ofList_toList]
  exact String.intercalate_singleton

namespace ResponseOverride

variable {package name text : String}

theorem parse_of_namesType (h : NamesType package name) :
    parse (package ++ ":" ++ name) = .payload ⟨package, name⟩ := by
  have hskip : package ++ ":" ++ name ≠ "skip" := by
    intro hs
    have hcolon : ':' ∈ (package ++ ":" ++ name).toList := by
      rw [toList_typeText]
      simp
    rw [hs] at hcolon
    exact absurd hcolon (by decide)
  have hcut : Text.cutLast ':' (package ++ ":" ++ name) = some (package, name) :=
    Text.cutLast_eq_some_iff.mpr ⟨toList_typeText package name, h.nameColon⟩
  rw [parse, h.trim_typeText]
  simp only [if_neg hskip, hcut, if_pos (namesType_iff.mp h).1]

theorem parse_of_description (hs : Text.trim text ≠ "skip")
    (h : ∀ package name, NamesType package name → Text.trim text ≠ package ++ ":" ++ name) :
    parse text = .text (Text.trim text) := by
  rw [parse, if_neg hs]
  split
  · rename_i package name hcut
    obtain ⟨htext, hcolon⟩ := Text.cutLast_eq_some_iff.mp hcut
    refine if_neg fun hn ↦ h package name (namesType_iff.mpr ⟨hn, hcolon⟩) ?_
    rw [← String.toList_inj, htext, toList_typeText]
  · rfl

end ResponseOverride

namespace Endpoint

variable {m : Endpoint} {code : Nat} {o : ResponseOverride} {docs own : List String}

theorem Ordered.lookup_of_mem {os : List (Nat × ResponseOverride)} (h : Ordered os)
    (hm : (code, o) ∈ os) : os.lookup code = some o := by
  induction os with
  | nil => cases hm
  | cons e os ih =>
    obtain ⟨hlt, hos⟩ := List.pairwise_cons.mp h
    rcases List.mem_cons.mp hm with rfl | hm
    · exact List.lookup_cons_self
    · have hne : (code == e.1) = false := by simpa using (hlt _ hm).ne'
      rw [List.lookup_cons, hne]
      exact ih hos hm

/-- The response for a code is what its line says. -/
theorem lookup_of_decidingLine {line : String}
    (hm : m.directives = (Directives.parse docs).merge (Directives.parse own))
    (hlo : 100 ≤ code) (hhi : code ≤ 599)
    (hl : Directives.decidingLine (toString code) docs own = some line) :
    m.responseOverrides.lookup code =
      some (.parse (Text.join "," (Directives.entry line.toList).2)) := by
  have hordered : m.directives.Ordered :=
    hm ▸ Directives.ordered_merge (Directives.ordered_parse docs) _
  have hfind : m.directives.find? (toString code) = some (Directives.entry line.toList).2 :=
    hm ▸ Directives.find?_of_decidingLine hl
  have hcounts := Directives.countsFor_toString hlo hhi
    (Dict.mem_keys_iff.mpr ⟨_, hfind⟩)
  exact m.ordered_responseOverrides.lookup_of_mem ((mem_responseOverrides hordered).mpr
    ⟨_, _, hcounts, Dict.mem_of_find? hfind, rfl⟩)

end Endpoint

section

variable {m : Endpoint} {code : Nat} {docs own : List String}

/-- A line that names a type for a status code gives a response with it, be it written behind a
blank or behind a colon. Behind a blank any text that neither names a type nor is the word `skip`
is the description. -/
theorem overrides_of_line
    (hm : m.directives = (Directives.parse docs).merge (Directives.parse own))
    (hlo : 100 ≤ code) (hhi : code ≤ 599) :
    (∀ package name, NamesType package name → ',' ∉ package.toList → ',' ∉ name.toList →
      ∀ line ∈ [toString code ++ " " ++ package ++ ":" ++ name,
          toString code ++ ":" ++ package ++ ":" ++ name],
        Directives.decidingLine (toString code) docs own = some line →
        m.responseOverrides.lookup code = some (.payload ⟨package, name⟩)) ∧
    ∀ text, Directives.decidingLine (toString code) docs own =
        some (Text.trim (toString code ++ " " ++ text)) →
      Text.trim text ≠ "skip" →
      (∀ package name, NamesType package name → Text.trim text ≠ package ++ ":" ++ name) →
      m.responseOverrides.lookup code = some (.text (Text.trim text)) := by
  refine ⟨fun package name h hp hn line hl hd ↦ ?_, fun text hd hs h ↦ ?_⟩
  · have hvalue : Text.join "," (Directives.entry line.toList).2 = package ++ ":" ++ name := by
      rcases List.mem_pair.mp hl with rfl | rfl
      · exact h.join_values_of_blank code
      · exact h.join_values_of_colon hp hn code
    rw [Endpoint.lookup_of_decidingLine hm hlo hhi hd, hvalue,
      ResponseOverride.parse_of_namesType h]
  · rw [Endpoint.lookup_of_decidingLine hm hlo hhi hd, Directives.join_values_of_text]
    rw [← Text.trim_trim] at hs h
    rw [ResponseOverride.parse_of_description hs h, Text.trim_trim]

/-- A method with a line of each shape, and one more way to write a code of its service. -/
def moveOf : Method where
  name := "Move"
  docs := ["Move takes a user elsewhere.", "@tg 0404 skip", "@tg\t409:m/errors:v2:Conflict ",
    "@tg 500  Broken, see: http://m.io:80/x y"]
  args := []
  results := [⟨"err", .plain "error", [], false⟩]

def serviceErrors : List String :=
  ["@tg server-http", "@tg 404 github.com/acme/app/errors:NotFound", "@tg 409 skip"]

theorem moveOf_overrides : ∃ m t,
    Endpoint.build noFiles "Users" (Directives.parse serviceErrors) "m/service" moveOf .empty =
        (.ok m, t) ∧
      m.responseOverrides.lookup 404 =
        some (.payload ⟨"github.com/acme/app/errors", "NotFound"⟩) ∧
      m.responseOverrides.lookup 409 = some (.payload ⟨"m/errors:v2", "Conflict"⟩) ∧
      m.responseOverrides.lookup 500 = some (.text "Broken, see: http://m.io:80/x y") := by
  obtain ⟨m, t, hb⟩ := ok_of_isOk (a := Endpoint.build noFiles "Users"
    (Directives.parse serviceErrors) "m/service" moveOf) (t := .empty) (by decide +kernel)
  have hm := Endpoint.directives_of_build hb
  refine ⟨m, t, hb, ?_, ?_, ?_⟩
  · exact (overrides_of_line hm (by decide) (by decide)).1 "github.com/acme/app/errors" "NotFound"
      (by decide) (by decide) (by decide) _ List.mem_cons_self (by decide +kernel)
  · exact (overrides_of_line hm (by decide) (by decide)).1 "m/errors:v2" "Conflict"
      (by decide) (by decide) (by decide) _ (List.mem_cons_of_mem _ List.mem_cons_self)
      (by decide +kernel)
  · refine (overrides_of_line hm (by decide) (by decide)).2 " Broken, see: http://m.io:80/x y"
      (by decide +kernel) (by decide) fun package name h he ↦ ?_
    have hblank := h.typeText_blank ' ' (by rw [← he]; decide)
    exact absurd hblank (by decide)

end

end GoOpenApi
