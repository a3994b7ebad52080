import GoOpenApi.Proofs.Go.MemberReading
import Mathlib.Data.List.Forall2

/-!
A file that declares a usual type is read back.
-/

namespace GoOpenApi

open GoOpenApi.Go GoOpenApi.Go.Parser

/-! ### Words -/

/-- A path as a string in double quotes. -/
def pathText (path : String) : String := String.ofList ('"' :: (path.toList ++ ['"']))

/-- An import on a line of its own. -/
def Import.words (i : Import) : List Word :=
  ⟨.lineEnd, .word "import"⟩ ::
    ((i.alias?.toList.map fun name ↦ ⟨.blanks, .word name⟩) ++
      [⟨.blanks, .string (pathText i.path)⟩])

/-- An import whose path needs no escapes. One under a blank would have no name. -/
@[mk_iff]
structure Import.IsWritable (i : Import) : Prop where
  name : ∀ name ∈ i.alias?, IsFreeName name ∧ name ≠ "_"
  quote : '"' ∉ i.path.toList
  backslash : '\\' ∉ i.path.toList
  lineBreak : '\n' ∉ i.path.toList

instance (i : Import) : Decidable i.IsWritable := decidable_of_iff' _ (Import.isWritable_iff i)

/-- Another name for a type, on a line of its own. -/
def aliasWords (names : String → String) (name : String) (t : GoType) : List Word :=
  ⟨.lineEnd, .word "type"⟩ :: ⟨.blanks, .word name⟩ :: ⟨.blanks, .symbol "="⟩ ::
    t.words names .blanks

/-- A file with imports and another name for a type. -/
def aliasFileWords (package : String) (imports : List Import) (names : String → String)
    (name : String) (t : GoType) : List Word :=
  ⟨.nothing, .word "package"⟩ :: ⟨.blanks, .word package⟩ ::
    (imports.flatMap Import.words ++ aliasWords names name t)

theorem Import.IsWritable.written {i : Import} (h : i.IsWritable) : Written i.words := by
  obtain ⟨alias?, path⟩ := i
  have hchars (c : Char) (hc : c ∈ path.toList) : c ≠ '"' ∧ c ≠ '\\' ∧ c ≠ '\n' :=
    ⟨fun he ↦ h.quote (he ▸ hc), fun he ↦ h.backslash (he ▸ hc), fun he ↦ h.lineBreak (he ▸ hc)⟩
  have hpath : Written [⟨.blanks, .string (pathText path)⟩] :=
    .string (.inr ⟨path.toList, String.toList_ofList, hchars⟩)
  have himport : Written [⟨.lineEnd, .word "import"⟩] := .word (by decide)
  cases alias? with
  | none => exact himport.append hpath (by simp [Word.Follows])
  | some name =>
    have hname : Written [⟨.blanks, .word name⟩] := .word (h.name name rfl).1.word
    exact himport.append (hname.append hpath (by simp [Word.Follows])) (by simp [Word.Follows])

theorem written_aliasFileWords {package name : String} {imports : List Import}
    {names : String → String} {known : String → Prop} {t : GoType} (hp : IsFreeName package)
    (hn : IsFreeName name) (hi : ∀ i ∈ imports, i.IsWritable) (ht : t.Usual known)
    (hk : ∀ p, known p → IsFreeName (names p)) :
    Written (aliasFileWords package imports names name t) := by
  have hpackage : Written [⟨.nothing, .word "package"⟩, ⟨.blanks, .word package⟩] :=
    (Written.word (by decide)).append (.word hp.word) (by simp [Word.Follows])
  obtain ⟨himports, hhead⟩ := Written.flatMap (fun i hm ↦ (hi i hm).written) (by
    simp [Import.words, Word.Follows])
  have hdefinition : Written (⟨.blanks, .symbol "="⟩ :: t.words names .blanks) :=
    (ht.written hk .blanks).symbol (by decide) (by decide) (by simpa using ht.head_ne_equals [])
  have halias : Written (aliasWords names name t) :=
    (Written.word (by decide)).append
      ((Written.word hn.word).append hdefinition (by simp [Word.Follows])) (by simp [Word.Follows])
  refine hpackage.append (himports.append halias (by simp [aliasWords, Word.Follows])) ?_
  cases imports with
  | nil => simp [aliasWords, Word.Follows]
  | cons => simp [Import.words, Word.Follows]

namespace Go

open Level

variable {names : String → String} {known : String → Prop} {g : Level} {P : Follow}
  {package name : String} {t : GoType}

/-! ### Declarations -/

theorem reads_topLevel_package :
    Reads g.topLevel true [⟨.nothing, .word "package"⟩, ⟨.blanks, .word package⟩]
      (.package package) P := by
  refine Reads.peek_bind fun t ht ↦ ?_
  rw [ht]
  exact (reads_keyword rfl).bind (reads_anyWord rfl).bind_pure .any

theorem reads_importName (hn : name ≠ "_") :
    Reads importName false [⟨.blanks, .word name⟩] (some name) P := by
  have hpoint : Fails (symbol ".") false [⟨.blanks, .word name⟩] P := fails_symbol (by
    rintro ⟨⟩)
  have hname : Reads anyWord false [⟨.blanks, .word name⟩] name P := reads_anyWord rfl
  have hread := hname.bind_pure (g := fun name ↦ if name = "_" then none else some name)
  rw [if_neg hn] at hread
  exact .orElse_right hpoint.bind hread

theorem fails_importName {s : String} : Fails importName false [] fun l _ ↦ l = .string s := by
  have hpoint : Fails (symbol ".") false [] fun l _ ↦ l = .string s :=
    fails_symbol (.nil (by rintro _ _ rfl ⟨⟩))
  have hname : Fails anyWord false [] fun l _ ↦ l = .string s :=
    .accept fun _ _ hl t ht ↦ by rw [ht, hl]
  exact hpoint.bind.orElse hname.bind

theorem unquote_pathText {path : String} (h : '\\' ∉ path.toList) :
    unquote (pathText path) = path := by
  rw [unquote, pathText, String.toList_ofList, unquoteList_eq h, String.ofList_toList]

theorem reads_importSpec {i : Import} (hi : i.IsWritable) :
    Reads importSpec true ((i.alias?.toList.map fun name ↦ ⟨.blanks, .word name⟩) ++
      [⟨.blanks, .string (pathText i.path)⟩]) i P := by
  obtain ⟨alias?, path⟩ := i
  have hpath : Reads stringLiteral true [⟨.blanks, .string (pathText path)⟩] (pathText path) P :=
    reads_stringLiteral rfl
  have hunquote : unquote (pathText path) = path := unquote_pathText hi.backslash
  have hread (name?? : Option (Option String)) := hpath.bind_pure
    (g := fun text ↦ (⟨name??.join, unquote text⟩ : Import))
  rw [hunquote] at hread
  cases alias? with
  | none =>
    have hname : Reads (within false (optional importName)) true [] none
        fun l _ ↦ l = .string (pathText path) :=
      .within (.optional_none fails_importName fun _ _ h ↦ .inr h)
    exact hname.bind (hread none) rfl
  | some name =>
    have hname : Reads (within false (optional importName)) true [⟨.blanks, .word name⟩]
        (some (some name)) .any :=
      .within (.optional_some (reads_importName (hi.name name rfl).2) nofun)
    exact hname.bind (hread (some (some name))) .any

theorem reads_topLevel_import {i : Import} (hi : i.IsWritable) :
    Reads g.topLevel true i.words (.imports [i]) P := by
  refine Reads.peek_bind fun t ht ↦ ?_
  rw [ht]
  have hgroup : Fails (do
      let specs ← members "(" ")" false importSpec
      return (documented specs).map (·.2)) true
      ((i.alias?.toList.map fun name ↦ ⟨.blanks, .word name⟩) ++
        [⟨.blanks, .string (pathText i.path)⟩]) P := by
    have hopening : Fails (symbol "(") true
        ((i.alias?.toList.map fun name ↦ ⟨.blanks, .word name⟩) ++
          [⟨.blanks, .string (pathText i.path)⟩]) P := fails_symbol (by
      cases i.alias? <;> rintro ⟨⟩)
    exact hopening.bind.bind
  have hdeclaration : Reads importDeclaration true i.words [i] P :=
    (reads_keyword rfl).bind (.orElse_right hgroup (reads_importSpec hi).bind_pure) .any
  exact hdeclaration.bind_pure

theorem reads_typeSpec {ws : List Word} {a : GoType} (h : Reads g.typeOf true ws a P) :
    Reads g.typeSpec true (⟨.blanks, .word name⟩ :: ⟨.blanks, .symbol "="⟩ :: ws)
      ⟨name, .other a⟩ P := by
  have hname : Reads anyWord true [⟨.blanks, .word name⟩] name .any := reads_anyWord rfl
  have halias : Reads g.aliasBody true (⟨.blanks, .symbol "="⟩ :: ws) (.other a) P :=
    (reads_symbol rfl).bind h.bind_pure .any
  exact hname.bind halias.orElse_left.bind_pure .any

/-- The only specification of a type declaration. -/
theorem topLevel_alias {ts : List Token} {t' : Token} (rest : List Token) {a : GoType}
    (h : Reads g.typeOf true (t.words names .blanks) a .newline)
    (hs : Spells ts (aliasWords names name t)) (ht : t'.newline = true) :
    ∃ s, IsNode s ⟨name, .other a⟩ ∧
      g.topLevel true (ts ++ t' :: rest) = some (.types [s], t' :: rest) := by
  obtain ⟨t₁, ts, rfl, ht₁, hs⟩ := hs.exists_cons
  obtain ⟨s, hnode, hsibling⟩ := sibling_eq (reads_typeSpec h) hs ht rest
  have hl₁ : t₁.lexeme = .word "type" := (Token.seen_eq ht₁).1
  refine ⟨s, hnode, ?_⟩
  have hgroup : members "(" ")" true g.typeSpec true (ts ++ t' :: rest) = none := by
    obtain ⟨t₂, ts, rfl, ht₂, -⟩ := hs.exists_cons
    refine bind_of_none (symbol_cons_of_ne ?_ _)
    rw [(Token.seen_eq ht₂).1]
    rintro ⟨⟩
  have hdeclaration : g.typeDeclaration true (t₁ :: (ts ++ t' :: rest)) =
      some ([s], t' :: rest) := by
    rw [typeDeclaration, bind_of_some (bind_of_some (lexeme_cons hl₁ _)),
      orElse_of_none hgroup, hsibling]
  rw [topLevel, List.cons_append, bind_of_some (peek_cons _ _), hl₁]
  exact bind_of_some hdeclaration

/-! ### Files -/

/-- One more declaration, after which a line ends. -/
theorem topLevelsWithin_cons {first t : Token} {ts rest fuel rest' : List Token} {item : TopLevel}
    {siblings : List (Sibling TopLevel)} (hfirst : first.lexeme ≠ .eof)
    (hc : first.comments = [])
    (h : g.topLevel true (first :: (ts ++ t :: rest)) = some (item, t :: rest))
    (ht : t.newline = true) (hl : t.lexeme ≠ .symbol ";")
    (hrest : g.topLevelsWithin fuel true (t :: rest) = some (siblings, rest')) (token : Token) :
    ∃ s, IsNode s item ∧ g.topLevelsWithin (token :: fuel) true (first :: (ts ++ t :: rest)) =
      some (s :: siblings, rest') := by
  obtain ⟨s, hnode, hsibling⟩ := sibling_cons h hc
  refine ⟨s, hnode, ?_⟩
  rw [topLevelsWithin, bind_of_some (peek_cons _ _), if_neg hfirst, bind_of_some hsibling,
    bind_of_some (peek_cons _ _), if_neg (by simp [ht])]
  exact (bind_of_some (terminator_newline hl ht)).trans (bind_of_some hrest)

theorem topLevelsWithin_eof {t : Token} (ht : t.lexeme = .eof) (token : Token) (fuel : List Token) :
    g.topLevelsWithin (token :: fuel) true [t] = some ([], [t]) := by
  rw [topLevelsWithin, bind_of_some (peek_cons _ _), if_pos ht]
  rfl

/-- The alias at the end of a file. -/
theorem topLevelsWithin_alias {ts fuel : List Token} {eof : Token} {a : GoType}
    (h : Reads g.typeOf true (t.words names .blanks) a .newline)
    (hs : Spells ts (aliasWords names name t)) (he : eof.lexeme = .eof) (hn : eof.newline = true)
    (hfuel : 2 ≤ fuel.length) :
    ∃ s siblings, IsNode s ⟨name, .other a⟩ ∧ List.Forall₂ IsNode siblings [.types [s]] ∧
      g.topLevelsWithin fuel true (ts ++ [eof]) = some (siblings, [eof]) := by
  obtain ⟨s, hnode, hread⟩ := topLevel_alias [] h hs hn
  obtain ⟨t₁, ts, rfl, ht₁, -⟩ := hs.exists_cons
  obtain ⟨hl₁, -, hc₁⟩ := Token.seen_eq ht₁
  obtain ⟨token, fuel, rfl⟩ := List.exists_cons_of_length_pos (Nat.lt_of_lt_of_le Nat.two_pos hfuel)
  obtain ⟨token', fuel, rfl⟩ := List.exists_cons_of_length_pos (Nat.le_of_succ_le_succ hfuel)
  obtain ⟨s', hnode', hall⟩ := topLevelsWithin_cons (by rw [hl₁]; rintro ⟨⟩) hc₁ hread hn
    (by rw [he]; rintro ⟨⟩) (topLevelsWithin_eof he token' fuel) token
  exact ⟨s, [s'], hnode, .cons hnode' .nil, hall⟩

/-- An import or what follows the imports begins on a line of its own. -/
theorem exists_next {imports : List Import} {ts : List Token} {t : Token}
    (hs : Spells ts (imports.flatMap Import.words)) (ht : t.newline = true)
    (hl : t.lexeme ≠ .symbol ";") (rest : List Token) :
    ∃ t' u, ts ++ t :: rest = t' :: u ∧ t'.newline = true ∧ t'.lexeme ≠ .symbol ";" := by
  cases imports with
  | nil =>
    obtain rfl := spells_nil.mp hs
    exact ⟨t, rest, rfl, ht, hl⟩
  | cons next imports =>
    obtain ⟨t', ts', rfl, ht', -⟩ := hs.exists_cons
    obtain ⟨hl', hn', -⟩ := Token.seen_eq ht'
    exact ⟨t', _, rfl, hn', by rw [hl']; rintro ⟨⟩⟩

theorem topLevelsWithin_imports {imports : List Import} (hi : ∀ i ∈ imports, i.IsWritable)
    {pre fuel ts rest rest' : List Token} {t : Token} {siblings : List (Sibling TopLevel)}
    (hpre : pre.length = imports.length) (hs : Spells ts (imports.flatMap Import.words))
    (ht : t.newline = true) (hl : t.lexeme ≠ .symbol ";")
    (hrest : g.topLevelsWithin fuel true (t :: rest) = some (siblings, rest')) :
    ∃ nodes, List.Forall₂ IsNode nodes (imports.map fun i ↦ .imports [i]) ∧
      g.topLevelsWithin (pre ++ fuel) true (ts ++ t :: rest) =
        some (nodes ++ siblings, rest') := by
  induction imports generalizing pre ts with
  | nil =>
    obtain rfl := List.length_eq_zero_iff.mp hpre
    obtain rfl := spells_nil.mp hs
    exact ⟨[], .nil, hrest⟩
  | cons i imports ih =>
    obtain ⟨hi, his⟩ := List.forall_mem_cons.mp hi
    rw [List.flatMap_cons] at hs
    obtain ⟨ts₁, ts₂, rfl, hs₁, hs₂⟩ := hs.exists_append
    obtain ⟨token, pre, rfl⟩ := List.exists_cons_of_length_eq_add_one hpre
    obtain ⟨nodes, hnodes, hall⟩ := ih his (Nat.succ.inj hpre) hs₂
    obtain ⟨t', u, he, hn', hl'⟩ := exists_next hs₂ ht hl rest
    have hread := reads_topLevel_import (g := g) (P := .newline) hi ts₁ t' u hs₁ hn'
    obtain ⟨t₁, ts₁, rfl, ht₁, -⟩ := hs₁.exists_cons
    obtain ⟨hl₁, -, hc₁⟩ := Token.seen_eq ht₁
    rw [he] at hall
    obtain ⟨s, hnode, hcons⟩ :=
      topLevelsWithin_cons (by rw [hl₁]; rintro ⟨⟩) hc₁ hread hn' hl' hall token
    refine ⟨s :: nodes, .cons hnode hnodes, ?_⟩
    rw [List.append_assoc, he]
    exact hcons

/-- The package and the imports, with which a file begins. -/
theorem topLevelsWithin_head {imports : List Import} (hi : ∀ i ∈ imports, i.IsWritable)
    {pre fuel ts rest rest' : List Token} {t : Token} {siblings : List (Sibling TopLevel)}
    (hpre : pre.length = imports.length + 1)
    (hs : Spells ts (⟨.nothing, .word "package"⟩ :: ⟨.blanks, .word package⟩ ::
      imports.flatMap Import.words))
    (ht : t.newline = true) (hl : t.lexeme ≠ .symbol ";")
    (hrest : g.topLevelsWithin fuel true (t :: rest) = some (siblings, rest')) :
    ∃ nodes, List.Forall₂ IsNode nodes
        (.package package :: imports.map fun i ↦ .imports [i]) ∧
      g.topLevelsWithin (pre ++ fuel) true (ts ++ t :: rest) =
        some (nodes ++ siblings, rest') := by
  obtain ⟨t₁, ts, rfl, ht₁, hs⟩ := hs.exists_cons
  obtain ⟨t₂, ts, rfl, ht₂, hs⟩ := hs.exists_cons
  obtain ⟨token, pre, rfl⟩ := List.exists_cons_of_length_eq_add_one hpre
  obtain ⟨nodes, hnodes, himports⟩ :=
    topLevelsWithin_imports hi (Nat.succ.inj hpre) hs ht hl hrest
  obtain ⟨t', u, hnext, hn', hl'⟩ := exists_next hs ht hl rest
  have hpackage : g.topLevel true (t₁ :: ([t₂] ++ t' :: u)) = some (.package package, t' :: u) :=
    reads_topLevel_package (P := .newline) [t₁, t₂] t' u (by simp [Spells, ht₁, ht₂]) hn'
  obtain ⟨hl₁, -, hc₁⟩ := Token.seen_eq ht₁
  rw [hnext] at himports
  obtain ⟨s, hnode, hall⟩ := topLevelsWithin_cons (by rw [hl₁]; rintro ⟨⟩) hc₁ hpackage hn' hl'
    himports token
  refine ⟨s :: nodes, .cons hnode hnodes, ?_⟩
  rw [List.cons_append, List.cons_append, List.cons_append, hnext]
  exact hall

theorem fileOf?_aliasFile {imports : List Import} (hi : ∀ i ∈ imports, i.IsWritable)
    (ht : t.Usual known) (hn : ∀ p, known p → IsFreeName (names p)) {ts : List Token}
    (hs : Spells ts (aliasFileWords package imports names name t ++ [Word.eof])) :
    ∃ s siblings, IsNode s ⟨name, .other (t.mapPackages names)⟩ ∧
      List.Forall₂ IsNode siblings
        (.package package :: (imports.map (fun i ↦ .imports [i]) ++ [.types [s]])) ∧
      fileOf? ts = some siblings := by
  -- the tokens before the alias, those of the alias, and the end
  obtain ⟨body, ends, rfl, hbody, hends⟩ := hs.exists_append
  obtain ⟨eof, ends, rfl, heof, hends⟩ := hends.exists_cons
  obtain rfl := spells_nil.mp hends
  rw [aliasFileWords, ← List.cons_append, ← List.cons_append] at hbody
  obtain ⟨ts₁, ts₂, rfl, hs₁, hs₂⟩ := hbody.exists_append
  obtain ⟨hl, hn', -⟩ := Token.seen_eq heof
  have hlen₁ : imports.length + 2 ≤ ts₁.length := by
    have hle : imports.length ≤ (imports.flatMap Import.words).length :=
      length_le_length_flatMap fun _ _ ↦ List.cons_ne_nil _ _
    rw [hs₁.length_eq, List.length_cons, List.length_cons]
    omega
  have hlen₂ : ts₂.length = (t.words names .blanks).length + 3 := hs₂.length_eq
  generalize hN : (ts₁ ++ ts₂ ++ [eof]).length = N
  have hN' : N = ts₁.length + ts₂.length + 1 := by
    rw [← hN, List.length_append, List.length_append, List.length_singleton]
  have htype : Reads (level (N + 1)).typeOf true (t.words names .blanks) (t.mapPackages names)
      .newline :=
    (reads_type ht hn (n := N + 2) (by omega) true).mono fun _ _ h ↦ .inl h
  -- as many tokens bound the declarations as there are in the file
  let fuel := ts₁ ++ ts₂ ++ [eof]
  have htake : (fuel.take (imports.length + 1)).length = imports.length + 1 := by
    rw [List.length_take, hN]
    omega
  have hdrop : 2 ≤ (fuel.drop (imports.length + 1)).length := by
    rw [List.length_drop, hN]
    omega
  obtain ⟨s, tail, hnode, htail, halias⟩ := topLevelsWithin_alias htype hs₂ hl hn' hdrop
  obtain ⟨t₃, ts₂, rfl, ht₃, -⟩ := hs₂.exists_cons
  obtain ⟨hl₃, hn₃, -⟩ := Token.seen_eq ht₃
  obtain ⟨nodes, hnodes, hall⟩ :=
    topLevelsWithin_head hi htake hs₁ hn₃ (by rw [hl₃]; rintro ⟨⟩) halias
  have htokens : ts₁ ++ t₃ :: ts₂ ++ [eof] = ts₁ ++ t₃ :: (ts₂ ++ [eof]) := by
    rw [List.append_assoc, List.cons_append]
  rw [List.take_append_drop, show fuel = _ from htokens] at hall
  refine ⟨s, nodes ++ tail, hnode, List.rel_append hnodes htail, ?_⟩
  rw [fileOf?, hN, htokens]
  exact congrArg (Option.map (·.1)) hall

end Go

/-! ### Packages and their names -/

namespace GoType

variable {names f : String → String} {known : String → Prop} {t : GoType}

theorem mapFields_mapFields {fields : List Field}
    (h : ∀ field ∈ fields, (field.type.mapPackages names).mapPackages f = field.type) :
    mapFields f (mapFields names fields) = fields := by
  induction fields with
  | nil => rfl
  | cons field fields ih =>
    obtain ⟨hfield, hfields⟩ := List.forall_mem_cons.mp h
    obtain ⟨name, type, tags, embedded⟩ := field
    rw [mapFields, mapFields, ih hfields, mapField, mapField, hfield]

theorem mapMethods_mapMethods {methods : List Method}
    (ha : ∀ m ∈ methods, mapFields f (mapFields names m.args) = m.args)
    (hr : ∀ m ∈ methods, mapFields f (mapFields names m.results) = m.results) :
    mapMethods f (mapMethods names methods) = methods := by
  induction methods with
  | nil => rfl
  | cons m methods ih =>
    obtain ⟨ha, has⟩ := List.forall_mem_cons.mp ha
    obtain ⟨hr, hrs⟩ := List.forall_mem_cons.mp hr
    obtain ⟨name, docs, args, results⟩ := m
    rw [mapMethods, mapMethods, ih has hrs, mapMethod, mapMethod, ha, hr]

theorem mapPackages_of_withoutEllipsis
    (h : (t.withoutEllipsis.mapPackages names).mapPackages f = t.withoutEllipsis) :
    (t.mapPackages names).mapPackages f = t := by
  cases t with
  | ellipsis next => exact congrArg GoType.ellipsis h
  | _ => exact h

/-- Packages are found again by their names. -/
theorem Usual.mapPackages_mapPackages (h : t.Usual known)
    (hf : ∀ p, known p → f (names p) = p) : (t.mapPackages names).mapPackages f = t := by
  induction h with
  | plain => rfl
  | @qualified package name hp => exact congrArg (GoType.qualified · name) (hf package hp)
  | pointer _ ih => rw [mapPackages, mapPackages, ih]
  | slice _ ih => rw [mapPackages, mapPackages, ih]
  | array _ ih => rw [mapPackages, mapPackages, ih]
  | map _ _ ihk ihv => rw [mapPackages, mapPackages, ihk, ihv]
  | struct _ _ ih => rw [mapPackages, mapPackages, mapFields_mapFields ih]
  | interface _ _ _ iha ihr =>
    rw [mapPackages, mapPackages, mapMethods_mapMethods
      (fun m hm ↦ mapFields_mapFields fun field hf ↦
        mapPackages_of_withoutEllipsis (iha m hm field hf))
      fun m hm ↦ mapFields_mapFields (ihr m hm)]

end GoType

/-- The package is imported under the name, and no other import goes by it. -/
def ImportedAs (imports : List Import) (package name : String) : Prop :=
  ∃ before after, imports = before ++ ⟨some name, package⟩ :: after ∧
    ∀ i ∈ before ++ after, i.localName ≠ name

theorem importPath_of_importedAs {imports : List Import} {package name : String}
    (h : ImportedAs imports package name) : importPath imports name = package := by
  obtain ⟨before, after, rfl, hother⟩ := h
  have hbefore : before.find? (fun i ↦ i.localName == name) = none :=
    List.find?_eq_none.mpr fun i hi ↦ by
      simpa using hother i (List.mem_append_left _ hi)
  have hfound : ((⟨some name, package⟩ : Import).localName == name) = true :=
    beq_self_eq_true name
  rw [importPath, List.find?_append, hbefore, Option.none_or,
    List.find?_cons_of_pos (p := fun i : Import ↦ i.localName == name) hfound]

/-! ### Files -/

/-- The declarations of a file with imports and one other name for a type. -/
def aliasItems (package : String) (imports : List Import) (spec : Sibling TypeSpec) :
    List (List String × TopLevel) :=
  ([], .package package) ::
    (imports.map (fun i ↦ ([], .imports [i])) ++ [([], .types [spec])])

theorem collect_eq {siblings : List (Sibling TopLevel)} {package name : String}
    {imports : List Import} {a : GoType} {s : Sibling TypeSpec} (hs : IsNode s ⟨name, .other a⟩)
    (h : List.Forall₂ IsNode siblings
      (.package package :: (imports.map (fun i ↦ .imports [i]) ++ [.types [s]]))) :
    collect siblings =
      ⟨package, imports, [], [], [⟨name, [], a.mapPackages (importPath imports)⟩]⟩ := by
  have hitems : documented siblings = aliasItems package imports s := by
    rw [documented_of_nodes h, List.map_cons, List.map_append, List.map_map]
    rfl
  have hpackage : (aliasItems package imports s).filterMap (fun x ↦ packageNames x.2) =
      [package] := by
    simp [aliasItems, packageNames, List.filterMap_map]
  have himports : (aliasItems package imports s).flatMap (fun x ↦ importsOf x.2) = imports := by
    simp [aliasItems, importsOf, List.flatMap_map]
  have hspecs : (aliasItems package imports s).flatMap specsOf = [([], ⟨name, .other a⟩)] := by
    obtain ⟨row, endRow, rfl⟩ := hs
    have hnone : (imports.map (fun i ↦ (([] : List String), TopLevel.imports [i]))).flatMap specsOf
        = [] := by
      rw [List.flatMap_map]
      exact List.flatMap_eq_nil_iff.mpr fun _ _ ↦ rfl
    rw [aliasItems, List.flatMap_cons, List.flatMap_append, hnone]
    rfl
  simp only [collect, hitems, hpackage, himports, hspecs]
  rfl

/-- However it is laid out, a file that gives a usual type another name is read as that type under
that name, and nothing else but its package and imports is found in it. -/
theorem alias_read_back {package name : String} {imports : List Import} {names : String → String}
    {t : GoType} {text : String} (hp : IsFreeName package) (hn : IsFreeName name)
    (hi : ∀ i ∈ imports, i.IsWritable)
    (ht : t.Usual fun package ↦ ImportedAs imports package (names package))
    (hl : LaidOut (aliasFileWords package imports names name t) text.toList) :
    SourceFile.parse? text = some ⟨package, imports, [], [], [⟨name, [], t⟩]⟩ := by
  have hk (p : String) (h : ImportedAs imports p (names p)) : IsFreeName (names p) := by
    obtain ⟨before, after, rfl, -⟩ := h
    exact ((hi ⟨some (names p), p⟩ (by simp)).name _ rfl).1
  have hwritten := written_aliasFileWords hp hn hi ht hk
  obtain ⟨ts, hts, hs⟩ := hl.exists_tokens hwritten.lexemes hwritten.isChain
  rw [String.ofList_toList] at hts
  obtain ⟨s, siblings, hnode, hnodes, hfile⟩ := fileOf?_aliasFile hi ht hk hs
  rw [SourceFile.parse?, hts, Option.bind_some, hfile, Option.map_some, collect_eq hnode hnodes,
    ht.mapPackages_mapPackages fun _ h ↦ importPath_of_importedAs h]

/-- A type with something of everything. -/
def cart : GoType := .struct [
  ⟨"Items", .slice (.qualified "example.com/model" "Item"),
    [("db", [""]), ("json", ["items", "omitempty"])], false⟩,
  ⟨"Base", .pointer (.qualified "example.com/model" "Base"), [], true⟩,
  ⟨"Limits", .map (.plain "string") (.array 18446744073709551615 (.plain "Limit")), [], false⟩,
  ⟨"Store", .interface [⟨"Load", [],
    [.ofType "ctx" (.plain "Context"), .ofType "ids" (.ellipsis (.plain "string"))],
    [.ofType "found" (.qualified "example.com/model" "Item"), .ofType "err" (.plain "error")]⟩],
    [], false⟩]

def cartImports : List Import := [⟨some "m", "example.com/model"⟩, ⟨none, "context"⟩]

def cartLines : List String :=
  ["package shop\n", "import m \"example.com/model\"\n", "import \"context\"\n",
    "type Cart = struct \x7b\n", "Items []m.Item \x60db:\"\" json:\"items,omitempty\"\x60\n",
    "*m.Base\n", "Limits map[string][18446744073709551615]Limit\n", "Store interface \x7b\n",
    "Load(ctx Context, ids ...string) (found m.Item, err error)\n", "\x7d\n", "\x7d\n"]

theorem cart_usual : cart.Usual fun package ↦ ImportedAs cartImports package "m" := by
  have hmodel : ImportedAs cartImports "example.com/model" "m" :=
    ⟨[], [⟨none, "context"⟩], rfl, by decide⟩
  have hitem : (GoType.qualified "example.com/model" "Item").Usual
      fun package ↦ ImportedAs cartImports package "m" := .qualified hmodel (by decide)
  refine .struct (by decide +kernel) ?_
  simp only [List.forall_mem_cons]
  refine ⟨.slice hitem, .pointer (.qualified hmodel (by decide)),
    .map (.plain (by decide)) (.array (.plain (by decide))), .interface (by decide) ?_ ?_,
    List.forall_mem_nil _⟩
  · simp only [List.forall_mem_cons]
    exact ⟨⟨.plain (by decide), .plain (by decide), List.forall_mem_nil _⟩, List.forall_mem_nil _⟩
  · simp only [List.forall_mem_cons]
    exact ⟨⟨hitem, .plain (by decide), List.forall_mem_nil _⟩, List.forall_mem_nil _⟩

theorem cart_read_back :
    SourceFile.parse? (String.join cartLines) =
      some ⟨"shop", cartImports, [], [], [⟨"Cart", [], cart⟩]⟩ := by
  refine alias_read_back (by decide) (by decide) (by decide +kernel) cart_usual ?_
  have htext : plainText (aliasFileWords "shop" cartImports (fun _ ↦ "m") "Cart" cart) =
      cartLines.flatMap String.toList := by decide +kernel
  rw [String.toList_join, ← htext]
  exact laidOut_plainText _

end GoOpenApi
