import GoOpenApi.Proofs.Go.TypeReading

/-!
Parameters, methods and fields are read from their words, where their types are.
-/

namespace GoOpenApi.Go

open GoOpenApi.Go.Parser

theorem not_mem_typeKeywords {s : String} (h : IsFreeName s) : s ∉ typeKeywords := by
  have hall : ∀ s ∈ typeKeywords, s ∈ keywords := by decide
  exact fun hs ↦ h.keyword (hall s hs)

namespace Level

variable {g : Level} {gap : Gap} {ws : List Word} {a : GoType} {P : Follow} {name : String}
  {names : String → String} {known : String → Prop}

/-! ### Parameters -/

theorem reads_before {line : Bool} {symbols : List String}
    (h : ∀ l newline, P l newline → ∃ s ∈ symbols, l = .symbol s) :
    Reads (before symbols) line [] () P := by
  intro ts t rest hs ht
  obtain rfl := spells_nil.mp hs
  obtain ⟨s, hmem, hl⟩ := h _ _ ht
  rw [List.nil_append, before, bind_of_some (peek_cons _ _), hl]
  dsimp only
  rw [if_pos (List.contains_iff_mem.mpr hmem)]
  rfl

/-- A name and an optional one before three points. -/
theorem reads_parameterGroup_variadic (hn : name ∉ typeKeywords)
    (h : Reads g.type false ws a (typeEnd false)) :
    Reads g.parameterGroup false
      (⟨gap, .word name⟩ :: ⟨.blanks, .symbol "..."⟩ :: ws) ([name], .ellipsis a)
      parameterEnd := by
  have hname : Reads (optional identifier) false [⟨gap, .word name⟩] (some name) .any :=
    (reads_identifier rfl hn).optional_some nofun
  have hpoints : Reads (symbol "...") false [⟨.blanks, .symbol "..."⟩] () .any :=
    reads_symbol rfl
  have htype := h.mono (Q := parameterEnd) fun _ _ h ↦ typeEnd_of_parameterEnd h
  exact Reads.orElse_left (hname.bind (hpoints.bind htype.bind_pure .any) .any)

theorem reads_parameterGroup_named (hn : name ∉ typeKeywords)
    {l : Lexeme} (hl : l.BeginsType)
    (h : Reads g.type false (⟨.blanks, l⟩ :: ws) a (typeEnd false)) :
    Reads g.parameterGroup false (⟨gap, .word name⟩ :: ⟨.blanks, l⟩ :: ws) ([name], a)
      parameterEnd := by
  have hname : Reads (optional identifier) false [⟨gap, .word name⟩] (some name) .any :=
    (reads_identifier rfl hn).optional_some nofun
  have hpoints : Fails (symbol "...") false (⟨.blanks, l⟩ :: ws) parameterEnd :=
    fails_symbol (hl.ne_symbol (by decide))
  have hvariadic : Fails (do
      let name? ← optional identifier
      symbol "..."
      return (name?.toList, GoType.ellipsis (← g.type))) false
      (⟨gap, .word name⟩ :: ⟨.blanks, l⟩ :: ws) parameterEnd :=
    hname.bind_fails hpoints.bind .any
  have hnames : Reads (commaList identifier) false [⟨gap, .word name⟩] [name]
      fun l _ ↦ l ≠ .symbol "," :=
    (reads_identifier rfl hn).commaList_singleton fun _ _ h ↦ h
  have htype := h.mono (Q := parameterEnd) fun _ _ h ↦ typeEnd_of_parameterEnd h
  have hbefore : Reads (before [",", ")"]) false [] () parameterEnd :=
    reads_before fun l _ h ↦ h.elim (fun h ↦ ⟨",", by decide, h⟩) fun h ↦ ⟨")", by decide, h⟩
  exact Reads.orElse_right hvariadic (Reads.orElse_left
    (hnames.bind (htype.bind_nil hbefore.bind_pure) (hl.ne_symbol (by decide))))

/-- What the words of a parameter are read as. -/
def parameterValue (names : String → String) (f : Field) : List String × GoType :=
  ([f.name], f.type.mapPackages names)

/-- What is known of the words of an argument's type, or of what it repeats. -/
def ReadsArgument (g : Level) (names : String → String) (t : GoType) : Prop :=
  ∀ gap, Reads g.type false (t.withoutEllipsis.words names gap)
    (t.withoutEllipsis.mapPackages names) (typeEnd false)

theorem reads_parameterGroup {f : Field} (hf : f.IsParameter)
    (hu : f.type.withoutEllipsis.Usual known) (ht : ReadsArgument g names f.type) (gap : Gap) :
    Reads g.parameterGroup false (GoType.parameterWords names gap f) (parameterValue names f)
      parameterEnd := by
  have hname := not_mem_typeKeywords hf.name
  obtain ⟨name, type, tags, embedded⟩ := f
  cases type with
  | ellipsis next => exact reads_parameterGroup_variadic hname (ht .nothing)
  | _ =>
    obtain ⟨l, ws, he, hl⟩ := hu.exists_words_eq names .blanks
    have htype := ht .blanks
    rw [he] at htype
    have hread : Reads g.parameterGroup false (⟨gap, .word name⟩ :: ⟨.blanks, l⟩ :: ws)
        ([name], _) parameterEnd := reads_parameterGroup_named hname hl htype
    rw [← he] at hread
    exact hread

theorem numbered_eq (stem : String) (groups : List (String × GoType)) :
    numbered stem (groups.map fun g ↦ ([g.1], g.2)) = groups.map fun g ↦ .ofType g.1 g.2 := by
  have hfold (fields : List Field) :
      (groups.map fun g ↦ ([g.1], g.2)).foldl
        (fun fields group ↦ fields ++ fieldsOf stem fields.length group) fields =
      fields ++ groups.map fun g ↦ .ofType g.1 g.2 := by
    induction groups generalizing fields with
    | nil => simp
    | cons g groups ih =>
      rw [List.map_cons, List.foldl_cons, ih, List.map_cons]
      simp [fieldsOf]
  exact hfold []

/-- Named parameters keep their names. -/
theorem numbered_parameterValue (stem : String) {fields : List Field}
    (hf : ∀ f ∈ fields, f.IsParameter) :
    numbered stem (fields.map (parameterValue names)) = GoType.mapFields names fields := by
  have hgroups := numbered_eq stem (fields.map fun f ↦ (f.name, f.type.mapPackages names))
  rw [List.map_map, List.map_map] at hgroups
  refine hgroups.trans ?_
  clear hgroups
  induction fields with
  | nil => rfl
  | cons f fields ih =>
    obtain ⟨hf, hfs⟩ := List.forall_mem_cons.mp hf
    have htags := hf.tags
    have hembedded := hf.embedded
    obtain ⟨name, type, tags, embedded⟩ := f
    rw [List.map_cons, ih hfs, GoType.mapFields, GoType.mapField]
    simp only at htags hembedded
    rw [htags, hembedded]
    rfl

/-- No parameter stands where the list ends. -/
theorem fails_parameterGroup {n : Nat} :
    Fails (level n).parameterGroup false [] fun l _ ↦ l = .symbol ")" := by
  have hname : Fails identifier false [] fun l _ ↦ l = .symbol ")" :=
    .accept fun _ _ hl t ht ↦ by rw [ht, hl]
  have hpoints : Fails (symbol "...") false [] fun l _ ↦ l = .symbol ")" :=
    fails_symbol (.nil (by rintro _ _ rfl; decide))
  have htype : Fails (level n).type false [] fun l _ ↦ l = .symbol ")" :=
    fails_type n (.nil fun _ _ h ↦ .inr ⟨_, h, by decide⟩)
  have hnone : Reads (optional identifier) false [] none fun l _ ↦ l = .symbol ")" :=
    .optional_none hname fun _ _ h ↦ .inr h
  exact (hnone.bind_fails hpoints.bind (.nil fun _ _ h ↦ h)).orElse
    (hname.bind.bind.orElse htype.bind)

theorem reads_parameters {fields : List Field} {n : Nat} {line : Bool}
    (hf : ∀ f ∈ fields, f.IsParameter)
    (hu : ∀ f ∈ fields, f.type.withoutEllipsis.Usual known)
    (ht : ∀ f ∈ fields, ReadsArgument (level n) names f.type) (gap : Gap) :
    Reads (level n).parameters line (GoType.parametersWords names gap fields)
      (fields.map (parameterValue names)) P := by
  cases fields with
  | nil =>
    have hlist := Reads.looseList_nil (fails_parameterGroup (n := n)) (by rintro _ _ rfl; decide)
    have hread : Reads (level n).parameters line
        (⟨gap, .symbol "("⟩ :: ([] ++ [⟨.nothing, .symbol ")"⟩])) [] P :=
      hlist.between rfl rfl rfl
    exact hread
  | cons f fields =>
    obtain ⟨hf, hfs⟩ := List.forall_mem_cons.mp hf
    obtain ⟨hu, hus⟩ := List.forall_mem_cons.mp hu
    obtain ⟨ht, hts⟩ := List.forall_mem_cons.mp ht
    have hitems := Reads.commaList (P := fun l _ ↦ l = .symbol ")")
      (reads_parameterGroup hf hu ht .nothing)
      (fun f hm ↦ reads_parameterGroup (hfs f hm) (hus f hm) (hts f hm) .blanks) (.inl rfl)
      (fun _ _ h ↦ .inr h) (by rintro _ _ rfl; decide)
    rw [← GoType.laterWords_eq, GoType.parameterWords_eq, List.cons_append] at hitems
    have hlist := hitems.looseList (by rintro _ _ rfl; decide)
    rw [GoType.parametersWords, GoType.parameterWords_eq, List.cons_append]
    exact hlist.between rfl rfl rfl

/-! ### Methods -/

/-- What is known of the types in a method. -/
structure ReadsMethod (g : Level) (known : String → Prop) (names : String → String) (m : Method) :
    Prop where
  member : m.IsMember
  usualArgs : ∀ f ∈ m.args, f.type.withoutEllipsis.Usual known
  args : ∀ f ∈ m.args, ReadsArgument g names f.type
  usualResults : ∀ f ∈ m.results, f.type.withoutEllipsis.Usual known
  results : ∀ f ∈ m.results, ReadsArgument g names f.type

theorem reads_results {fields : List Field} {n : Nat} {line : Bool}
    (hf : ∀ f ∈ fields, f.IsParameter)
    (hu : ∀ f ∈ fields, f.type.withoutEllipsis.Usual known)
    (ht : ∀ f ∈ fields, ReadsArgument (level n) names f.type) (gap : Gap) :
    Reads (level n).results line (GoType.parametersWords names gap fields)
      (GoType.mapFields names fields) P := by
  have hread : Reads (do return numbered "ret" (← (level n).parameters)) line
      (GoType.parametersWords names gap fields) _ P := (reads_parameters hf hu ht gap).bind_pure
  rw [numbered_parameterValue "ret" hf] at hread
  exact hread.orElse_left

theorem reads_method {m : Method} {n : Nat} (h : ReadsMethod (level n) known names m) :
    Reads (level n).method true (GoType.methodWords names m) (GoType.mapMethod names m)
      .newline := by
  obtain ⟨hm, hua, ha, hur, hr⟩ := h
  obtain ⟨name, docs, args, results⟩ := m
  have hname : Reads identifier true [⟨.lineEnd, .word name⟩] name .any :=
    reads_identifier rfl (not_mem_typeKeywords hm.name)
  have hdocs : docs = [] := hm.docs
  have hsignature : Reads (level n).signature true
      (GoType.parametersWords names .nothing args ++
        if results.isEmpty then [] else GoType.parametersWords names .blanks results)
      (GoType.mapFields names args, GoType.mapFields names results) .newline := by
    have hargs : Reads (level n).parameters true (GoType.parametersWords names .nothing args) _
        .any := reads_parameters hm.args hua ha .nothing
    rw [← numbered_parameterValue "arg" hm.args]
    cases results with
    | nil => exact hargs.bind Reads.optional_newline.bind_pure .any
    | cons result results =>
      have hresults : Reads (level n).results true
          (GoType.parametersWords names .blanks (result :: results)) _ .newline :=
        reads_results hm.results hur hr .blanks
      exact hargs.bind (hresults.optional_some nofun).bind_pure .any
  have hoptional : Reads (optional (level n).signature) true
      (GoType.parametersWords names .nothing args ++
        if results.isEmpty then [] else GoType.parametersWords names .blanks results)
      (some (GoType.mapFields names args, GoType.mapFields names results)) .newline := by
    cases args with
    | nil => exact hsignature.optional_some nofun
    | cons => exact hsignature.optional_some nofun
  rw [GoType.methodWords, GoType.mapMethod, hdocs]
  exact hname.bind (hoptional.bind_nil .pure) .any

theorem filterMap_methods {methods : List Method} (h : ∀ m ∈ methods, m.IsMember) :
    methods.filterMap (fun m ↦ some { GoType.mapMethod names m with docs := [] }) =
      GoType.mapMethods names methods := by
  induction methods with
  | nil => rfl
  | cons m methods ih =>
    obtain ⟨hm, hms⟩ := List.forall_mem_cons.mp h
    obtain ⟨name, docs, args, results⟩ := m
    obtain rfl : docs = [] := hm.docs
    rw [List.filterMap_cons, ih hms, GoType.mapMethods]
    rfl

theorem reads_interfaceBody {methods : List Method} {n : Nat} {line : Bool}
    (h : ∀ m ∈ methods, ReadsMethod (level n) known names m) :
    Reads (level n).interfaceBody line
      (bracketed "\x7b" "\x7d" (methods.flatMap (GoType.methodWords names)))
      (GoType.mapMethods names methods, []) P := by
  have helements : ∀ m ∈ methods, Reads (level n).interfaceElement true
      (GoType.methodWords names m) (.inl (GoType.mapMethod names m)) .newline :=
    fun m hm ↦ (reads_method (h m hm)).bind_pure.orElse_left
  have hbegins : ∀ m ∈ methods, ∃ w ws, GoType.methodWords names m = w :: ws ∧
      BeginsMember "\x7d" w := by
    rintro ⟨name, docs, args, results⟩ -
    exact ⟨_, _, rfl, rfl, nofun, nofun⟩
  intro ts t rest hs _
  obtain ⟨siblings, hdocumented, hmembers⟩ := members_eq helements hbegins hs t rest
  refine (bind_of_some hmembers).trans ?_
  rw [hdocumented, List.filterMap_map, List.flatMap_map]
  change some ((methods.filterMap fun m ↦ some { GoType.mapMethod names m with docs := [] },
    methods.flatMap fun _ ↦ []), t :: rest) = _
  rw [filterMap_methods fun m hm ↦ (h m hm).member]
  simp

theorem reads_typeOf_interface {line : Bool} {methods : List Method}
    (h : Reads g.interfaceBody line ws (methods, []) P) :
    Reads g.typeOf line (⟨gap, .word "interface"⟩ :: ws) (.interface methods) P := by
  refine Reads.peek_bind fun t ht ↦ ?_
  rw [ht]
  exact (reads_keyword rfl).bind h.bind_pure .any

/-! ### Fields -/

theorem unescapeQuotes_eq {cs : List Char} (h : '\\' ∉ cs) : unescapeQuotes cs = cs := by
  induction cs with
  | nil => rfl
  | cons c cs ih =>
    obtain ⟨hc, hcs⟩ := not_or.mp (List.mem_cons.not.mp h)
    rw [unescapeQuotes, ih hcs]
    rintro _ rfl
    exact absurd rfl hc

theorem unquoteList_eq {cs : List Char} (h : '\\' ∉ cs) (opening closing : Char) :
    unquoteList (opening :: (cs ++ [closing])) = cs := by
  rw [unquoteList, List.drop_one, List.tail_cons, List.dropLast_concat, unescapeQuotes_eq h]

theorem parse_unquote_tagText {tags : Dict (List String)} (ht : Tag.Canonical tags)
    (hq : '\\' ∉ Tag.chars tags) :
    Tag.parse (unquote (tagText tags)) = tags := by
  rw [unquote, tagText, String.toList_ofList, unquoteList_eq hq, Tag.parse,
    String.toList_ofList, Tag.parseList_chars ht]

theorem reads_tag {tags : Dict (List String)} (ht : Tag.Canonical tags)
    (hq : '\\' ∉ Tag.chars tags) :
    Reads tag true (tagWords tags) tags .newline := by
  have hparse := parse_unquote_tagText ht hq
  cases tags with
  | nil => exact Reads.optional_newline.bind_pure
  | cons e tags =>
    have htext : Reads (optional stringLiteral) true [⟨.blanks, .string (tagText (e :: tags))⟩]
        (some (tagText (e :: tags))) .newline :=
      (reads_stringLiteral rfl).optional_some nofun
    have hread := htext.bind_pure
      (g := fun text? ↦ (text?.map fun text ↦ Tag.parse (unquote text)).getD [])
    simp only [Option.map_some, Option.getD_some, hparse] at hread
    exact hread

/-- A type ends where tags begin or a line ends. -/
theorem met_tagWords (tags : Dict (List String)) :
    (typeEnd true).Met (tagWords tags) .newline := by
  cases tags with
  | nil => exact fun _ _ h ↦ .inl h
  | cons => exact .inr ⟨nofun, nofun⟩

theorem reads_embeddedField {star? : Option Unit} {stars : List Word} {s : String}
    {tags : Dict (List String)}
    (hstar : Reads (within false (optional (symbol "*"))) true stars star? fun l _ ↦ l = .word s)
    (h : Reads (g.namedType s) true ws a (typeEnd true)) (ht : Tag.Canonical tags)
    (hq : '\\' ∉ Tag.chars tags) :
    Reads g.embeddedField true (stars ++ ⟨gap, .word s⟩ :: (ws ++ tagWords tags))
      [⟨(a.identity.map (·.2)).getD "", if star?.isSome then .pointer a else a, tags, true⟩]
      .newline := by
  have hname : Reads anyWord true [⟨gap, .word s⟩] s .any := reads_anyWord rfl
  refine hstar.bind (hname.bind (h.bind ((reads_tag ht hq).bind_nil ?_) (met_tagWords tags)) .any)
    rfl
  intro ts t rest hs hn
  obtain rfl := spells_nil.mp hs
  rw [List.nil_append, bind_of_some (peek_cons _ _), show t.newline = true from hn]
  rfl

/-- What a type puts in brackets at its beginning is no list of type arguments. -/
theorem fails_typeArguments_usual {t : GoType} (h : t.Usual known) {n : Nat} {line : Bool} :
    Fails (level n).typeArguments line (t.words names gap ++ ws) P := by
  have hbracket {l : Lexeme} {vs : List Word} (hl : BeginsNoType l) :
      Fails (level n).typeArguments line (⟨gap, .symbol "["⟩ :: ⟨.nothing, l⟩ :: vs) P := by
    have htype : Fails (level n).type false (⟨.nothing, l⟩ :: vs) P := fails_type n hl
    have hunions : Fails (within false (commaListEnded (level n).union)) line
        (⟨.nothing, l⟩ :: vs) P := htype.bind.bind.bind
    have hopening : Reads (symbol "[") line [⟨gap, .symbol "["⟩] () .any := reads_symbol rfl
    exact (hopening.bind_fails hunions.bind .any).bind
  have hother {l : Lexeme} {vs : List Word} (hl : l ≠ .symbol "[") :
      Fails (level n).typeArguments line (⟨gap, l⟩ :: vs) P := fails_typeArguments hl
  cases h with
  | slice => exact hbracket (.inr ⟨_, rfl, by decide⟩)
  | array => exact hbracket (.inl ⟨_, rfl⟩)
  | plain | qualified | pointer | map | struct | interface =>
    exact hother (by simp)

/-- A name before a type is no embedded field. -/
theorem fails_embeddedField {t : GoType} (h : t.Usual known) {n : Nat} :
    Fails (level n).embeddedField true
      (⟨.lineEnd, .word name⟩ :: (t.words names .blanks ++ ws)) P := by
  intro ts next rest hs hnext
  obtain ⟨t₁, ts, rfl, ht₁, hs⟩ := hs.exists_cons
  obtain ⟨l, vs, he, hl⟩ := h.exists_words_eq names .blanks
  have harguments : (level n).typeArguments true (ts ++ next :: rest) = none :=
    fails_typeArguments_usual h ts next rest hs hnext
  rw [he] at hs
  obtain ⟨t₂, ts, rfl, ht₂, -⟩ := hs.exists_cons
  have hl₁ : t₁.lexeme = .word name := (Token.seen_eq ht₁).1
  obtain ⟨hl₂, hn₂, -⟩ := Token.seen_eq ht₂
  have hne {s : String} (hs : s ∉ ["*", "["]) : t₂.lexeme ≠ .symbol s :=
    hl₂ ▸ hl.ne_symbol hs
  rw [List.cons_append] at harguments ⊢
  rw [List.cons_append]
  generalize ts ++ next :: rest = rest' at harguments ⊢
  have hstar : within false (optional (symbol "*")) true (t₁ :: t₂ :: rest') =
      some (none, t₁ :: t₂ :: rest') :=
    optional_of_none (symbol_cons_of_ne (by rw [hl₁]; rintro ⟨⟩) _)
  have hname : anyWord true (t₁ :: t₂ :: rest') = some (name, t₂ :: rest') := by
    simp [anyWord, accept, hl₁]
  have hpoint : optional (do symbol "."; anyWord) true (t₂ :: rest') =
      some (none, t₂ :: rest') :=
    optional_of_none (bind_of_none (symbol_cons_of_ne (hne (by decide)) _))
  have htype : (level n).namedType name true (t₂ :: rest') =
      some (.plain name, t₂ :: rest') := by
    rw [namedType, bind_of_some hpoint]
    exact bind_of_some (optional_of_none harguments)
  have htag : tag true (t₂ :: rest') = some ([], t₂ :: rest') := by
    refine bind_of_some (optional_of_none ?_)
    rw [stringLiteral, accept, show t₂.lexeme = l from hl₂]
    rcases hl with ⟨s, rfl⟩ | rfl | rfl <;> rfl
  have hend : before [";", "\x7d"] true (t₂ :: rest') = none := by
    rw [before, bind_of_some (peek_cons _ _), show t₂.lexeme = l from hl₂]
    rcases hl with ⟨s, rfl⟩ | rfl | rfl <;> rfl
  rw [embeddedField, bind_of_some hstar, bind_of_some hname, bind_of_some htype,
    bind_of_some htag, bind_of_some (peek_cons _ _), show t₂.newline = false from hn₂]
  exact bind_of_none hend

theorem reads_namedFields {type : GoType} {tags : Dict (List String)}
    (hu : type.Usual known)
    (h : Reads g.type true (type.words names .blanks) a (typeEnd true)) (ht : Tag.Canonical tags)
    (hq : '\\' ∉ Tag.chars tags) :
    Reads g.namedFields true
      (⟨.lineEnd, .word name⟩ :: (type.words names .blanks ++ tagWords tags))
      [⟨name, a, tags, false⟩] .newline := by
  obtain ⟨l, ws, he, hl⟩ := hu.exists_words_eq names .blanks
  have hname : Reads (commaList anyWord) true [⟨.lineEnd, .word name⟩] [name]
      fun l _ ↦ l ≠ .symbol "," :=
    (reads_anyWord rfl).commaList_singleton fun _ _ h ↦ h
  refine hname.bind (h.bind (reads_tag ht hq).bind_pure (met_tagWords tags)) ?_
  rw [he]
  exact hl.ne_symbol (by decide)

/-- A member of a struct is read as one field. -/
theorem reads_field {f : Field} {n : Nat} (hf : f.IsMember) (hu : f.type.Usual known)
    (ht : ∀ gap, Reads (level n).type true (f.type.words names gap) (f.type.mapPackages names)
      (typeEnd true)) :
    Reads ((level n).embeddedField <|> (level n).namedFields) true (GoType.fieldWords names f)
      [GoType.mapField names f] .newline := by
  obtain ⟨name, type, tags, embedded⟩ := f
  cases embedded with
  | false =>
    exact .orElse_right (fails_embeddedField hu)
      (reads_namedFields hu (ht .blanks) hf.tags hf.backslash)
  | true =>
    refine .orElse_left ?_
    have hname : type.embeddedName = some name := hf.name
    have hnone {s : String} : Reads (within false (optional (symbol "*"))) true [] none
        fun l _ ↦ l = .word s :=
      .within (.optional_none (fails_symbol (.nil (by rintro _ _ rfl; simp))) fun _ _ h ↦ .inr h)
    have hsome {s : String} : Reads (within false (optional (symbol "*"))) true
        [⟨.lineEnd, .symbol "*"⟩] (some ()) fun l _ ↦ l = .word s :=
      .within (.optional_some (reads_symbol rfl) nofun)
    -- the name of the field is that of the type, so it need not be looked for
    cases hu with
    | plain =>
      cases hname
      exact reads_embeddedField hnone reads_namedType_plain hf.tags hf.backslash
    | qualified =>
      cases hname
      exact reads_embeddedField hnone reads_namedType_qualified hf.tags hf.backslash
    | pointer h =>
      cases h with
      | plain =>
        cases hname
        exact reads_embeddedField hsome reads_namedType_plain hf.tags hf.backslash
      | qualified =>
        cases hname
        exact reads_embeddedField hsome reads_namedType_qualified hf.tags hf.backslash
      | _ => cases hname
    | _ => cases hname

theorem flatMap_fields (fields : List Field) :
    (fields.map fun f ↦ (([] : List String), [GoType.mapField names f])).flatMap (·.2) =
      GoType.mapFields names fields := by
  induction fields with
  | nil => rfl
  | cons f fields ih => rw [List.map_cons, List.flatMap_cons, ih]; rfl

theorem reads_structBody {fields : List Field} {n : Nat} {line : Bool}
    (hf : ∀ f ∈ fields, f.IsMember) (hu : ∀ f ∈ fields, f.type.Usual known)
    (ht : ∀ f ∈ fields, ∀ gap, Reads (level n).type true (f.type.words names gap)
      (f.type.mapPackages names) (typeEnd true)) :
    Reads (level n).structBody line
      (bracketed "\x7b" "\x7d" (fields.flatMap (GoType.fieldWords names)))
      (GoType.mapFields names fields) P := by
  have hfields : ∀ f ∈ fields, Reads ((level n).embeddedField <|> (level n).namedFields) true
      (GoType.fieldWords names f) [GoType.mapField names f] .newline :=
    fun f hm ↦ reads_field (hf f hm) (hu f hm) (ht f hm)
  have hbegins : ∀ f ∈ fields, ∃ w ws, GoType.fieldWords names f = w :: ws ∧
      BeginsMember "\x7d" w := by
    intro f hm
    obtain ⟨l, ws, he, hl⟩ := (hu f hm).exists_words_eq names .lineEnd
    obtain ⟨name, type, tags, embedded⟩ := f
    cases embedded with
    | false => exact ⟨_, _, rfl, rfl, nofun, nofun⟩
    | true =>
      exact ⟨⟨.lineEnd, l⟩, ws ++ tagWords tags, congrArg (· ++ tagWords tags) he, rfl,
        hl.ne_symbol (by decide), hl.ne_symbol (by decide)⟩
  intro ts t rest hs _
  obtain ⟨siblings, hdocumented, hmembers⟩ := members_eq hfields hbegins hs t rest
  refine (bind_of_some hmembers).trans ?_
  rw [hdocumented, flatMap_fields]
  rfl

theorem reads_typeOf_struct {line : Bool} {fields : List Field}
    (h : Reads g.structBody line ws fields P) :
    Reads g.typeOf line (⟨gap, .word "struct"⟩ :: ws) (.struct fields) P := by
  refine Reads.peek_bind fun t ht ↦ ?_
  rw [ht]
  exact (reads_keyword rfl).bind h.bind_pure .any

end Level

open Level

/-! ### Types -/

/-- Usual types are read from their words, with the names of packages in the place of the
packages. -/
theorem reads_type {names : String → String} {known : String → Prop} {gap : Gap} {t : GoType}
    (h : t.Usual known) (hn : ∀ p, known p → IsFreeName (names p)) {n : Nat}
    (hlen : (t.words names gap).length ≤ n) (line : Bool) :
    Reads (level n).type line (t.words names gap) (t.mapPackages names) (typeEnd line) := by
  induction h generalizing gap n line with
  | @plain name h =>
    cases n with
    | zero => cases hlen
    | succ n => exact reads_typeOf_word (not_mem_typeKeywords h) reads_namedType_plain
  | @qualified package name hp h =>
    cases n with
    | zero => cases hlen
    | succ n =>
      exact reads_typeOf_word (not_mem_typeKeywords (hn _ hp)) reads_namedType_qualified
  | pointer h ih =>
    cases n with
    | zero => cases hlen
    | succ n => exact reads_typeOf_pointer (ih (Nat.le_of_succ_le_succ hlen) line)
  | @slice next h ih =>
    cases n with
    | zero => cases hlen
    | succ n =>
      have hnext : (next.words names .nothing).length ≤ n := by
        rw [GoType.words, List.length_cons, List.length_cons] at hlen
        omega
      exact reads_typeOf_slice (ih hnext line)
  | @array length next h ih =>
    rw [GoType.words, List.length_cons, List.length_cons, List.length_cons] at hlen
    obtain ⟨n, rfl⟩ : ∃ n', n = n' + 2 := ⟨n - 2, by omega⟩
    exact reads_typeOf_array reads_expressionOf_number (ih (by omega) line)
  | @map key value hk hv ihk ihv =>
    simp only [GoType.words, List.length_cons, List.length_append] at hlen
    obtain ⟨n, rfl⟩ : ∃ n', n = n' + 1 := ⟨n - 1, by omega⟩
    exact reads_typeOf_map (ihk (by omega) false) (typeEnd_of_symbol (by decide))
      (ihv (by omega) line)
  | @struct fields hf ht ih =>
    cases n with
    | zero => cases hlen
    | succ n =>
      have hfields : ∀ f ∈ fields, ∀ gap, Reads (level n).type true (f.type.words names gap)
          (f.type.mapPackages names) (typeEnd true) := fun f hm gap' ↦
        ih f hm (Nat.le_of_lt_succ (Nat.lt_of_lt_of_le
          (GoType.length_words_lt_struct hm gap' gap) hlen)) true
      rw [GoType.words, GoType.fieldsWords_eq]
      exact reads_typeOf_struct (reads_structBody hf ht hfields)
  | @interface methods hm ha hr iha ihr =>
    cases n with
    | zero => cases hlen
    | succ n =>
      have hle {m : Method} {f : Field} (hm : m ∈ methods) (hf : f ∈ m.args ∨ f ∈ m.results)
          (gap' : Gap) : (f.type.withoutEllipsis.words names gap').length ≤ n :=
        Nat.le_of_lt_succ (Nat.lt_of_lt_of_le
          (GoType.length_words_lt_interface hm hf gap' gap) hlen)
      have hmethods : ∀ m ∈ methods, ReadsMethod (level n) known names m := fun m hmem ↦
        { member := hm m hmem
          usualArgs := ha m hmem
          args := fun f hf gap' ↦ iha m hmem f hf (hle hmem (.inl hf) gap') false
          usualResults := fun f hf ↦ by
            rw [(hr m hmem f hf).withoutEllipsis_eq]
            exact hr m hmem f hf
          results := fun f hf gap' ↦ by
            have hlen' := hle hmem (.inr hf) gap'
            rw [(hr m hmem f hf).withoutEllipsis_eq] at hlen' ⊢
            exact ihr m hmem f hf hlen' false }
      rw [GoType.words, GoType.methodsWords_eq]
      exact reads_typeOf_interface (reads_interfaceBody hmethods)

end GoOpenApi.Go
