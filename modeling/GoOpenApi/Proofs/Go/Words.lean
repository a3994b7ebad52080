import GoOpenApi.Go.SourceText
import GoOpenApi.Proofs.Go.Layout
import GoOpenApi.Proofs.Go.Tag

/-!
How types are usually written: fields and methods stand on lines of their own, packages are written
by the names that they are imported under, and every argument has its own type.
-/

namespace GoOpenApi

open GoOpenApi.Go

/-! ### Names -/

def keywords : List String :=
  ["break", "case", "chan", "const", "continue", "default", "defer", "else", "fallthrough", "for",
    "func", "go", "goto", "if", "import", "interface", "map", "package", "range", "return",
    "select", "struct", "switch", "type", "var"]

/-- An identifier that is neither a keyword nor a predeclared constant. -/
@[mk_iff]
structure IsFreeName (s : String) : Prop where
  word : IsWord s
  keyword : s ∉ keywords
  constant : s ∉ ["nil", "true", "false", "iota"]

instance (s : String) : Decidable (IsFreeName s) := decidable_of_iff' _ (isFreeName_iff s)

/-! ### Words -/

/-- Tags as a string in backquotes. -/
def tagText (tags : Dict (List String)) : String :=
  String.ofList ('\x60' :: (Tag.chars tags ++ ['\x60']))

def tagWords (tags : Dict (List String)) : List Word :=
  if tags.isEmpty then [] else [⟨.blanks, .string (tagText tags)⟩]

namespace GoType

mutual

/-- The words of a type after the gap. A package is written by its name under `names`. -/
def words (names : String → String) (gap : Gap) : GoType → List Word
  | .named name _ => [⟨gap, .word name⟩]
  | .pointer next => ⟨gap, .symbol "*"⟩ :: next.words names .nothing
  | .slice next =>
    ⟨gap, .symbol "["⟩ :: ⟨.nothing, .symbol "]"⟩ :: next.words names .nothing
  | .array length next =>
    ⟨gap, .symbol "["⟩ :: ⟨.nothing, .number (toString length.toNat)⟩ ::
      ⟨.nothing, .symbol "]"⟩ :: next.words names .nothing
  | .map key value =>
    ⟨gap, .word "map"⟩ :: ⟨.nothing, .symbol "["⟩ ::
      (key.words names .nothing ++ ⟨.nothing, .symbol "]"⟩ :: value.words names .nothing)
  | .interface methods =>
    ⟨gap, .word "interface"⟩ :: bracketed "\x7b" "\x7d" (methodsWords names methods)
  | .struct fields => ⟨gap, .word "struct"⟩ :: bracketed "\x7b" "\x7d" (fieldsWords names fields)
  | .ellipsis next => ⟨gap, .symbol "..."⟩ :: next.words names .nothing
  | .imported package next =>
    ⟨gap, .word (names package)⟩ :: ⟨.nothing, .symbol "."⟩ :: next.words names .nothing

/-- A member of a struct. -/
def fieldWords (names : String → String) : Field → List Word
  | ⟨name, type, tags, embedded⟩ =>
    if embedded then type.words names .lineEnd ++ tagWords tags
    else ⟨.lineEnd, .word name⟩ :: (type.words names .blanks ++ tagWords tags)

def fieldsWords (names : String → String) : List Field → List Word
  | [] => []
  | field :: fields => fieldWords names field ++ fieldsWords names fields

def parameterWords (names : String → String) (gap : Gap) : Field → List Word
  | ⟨name, type, _, _⟩ => ⟨gap, .word name⟩ :: type.words names .blanks

/-- The parameters after the first one, each with the comma before it. -/
def laterWords (names : String → String) : List Field → List Word
  | [] => []
  | field :: fields =>
    ⟨.nothing, .symbol ","⟩ :: parameterWords names .blanks field ++ laterWords names fields

def parametersWords (names : String → String) (gap : Gap) : List Field → List Word
  | [] => [⟨gap, .symbol "("⟩, ⟨.nothing, .symbol ")"⟩]
  | field :: fields =>
    ⟨gap, .symbol "("⟩ ::
      (parameterWords names .nothing field ++ laterWords names fields ++
        [⟨.nothing, .symbol ")"⟩])

/-- A method of an interface. -/
def methodWords (names : String → String) : Method → List Word
  | ⟨name, _, args, results⟩ =>
    ⟨.lineEnd, .word name⟩ ::
      (parametersWords names .nothing args ++
        if results.isEmpty then [] else parametersWords names .blanks results)

def methodsWords (names : String → String) : List Method → List Word
  | [] => []
  | method :: methods => methodWords names method ++ methodsWords names methods

end

/-- The type of an argument without the sign of a variadic one. -/
def withoutEllipsis : GoType → GoType
  | .ellipsis next => next
  | t => t

/-- The name of an embedded field of the type: that of the type itself or of what it points to. -/
def embeddedName : GoType → Option String
  | .pointer next => next.identity.map (·.2)
  | t => t.identity.map (·.2)

end GoType

/-! ### What is written so -/

/-- A field that can stand in a struct. -/
@[mk_iff]
structure Field.IsMember (f : Field) : Prop where
  name : if f.embedded then f.type.embeddedName = some f.name else IsFreeName f.name
  tags : Tag.Canonical f.tags
  backslash : '\\' ∉ Tag.chars f.tags
  backquote : '\x60' ∉ Tag.chars f.tags

/-- A named argument or result. -/
@[mk_iff]
structure Field.IsParameter (f : Field) : Prop where
  name : IsFreeName f.name
  tags : f.tags = []
  embedded : f.embedded = false

/-- A method without docs whose arguments and results are named. -/
@[mk_iff]
structure Method.IsMember (m : Method) : Prop where
  name : IsFreeName m.name
  docs : m.docs = []
  args : ∀ f ∈ m.args, f.IsParameter
  results : ∀ f ∈ m.results, f.IsParameter

instance (f : Field) : Decidable f.IsMember := decidable_of_iff' _ (Field.isMember_iff f)

instance (f : Field) : Decidable f.IsParameter := decidable_of_iff' _ (Field.isParameter_iff f)

instance (m : Method) : Decidable m.IsMember := decidable_of_iff' _ (Method.isMember_iff m)

/-- A type that is written in the usual way, where `known` says which packages can be named. The
language lets only the last argument of a method repeat; the grammar takes any. -/
inductive GoType.Usual (known : String → Prop) : GoType → Prop where
  | plain {name : String} (h : IsFreeName name) : Usual known (.plain name)
  | qualified {package name : String} (hp : known package) (h : IsFreeName name) :
    Usual known (.qualified package name)
  | pointer {next : GoType} (h : Usual known next) : Usual known (.pointer next)
  | slice {next : GoType} (h : Usual known next) : Usual known (.slice next)
  | array {length : UInt64} {next : GoType} (h : Usual known next) :
    Usual known (.array length next)
  | map {key value : GoType} (hk : Usual known key) (hv : Usual known value) :
    Usual known (.map key value)
  | struct {fields : List Field} (hf : ∀ f ∈ fields, f.IsMember)
    (ht : ∀ f ∈ fields, Usual known f.type) : Usual known (.struct fields)
  | interface {methods : List Method} (hm : ∀ m ∈ methods, m.IsMember)
    (ha : ∀ m ∈ methods, ∀ f ∈ m.args, Usual known f.type.withoutEllipsis)
    (hr : ∀ m ∈ methods, ∀ f ∈ m.results, Usual known f.type) : Usual known (.interface methods)

/-- A lexeme that a usual type begins with. -/
def Go.Lexeme.BeginsType (l : Lexeme) : Prop :=
  (∃ s, l = .word s) ∨ l = .symbol "*" ∨ l = .symbol "["

theorem Go.Lexeme.BeginsType.ne_symbol {l : Lexeme} (h : l.BeginsType) {s : String}
    (hs : s ∉ ["*", "["]) : l ≠ .symbol s := by
  rintro rfl
  rcases h with ⟨s, h⟩ | h | h
  · cases h
  · cases h
    exact hs (by decide)
  · cases h
    exact hs (by decide)

namespace GoType

variable {names : String → String} {known : String → Prop} {gap : Gap} {t : GoType}

theorem fieldsWords_eq (fields : List Field) :
    fieldsWords names fields = fields.flatMap (fieldWords names) := by
  induction fields with
  | nil => rfl
  | cons field fields ih => rw [fieldsWords, ih, List.flatMap_cons]

theorem methodsWords_eq (methods : List Method) :
    methodsWords names methods = methods.flatMap (methodWords names) := by
  induction methods with
  | nil => rfl
  | cons method methods ih => rw [methodsWords, ih, List.flatMap_cons]

theorem laterWords_eq (fields : List Field) :
    laterWords names fields =
      fields.flatMap fun f ↦ ⟨.nothing, .symbol ","⟩ :: parameterWords names .blanks f := by
  induction fields with
  | nil => rfl
  | cons field fields ih => rw [laterWords, ih, List.flatMap_cons]

theorem Usual.exists_words_eq (h : t.Usual known) (names : String → String) (gap : Gap) :
    ∃ l ws, t.words names gap = ⟨gap, l⟩ :: ws ∧ l.BeginsType := by
  cases h with
  | plain | qualified | map | struct | interface => exact ⟨_, _, rfl, .inl ⟨_, rfl⟩⟩
  | pointer => exact ⟨_, _, rfl, .inr (.inl rfl)⟩
  | slice | array => exact ⟨_, _, rfl, .inr (.inr rfl)⟩

theorem parameterWords_eq (gap : Gap) (f : Field) :
    parameterWords names gap f = ⟨gap, .word f.name⟩ :: f.type.words names .blanks := by
  cases f
  rfl

theorem Usual.withoutEllipsis_eq (h : t.Usual known) : t.withoutEllipsis = t := by
  cases h <;> rfl

/-! ### Usual types can be read off a text -/

theorem Usual.head_ne_equals (h : t.Usual known) (ws : List Word) :
    ∀ w ∈ (t.words names gap ++ ws).head?, w.gap = .nothing → w.lexeme ≠ .symbol "=" := by
  obtain ⟨l, ws, he, hl⟩ := h.exists_words_eq names gap
  rw [he]
  rintro _ ⟨⟩ -
  exact hl.ne_symbol (by decide)

theorem written_tagWords {tags : Dict (List String)}
    (h : '\x60' ∉ Tag.chars tags) :
    Written (tagWords tags) ∧ ∀ w ∈ (tagWords tags).head?, w.Follows := by
  unfold tagWords
  split
  · exact ⟨.nil, nofun⟩
  · have hs : (Lexeme.string (tagText tags)).IsWritten :=
      .inl ⟨Tag.chars tags, String.toList_ofList, h⟩
    exact ⟨.string hs, by simp [Word.Follows]⟩

theorem head_follows (t : GoType) (hg : gap ≠ .nothing) (ws : List Word) :
    ∀ w ∈ (t.words names gap ++ ws).head?, w.Follows := by
  have he : ∃ l vs, t.words names gap = ⟨gap, l⟩ :: vs := by cases t <;> exact ⟨_, _, rfl⟩
  obtain ⟨l, vs, he⟩ := he
  rw [he]
  rintro _ ⟨⟩
  exact fun h ↦ absurd h hg

theorem written_fieldWords {f : Field} (hf : f.IsMember) (hu : f.type.Usual known)
    (ht : ∀ gap, Written (f.type.words names gap)) :
    Written (fieldWords names f) ∧ ∀ w ∈ (fieldWords names f).head?, w.Follows := by
  obtain ⟨name, type, tags, embedded⟩ := f
  obtain ⟨htags, hhead⟩ := written_tagWords hf.backquote
  cases embedded with
  | true =>
    exact ⟨(ht .lineEnd).append htags hhead, head_follows type (by decide) _⟩
  | false =>
    have hname : IsFreeName name := by simpa using hf.name
    have htype := (ht .blanks).append htags hhead
    exact ⟨(Written.word hname.word).append htype (head_follows type (by decide) _),
      by simp [fieldWords, Word.Follows]⟩

theorem written_parameterWords {f : Field} (hf : f.IsParameter)
    (ht : Written (f.type.words names .blanks)) (gap : Gap) :
    Written (parameterWords names gap f) := by
  have hhead : ∀ w ∈ (f.type.words names .blanks ++ []).head?, w.Follows :=
    head_follows f.type (by decide) []
  rw [List.append_nil] at hhead
  rw [parameterWords_eq]
  exact (Written.word hf.name.word).append ht hhead

theorem written_parametersWords {fields : List Field} (hf : ∀ f ∈ fields, f.IsParameter)
    (ht : ∀ f ∈ fields, Written (f.type.words names .blanks)) (gap : Gap) :
    Written (parametersWords names gap fields) := by
  have hclosing : Written [⟨.nothing, .symbol ")"⟩] :=
    Written.nil.symbol (by decide) (by decide) nofun
  cases fields with
  | nil => exact hclosing.symbol (by decide) (by decide) (by simp)
  | cons field fields =>
    obtain ⟨hf, hfs⟩ := List.forall_mem_cons.mp hf
    obtain ⟨ht, hts⟩ := List.forall_mem_cons.mp ht
    obtain ⟨hlater, hhead⟩ : Written (laterWords names fields) ∧
        ∀ w ∈ (laterWords names fields).head?, w.Follows := by
      rw [laterWords_eq]
      refine Written.flatMap (fun f hm ↦ ?_) (by simp [Word.Follows])
      exact (written_parameterWords (hfs f hm) (hts f hm) .blanks).symbol (by decide) (by decide)
        (by simp [parameterWords_eq])
    have hall := ((written_parameterWords hf ht .nothing).append hlater hhead).append hclosing
      (by simp [Word.Follows])
    exact hall.symbol (by decide) (by decide) (by simp [parameterWords_eq])

theorem written_argument {t : GoType} (hu : t.withoutEllipsis.Usual known)
    (ht : ∀ gap, Written (t.withoutEllipsis.words names gap)) (gap : Gap) :
    Written (t.words names gap) := by
  cases t with
  | ellipsis next =>
    exact (ht .nothing).symbol (by decide) (by decide)
      (by simpa [withoutEllipsis] using hu.head_ne_equals [])
  | _ => exact ht gap

theorem written_methodWords {m : Method} (hm : m.IsMember)
    (ha : ∀ f ∈ m.args, Written (f.type.words names .blanks))
    (hr : ∀ f ∈ m.results, Written (f.type.words names .blanks)) :
    Written (methodWords names m) ∧ ∀ w ∈ (methodWords names m).head?, w.Follows := by
  obtain ⟨name, docs, args, results⟩ := m
  refine ⟨?_, by simp [methodWords, Word.Follows]⟩
  have hargs := written_parametersWords hm.args ha .nothing
  have hhead (ws : List Word) : ∀ w ∈ (parametersWords names .nothing args ++ ws).head?,
      w.Follows := by
    cases args <;> simp [parametersWords, Word.Follows]
  rw [methodWords]
  refine (Written.word hm.name.word).append (hargs.append ?_ ?_) (hhead _)
  · split
    · exact .nil
    · exact written_parametersWords hm.results hr .blanks
  · cases results <;> simp [parametersWords, Word.Follows]

/-- A word before members that are set off from each other. -/
theorem written_members {ι : Type} {items : List ι} {words : ι → List Word} {s : String}
    (hs : IsWord s)
    (h : ∀ i ∈ items, Written (words i) ∧ ∀ w ∈ (words i).head?, w.Follows) (gap : Gap) :
    Written (⟨gap, .word s⟩ :: bracketed "\x7b" "\x7d" (items.flatMap words)) := by
  obtain ⟨hmembers, hhead⟩ := Written.flatMap (fun i hi ↦ (h i hi).1) fun i hi ↦ (h i hi).2
  have hbracketed : Written (bracketed "\x7b" "\x7d" (items.flatMap words)) :=
    hmembers.bracketed (by decide) (by decide) (by decide) (by decide) (by decide) hhead
  refine (Written.word hs).append hbracketed ?_
  cases items.flatMap words <;> simp [Word.Follows]

theorem Usual.written (h : t.Usual known) (hn : ∀ p, known p → IsFreeName (names p)) (gap : Gap) :
    Written (t.words names gap) := by
  induction h generalizing gap with
  | plain h => exact .word h.word
  | qualified hp h =>
    exact (Written.word (hn _ hp).word).append (Written.word h.word).point (by simp [Word.Follows])
  | pointer h ih =>
    exact (ih .nothing).symbol (by decide) (by decide) (by simpa using h.head_ne_equals [])
  | slice h ih =>
    have hclosing : Written (⟨.nothing, .symbol "]"⟩ :: _) :=
      (ih .nothing).symbol (by decide) (by decide) (by simpa using h.head_ne_equals [])
    exact hclosing.symbol (by decide) (by decide) (by simp)
  | array h ih =>
    have hclosing : Written (⟨.nothing, .symbol "]"⟩ :: _) :=
      (ih .nothing).symbol (by decide) (by decide) (by simpa using h.head_ne_equals [])
    exact hclosing.number.symbol (by decide) (by decide) (by simp)
  | map hk hv ihk ihv =>
    have hclosing : Written (⟨.nothing, .symbol "]"⟩ :: _) :=
      (ihv .nothing).symbol (by decide) (by decide) (by simpa using hv.head_ne_equals [])
    have hkey := (ihk .nothing).append hclosing (by simp [Word.Follows])
    exact (Written.word (by decide)).append
      (hkey.symbol (by decide) (by decide) (hk.head_ne_equals _)) (by simp [Word.Follows])
  | struct hf ht ih =>
    rw [words, fieldsWords_eq]
    exact written_members (by decide)
      (fun f hm ↦ written_fieldWords (hf f hm) (ht f hm) (ih f hm)) gap
  | interface hm ha hr iha ihr =>
    rw [words, methodsWords_eq]
    exact written_members (by decide)
      (fun m hmem ↦ written_methodWords (hm m hmem)
        (fun f hf ↦ written_argument (ha m hmem f hf) (iha m hmem f hf) .blanks)
        fun f hf ↦ ihr m hmem f hf .blanks) gap

/-! ### Types have fewer words than what they stand in -/

theorem length_bracketed (opening closing : String) (ws : List Word) :
    (bracketed opening closing ws).length = ws.length + 2 := by
  cases ws <;> simp [bracketed]

theorem length_words (t : GoType) (gap gap' : Gap) :
    (t.words names gap).length = (t.words names gap').length := by
  cases t <;> rfl

theorem length_le_flatMap_of_mem {ι : Type} {items : List ι} (words : ι → List Word) {i : ι}
    (hi : i ∈ items) : (words i).length ≤ (items.flatMap words).length :=
  (List.sublist_flatten_of_mem (List.mem_map_of_mem hi)).length_le

theorem length_words_lt_struct {fields : List Field} {f : Field} (hf : f ∈ fields)
    (gap gap' : Gap) :
    (f.type.words names gap).length < ((GoType.struct fields).words names gap').length := by
  have hfield : (f.type.words names gap).length ≤ (fieldWords names f).length := by
    obtain ⟨name, type, tags, embedded⟩ := f
    have htype (gap' : Gap) : (type.words names gap).length = (type.words names gap').length :=
      length_words type gap gap'
    cases embedded with
    | false =>
      simp only [fieldWords, Bool.false_eq_true, if_false, List.length_cons, List.length_append]
      have := htype .blanks
      omega
    | true =>
      simp only [fieldWords, if_true, List.length_append]
      have := htype .lineEnd
      omega
  have hle := length_le_flatMap_of_mem (fieldWords names) hf
  rw [GoType.words, List.length_cons, length_bracketed, fieldsWords_eq]
  omega

theorem length_words_le_parameter (f : Field) (gap gap' : Gap) :
    (f.type.withoutEllipsis.words names gap).length ≤ (parameterWords names gap' f).length := by
  rw [parameterWords_eq, List.length_cons]
  obtain ⟨name, type, tags, embedded⟩ := f
  cases type with
  | ellipsis next =>
    have : (next.words names gap).length = (next.words names .nothing).length :=
      length_words next gap .nothing
    simp only [withoutEllipsis, words, List.length_cons]
    omega
  | _ => exact Nat.le_succ_of_le (Nat.le_of_eq (length_words _ gap .blanks))

theorem length_words_lt_parameters {fields : List Field} {f : Field} (hf : f ∈ fields)
    (gap gap' : Gap) :
    (f.type.withoutEllipsis.words names gap).length <
      (parametersWords names gap' fields).length := by
  cases fields with
  | nil => cases hf
  | cons first fields =>
    simp only [parametersWords, List.length_cons, List.length_append]
    rcases List.mem_cons.mp hf with rfl | hf
    · have : _ ≤ (parameterWords names .nothing f).length :=
        length_words_le_parameter f gap .nothing
      omega
    · have hlater := length_le_flatMap_of_mem (fun f : Field ↦
        (⟨.nothing, .symbol ","⟩ :: parameterWords names .blanks f : List Word)) hf
      have : _ ≤ (parameterWords names .blanks f).length :=
        length_words_le_parameter f gap .blanks
      rw [← laterWords_eq, List.length_cons] at hlater
      omega

theorem length_words_lt_interface {methods : List Method} {m : Method} (hm : m ∈ methods)
    {f : Field} (hf : f ∈ m.args ∨ f ∈ m.results) (gap gap' : Gap) :
    (f.type.withoutEllipsis.words names gap).length <
      ((GoType.interface methods).words names gap').length := by
  have hmethod : (f.type.withoutEllipsis.words names gap).length <
      (methodWords names m).length := by
    obtain ⟨name, docs, args, results⟩ := m
    simp only [methodWords, List.length_cons, List.length_append]
    rcases hf with hf | hf
    · have : _ < (parametersWords names .nothing args).length :=
        length_words_lt_parameters hf gap .nothing
      omega
    · have : _ < (parametersWords names .blanks results).length :=
        length_words_lt_parameters hf gap .blanks
      cases results with
      | nil => cases hf
      | cons result results =>
        simp only [List.isEmpty_cons, Bool.false_eq_true, if_false]
        omega
  have hle := length_le_flatMap_of_mem (methodWords names) hm
  rw [GoType.words, List.length_cons, length_bracketed, methodsWords_eq]
  omega

end GoType

end GoOpenApi
