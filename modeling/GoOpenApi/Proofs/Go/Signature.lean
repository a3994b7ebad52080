import GoOpenApi.Proofs.Go.Consuming
import GoOpenApi.Proofs.Go.Lexical

/-!
What every parsed text has: the arguments and results of a method are fields of their own without
tags, and their names are identifiers.
-/

namespace GoOpenApi.Go

namespace Parser

variable {α β : Type} {P : α → Prop} {Q : β → Prop} {p q : Parser α}

/-- All values that a parser reads from lexical tokens satisfy `P`. -/
def Yields (P : α → Prop) (p : Parser α) : Prop :=
  ∀ line ts a rest, Lexical ts → p line ts = some (a, rest) → P a

namespace Yields

theorem any (p : Parser α) : Yields (fun _ ↦ True) p := fun _ _ _ _ _ _ ↦ trivial

theorem pure {a : α} (h : P a) : Yields P (pure a) := by
  intro line ts a' rest _ hr
  cases hr
  exact h

theorem fail : Yields P (fail : Parser α) := nofun

theorem bind [Consumes p] {f : α → Parser β} (hp : Yields P p)
    (hf : ∀ a, P a → Yields Q (f a)) : Yields Q (p >>= f) := by
  intro line ts b rest hl h
  obtain ⟨a, ts', ha, hb⟩ := bind_eq_some h
  have hl' : Lexical ts' := fun t ht ↦ hl t ((Consumes.leaves _ _ _ _ ha).subset ht)
  exact hf a (hp _ _ _ _ hl ha) _ _ _ _ hl' hb

theorem orElse (hp : Yields P p) (hq : Yields P q) : Yields P (p <|> q) := by
  intro line ts a rest hl h
  rcases orElse_eq_some h with h | h
  · exact hp _ _ _ _ hl h
  · exact hq _ _ _ _ hl h

theorem within (line : Bool) (hp : Yields P p) : Yields P (within line p) :=
  fun _ _ _ _ hl h ↦ hp _ _ _ _ hl h

theorem accept {f : Token → Option α}
    (hf : ∀ t a, (∀ w, t.lexeme = .word w → IsIdentifier w) → f t = some a → P a) :
    Yields P (accept f) := by
  intro line ts a rest hl h
  obtain ⟨t, rfl, ha⟩ := accept_eq_some h
  exact hf t a (hl t List.mem_cons_self) ha

theorem identifier : Yields IsIdentifier identifier := by
  refine .accept fun t w hl h ↦ ?_
  split at h
  · split at h
    · cases h
    · cases h
      exact hl _ ‹_›
  · cases h

theorem optional (hp : Yields P p) : Yields (fun a? ↦ ∀ a ∈ a?, P a) (optional p) := by
  intro line ts a? rest hl h a ha
  obtain ⟨rfl, -⟩ | ⟨a', rfl, hr⟩ := optional_eq_some h
  · cases ha
  · cases ha
    exact hp _ _ _ _ hl hr

theorem manyWithin [Consumes p] (hp : Yields P p) (fuel : List Token) :
    Yields (fun as ↦ ∀ a ∈ as, P a) (manyWithin p fuel) := by
  induction fuel with
  | nil => exact .pure nofun
  | cons t fuel ih =>
    refine hp.optional.bind fun a? ha ↦ ?_
    cases a? with
    | none => exact .pure nofun
    | some a => exact ih.bind fun as has ↦ .pure (List.forall_mem_cons.mpr ⟨ha a rfl, has⟩)

theorem commaList [Consumes p] (hp : Yields P p) :
    Yields (fun as ↦ ∀ a ∈ as, P a) (commaList p) := by
  have hq : Yields P (symbol "," >>= fun _ ↦ p) := .bind (.any _) fun _ _ ↦ hp
  have hm : Yields (fun as ↦ ∀ a ∈ as, P a) (many (symbol "," >>= fun _ ↦ p)) :=
    fun line ts ↦ hq.manyWithin ts line ts
  exact hp.bind fun a ha ↦ hm.bind fun as has ↦ .pure (List.forall_mem_cons.mpr ⟨ha, has⟩)

theorem looseList [Consumes p] (hp : Yields P p) :
    Yields (fun as ↦ ∀ a ∈ as, P a) (looseList p) := by
  refine hp.commaList.optional.bind fun as? has ↦ .bind (.any _) fun _ _ ↦ .pure ?_
  cases as? with
  | none => exact nofun
  | some as => exact has as rfl

theorem between [Consumes p] (opening closing : String) (hp : Yields P p) :
    Yields P (between opening closing p) :=
  .bind (.any _) fun _ _ ↦ (hp.within false).bind fun _ ha ↦ .bind (.any _) fun _ _ ↦ .pure ha

end Yields

/-- The members among siblings satisfy `P`. -/
def AllMembers (P : α → Prop) (siblings : List (Sibling α)) : Prop :=
  ∀ row endRow a, .node row endRow a ∈ siblings → P a

theorem AllMembers.append {as bs : List (Sibling α)} (ha : AllMembers P as)
    (hb : AllMembers P bs) : AllMembers P (as ++ bs) :=
  fun row endRow a h ↦ (List.mem_append.mp h).elim (ha row endRow a) (hb row endRow a)

theorem AllMembers.comments (cs : List Comment) :
    AllMembers P (cs.map .comment : List (Sibling α)) := by
  simp [AllMembers]

theorem AllMembers.documented {siblings : List (Sibling α)} (h : AllMembers P siblings) :
    ∀ e ∈ documented siblings, P e.2 := by
  have hf (before : List (Sibling α)) : ∀ e ∈ membersFrom before siblings, P e.2 := by
    induction siblings generalizing before with
    | nil => simp [membersFrom]
    | cons s siblings ih =>
      have ih := ih fun row endRow a hm ↦ h row endRow a (List.mem_cons_of_mem _ hm)
      cases s with
      | comment c => exact ih _
      | node row endRow a =>
        intro e he
        rcases List.mem_cons.mp he with rfl | he
        · exact h row endRow a List.mem_cons_self
        · exact ih _ e he
  exact hf []

theorem Yields.sibling [Consumes p] (hp : Yields P p) : Yields (AllMembers P) (sibling p) := by
  refine .bind (.any _) fun first _ ↦ hp.bind fun a ha ↦ .bind (.any _) fun next _ ↦ .pure ?_
  refine (AllMembers.comments _).append fun row endRow a' hm ↦ ?_
  cases List.mem_singleton.mp hm
  exact ha

theorem Yields.membersWithin [Consumes p] (closing : String) (ended : Bool) (hp : Yields P p)
    (fuel : List Token) : Yields (AllMembers P) (membersWithin closing ended p fuel) := by
  induction fuel with
  | nil => exact .fail
  | cons t fuel ih =>
    refine .bind (.any _) fun next _ ↦ ?_
    split
    · exact .pure nofun
    · refine hp.sibling.bind fun member hm ↦ .bind (.any _) fun next _ ↦ ?_
      split
      · exact .pure hm
      · exact .bind (.any _) fun comments _ ↦ ih.bind fun rest hr ↦
          .pure ((hm.append (.comments _)).append hr)

theorem Yields.members [Consumes p] (opening closing : String) (ended : Bool) (hp : Yields P p) :
    Yields (AllMembers P) (members opening closing ended p) :=
  .bind (.any _) fun _ _ ↦
    .bind (Yields.within true fun _ ts _ _ hl h ↦ hp.membersWithin closing ended ts _ _ _ _ hl h)
      fun _ hs ↦ .bind (.any _) fun _ _ ↦ .pure hs

end Parser

open GoOpenApi.Go.Parser

/-- No field among them is embedded. -/
def AllOwn (fields : List Field) : Prop := ∀ f ∈ fields, f.embedded = false

/-- An argument or result as it is written: a field of its own without a tag. -/
structure IsParameter (f : Field) : Prop where
  embedded : f.embedded = false
  tags : f.tags = []
  name : IsIdentifier f.name

def AllParameters (fields : List Field) : Prop := ∀ f ∈ fields, IsParameter f

/-- A method as it is written: its name is an identifier, its arguments and results are fields of
their own. -/
structure Plain (m : Method) : Prop where
  name : IsIdentifier m.name
  args : AllParameters m.args
  results : AllParameters m.results

theorem isParameter_ofType {name : String} (h : IsIdentifier name) (type : GoType) :
    IsParameter (.ofType name type) := ⟨rfl, rfl, h⟩

theorem AllParameters.numbered {stem : String} (hs : IsIdentifier stem)
    {groups : List (List String × GoType)}
    (hg : ∀ group ∈ groups, ∀ name ∈ group.1, IsIdentifier name) :
    AllParameters (numbered stem groups) := by
  refine List.foldlRecOn (motive := AllParameters) groups _ nofun fun fields h group hm f hf ↦ ?_
  rcases List.mem_append.mp hf with hf | hf
  · exact h f hf
  · have hn := hg group hm
    obtain ⟨names, type⟩ := group
    unfold fieldsOf at hf
    split at hf
    · cases List.mem_singleton.mp hf
      exact isParameter_ofType (hs.append_number _) _
    · obtain ⟨name, hm, rfl⟩ := List.mem_map.mp hf
      rename_i heq _
      cases heq
      exact isParameter_ofType (hn name hm) _

namespace Level

variable (g : Level) [g.Consuming]

theorem parameterGroup_yields :
    Yields (fun group ↦ ∀ name ∈ group.1, IsIdentifier name) g.parameterGroup := by
  refine .orElse (.bind (Yields.identifier.optional) fun name? hn ↦ .bind (.any _) fun _ _ ↦
    .bind (.any _) fun _ _ ↦ .pure fun name hm ↦ hn name (Option.mem_toList.mp hm)) ?_
  refine .orElse (.bind Yields.identifier.commaList fun names hn ↦ .bind (.any _) fun _ _ ↦
    .bind (.any _) fun _ _ ↦ .pure hn) ?_
  exact .bind (.any _) fun _ _ ↦ .pure nofun

theorem parameters_yields :
    Yields (fun groups ↦ ∀ group ∈ groups, ∀ name ∈ group.1, IsIdentifier name) g.parameters :=
  (parameterGroup_yields g).looseList.between _ _

theorem isIdentifier_arg : IsIdentifier "arg" := isIdentifier_of_letters (by decide) (by decide)

theorem isIdentifier_ret : IsIdentifier "ret" := isIdentifier_of_letters (by decide) (by decide)

theorem results_yields : Yields AllParameters g.results := by
  refine .orElse
    ((parameters_yields g).bind fun groups hg ↦ .pure (.numbered isIdentifier_ret hg))
    (.bind (.any _) fun type _ ↦ .pure fun f hf ↦ ?_)
  cases List.mem_singleton.mp hf
  exact isParameter_ofType (isIdentifier_ret.append_number 0) type

theorem signature_yields : Yields (fun s ↦ AllParameters s.1 ∧ AllParameters s.2) g.signature := by
  refine (parameters_yields g).bind fun args ha ↦
    (results_yields g).optional.bind fun results hr ↦ .pure ⟨.numbered isIdentifier_arg ha, ?_⟩
  cases results with
  | none => exact nofun
  | some results => exact hr results rfl

theorem method_yields : Yields Plain g.method := by
  refine Yields.identifier.bind fun name hn ↦ (signature_yields g).optional.bind fun s hs ↦ ?_
  cases s with
  | none => exact .fail
  | some s => exact .pure ⟨hn, (hs s rfl).1, (hs s rfl).2⟩

theorem interfaceElement_yields :
    Yields (fun element ↦ ∀ m, element = .inl m → Plain m) g.interfaceElement :=
  .orElse ((method_yields g).bind fun _ hm ↦ .pure fun _ h ↦ Sum.inl.inj h ▸ hm)
    (.bind (.any _) fun _ _ ↦ .pure nofun)

theorem interfaceBody_yields : Yields (fun body ↦ ∀ m ∈ body.1, Plain m) g.interfaceBody := by
  refine ((interfaceElement_yields g).members _ _ _).bind fun elements he ↦ .pure fun m hm ↦ ?_
  obtain ⟨⟨docs, element⟩, hd, hm⟩ := List.mem_filterMap.mp hm
  have hp := he.documented _ hd
  cases element with
  | inl m' =>
    cases hm
    exact ⟨(hp m' rfl).name, (hp m' rfl).args, (hp m' rfl).results⟩
  | inr types => cases hm

/-- The methods of an interface have arguments and results of their own. -/
def PlainBody : TypeBody → Prop
  | .interface methods _ => ∀ m ∈ methods, Plain m
  | _ => True

theorem typeBody_yields : Yields PlainBody g.typeBody := by
  refine .bind (.any _) fun t _ ↦ ?_
  split
  · exact .bind (.any _) fun _ _ ↦ (interfaceBody_yields g).bind fun body hb ↦ .pure hb
  · exact .bind (.any _) fun _ _ ↦ .bind (.any _) fun _ _ ↦ .pure trivial
  · exact .bind (.any _) fun _ _ ↦ .pure trivial

theorem aliasBody_yields : Yields PlainBody g.aliasBody :=
  .bind (.any _) fun _ _ ↦ .bind (.any _) fun _ _ ↦ .pure trivial

theorem typeSpec_yields : Yields (fun spec ↦ PlainBody spec.body) g.typeSpec := by
  have h := (aliasBody_yields g).orElse (typeBody_yields g)
  exact .bind (.any _) fun name _ ↦ ((aliasBody_yields g).orElse <| (typeBody_yields g).orElse <|
    .bind (.any _) fun _ _ ↦ h).bind fun body hb ↦ .pure hb

theorem typeDeclaration_yields :
    Yields (AllMembers fun spec ↦ PlainBody spec.body) g.typeDeclaration :=
  .bind (.any _) fun _ _ ↦
    .orElse ((typeSpec_yields g).members _ _ _) (typeSpec_yields g).sibling

def PlainTop : TopLevel → Prop
  | .types specs => AllMembers (fun spec ↦ PlainBody spec.body) specs
  | _ => True

theorem topLevel_yields : Yields PlainTop g.topLevel := by
  refine .bind (.any _) fun t _ ↦ ?_
  split
  · exact .bind (.any _) fun _ _ ↦ .bind (.any _) fun _ _ ↦ .pure trivial
  · exact .bind (.any _) fun _ _ ↦ .pure trivial
  · exact .bind (.any _) fun _ _ ↦ .pure trivial
  · exact (typeDeclaration_yields g).bind fun specs hs ↦ .pure hs
  · exact .bind (.any _) fun _ _ ↦ .pure trivial

theorem topLevelsWithin_yields (fuel : List Token) :
    Yields (AllMembers PlainTop) (g.topLevelsWithin fuel) := by
  induction fuel with
  | nil => exact .fail
  | cons t fuel ih =>
    refine .bind (.any _) fun next _ ↦ ?_
    split
    · exact .pure nofun
    · refine (topLevel_yields g).sibling.bind fun siblings hs ↦ .bind (.any _) fun next _ ↦ ?_
      split
      · exact .fail
      · exact .bind (.any _) fun comments _ ↦ ih.bind fun rest hr ↦
          .pure ((hs.append (.comments _)).append hr)

end Level

theorem AllParameters.mapFields (f : String → String) {fields : List Field}
    (h : AllParameters fields) : AllParameters (GoType.mapFields f fields) := by
  induction fields with
  | nil => exact nofun
  | cons field fields ih =>
    obtain ⟨name, type, tags, embedded⟩ := field
    obtain ⟨hf, h⟩ := List.forall_mem_cons.mp h
    exact List.forall_mem_cons.mpr ⟨⟨hf.embedded, hf.tags, hf.name⟩, ih h⟩

theorem plain_mapMethods (f : String → String) {methods : List Method}
    (h : ∀ m ∈ methods, Plain m) : ∀ m ∈ GoType.mapMethods f methods, Plain m := by
  induction methods with
  | nil => exact nofun
  | cons m methods ih =>
    obtain ⟨name, docs, args, results⟩ := m
    obtain ⟨hm, h⟩ := List.forall_mem_cons.mp h
    exact List.forall_mem_cons.mpr ⟨⟨hm.name, hm.args.mapFields f, hm.results.mapFields f⟩, ih h⟩

theorem plain_specsOf {e : List String × TopLevel} (h : Level.PlainTop e.2) :
    ∀ spec ∈ specsOf e, Level.PlainBody spec.2.body := by
  unfold specsOf
  split
  · rename_i docs siblings
    have hs := AllMembers.documented h
    split
    · rename_i spec hd
      rw [hd] at hs
      intro e he
      cases List.mem_singleton.mp he
      exact hs ([], spec) List.mem_cons_self
    · exact hs
  · exact nofun

/-- The methods of the interfaces of a Go text have identifiers for names, and arguments and results
of their own. -/
theorem plain_of_parse? {text : String} {file : SourceFile}
    (h : SourceFile.parse? text = some file) : ∀ d ∈ file.interfaces, ∀ m ∈ d.methods, Plain m := by
  obtain ⟨items, hi, rfl⟩ := Option.map_eq_some_iff.mp h
  obtain ⟨tokens, ht, hi⟩ := Option.bind_eq_some_iff.mp hi
  obtain ⟨⟨items, rest⟩, hl, rfl⟩ := Option.map_eq_some_iff.mp hi
  have hp := (Level.topLevelsWithin_yields _ _ _ _ _ _ (Token.lexical_ofText? ht) hl).documented
  intro d hd
  obtain ⟨⟨docs, spec⟩, hs, hd⟩ := List.mem_filterMap.mp hd
  obtain ⟨item, hitem, hs⟩ := List.mem_flatMap.mp hs
  have hb := plain_specsOf (hp item hitem) _ hs
  simp only at hd hb
  split at hd
  · rename_i methods embedded hbody
    cases hd
    rw [hbody] at hb
    exact plain_mapMethods _ hb
  · cases hd

end GoOpenApi.Go
