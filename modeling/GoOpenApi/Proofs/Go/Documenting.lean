import GoOpenApi.Directive
import GoOpenApi.Proofs.Go.Imports
import GoOpenApi.Proofs.Go.Supply

/-!
Where the docs of a file come from. Every declaration and every method takes its docs from comments
of the text, no two take the same comment, and a comment that stands directly behind a member on the
last row of it is taken by none.
-/

open scoped List

namespace GoOpenApi

open GoOpenApi.Go (Comment)

mutual

/-- The docs of the methods in a type are taken from the comments. -/
inductive GoType.Takes : GoType → List Comment → Prop
  | named {name : String} {package : Option String} : GoType.Takes (.named name package) []
  | pointer {next : GoType} {cs : List Comment} :
    GoType.Takes next cs → GoType.Takes (.pointer next) cs
  | slice {next : GoType} {cs : List Comment} :
    GoType.Takes next cs → GoType.Takes (.slice next) cs
  | array {length : UInt64} {next : GoType} {cs : List Comment} :
    GoType.Takes next cs → GoType.Takes (.array length next) cs
  | map {key value : GoType} {cs ds : List Comment} :
    GoType.Takes key cs → GoType.Takes value ds → GoType.Takes (.map key value) (cs ++ ds)
  | interface {methods : List Method} {cs : List Comment} :
    Method.TakeAll methods cs → GoType.Takes (.interface methods) cs
  | struct {fields : List Field} {cs : List Comment} :
    Field.TakeAll fields cs → GoType.Takes (.struct fields) cs
  | ellipsis {next : GoType} {cs : List Comment} :
    GoType.Takes next cs → GoType.Takes (.ellipsis next) cs
  | imported {package : String} {next : GoType} {cs : List Comment} :
    GoType.Takes next cs → GoType.Takes (.imported package next) cs

/-- Fields that are named before one type have it in common. -/
inductive Field.TakeAll : List Field → List Comment → Prop
  | nil : Field.TakeAll [] []
  | cons {f : Field} {fields : List Field} {cs ds : List Comment} :
    f.type.Takes cs → Field.TakeAll fields ds → Field.TakeAll (f :: fields) (cs ++ ds)
  | shared {f f' : Field} {fields : List Field} {cs : List Comment} :
    f.type = f'.type → Field.TakeAll (f' :: fields) cs → Field.TakeAll (f :: f' :: fields) cs

inductive Method.TakeAll : List Method → List Comment → Prop
  | nil : Method.TakeAll [] []
  | cons {m : Method} {methods : List Method} {own cs ds es : List Comment} :
    m.docs = own.flatMap Comment.lines → Field.TakeAll m.args cs → Field.TakeAll m.results ds →
    Method.TakeAll methods es → Method.TakeAll (m :: methods) (own ++ cs ++ ds ++ es)

end

theorem Field.TakeAll.append {as bs : List Field} {cs ds : List Comment} (h : Field.TakeAll as cs)
    (h' : Field.TakeAll bs ds) : Field.TakeAll (as ++ bs) (cs ++ ds) := by
  cases h with
  | nil => exact h'
  | cons ht h =>
    rw [List.append_assoc]
    exact .cons ht (h.append h')
  | shared he h => exact .shared he (h.append h')

section

variable (f : String → String)

mutual

theorem GoType.Takes.mapPackages : ∀ {t : GoType} {cs : List Comment},
    t.Takes cs → (t.mapPackages f).Takes cs
  | _, _, .named => by
    rw [GoType.mapPackages]
    exact .named
  | _, _, .pointer h => by
    rw [GoType.mapPackages]
    exact .pointer h.mapPackages
  | _, _, .slice h => by
    rw [GoType.mapPackages]
    exact .slice h.mapPackages
  | _, _, .array h => by
    rw [GoType.mapPackages]
    exact .array h.mapPackages
  | _, _, .map h h' => by
    rw [GoType.mapPackages]
    exact .map h.mapPackages h'.mapPackages
  | _, _, .interface h => by
    rw [GoType.mapPackages]
    exact .interface h.mapMethods
  | _, _, .struct h => by
    rw [GoType.mapPackages]
    exact .struct h.mapFields
  | _, _, .ellipsis h => by
    rw [GoType.mapPackages]
    exact .ellipsis h.mapPackages
  | _, _, .imported h => by
    rw [GoType.mapPackages]
    exact .imported h.mapPackages

theorem Field.TakeAll.mapFields : ∀ {fields : List Field} {cs : List Comment},
    Field.TakeAll fields cs → Field.TakeAll (GoType.mapFields f fields) cs
  | _, _, .nil => .nil
  | _, _, @Field.TakeAll.cons ⟨_, _, _, _⟩ _ _ _ h h' => by
    rw [GoType.mapFields, GoType.mapField]
    exact .cons h.mapPackages h'.mapFields
  | _, _, @Field.TakeAll.shared ⟨_, _, _, _⟩ ⟨_, _, _, _⟩ _ _ he h => by
    have h := h.mapFields
    rw [GoType.mapFields, GoType.mapField] at h ⊢
    rw [GoType.mapFields, GoType.mapField]
    exact .shared (congrArg (GoType.mapPackages f) he) h

theorem Method.TakeAll.mapMethods : ∀ {methods : List Method} {cs : List Comment},
    Method.TakeAll methods cs → Method.TakeAll (GoType.mapMethods f methods) cs
  | _, _, .nil => .nil
  | _, _, @Method.TakeAll.cons ⟨_, _, _, _⟩ _ _ _ _ _ hd ha hr h => by
    rw [GoType.mapMethods, GoType.mapMethod]
    exact .cons hd ha.mapFields hr.mapFields h.mapMethods

end

end

namespace Go

/-! ### What the rules of the grammar read -/

/-- The docs in the arguments and results of a method. -/
def MethodTakes (m : Method) (cs : List Comment) : Prop :=
  ∃ ds es, Field.TakeAll m.args ds ∧ Field.TakeAll m.results es ∧ cs = ds ++ es

def ElementTakes : Method ⊕ List GoType → List Comment → Prop
  | .inl m, cs => MethodTakes m cs
  | .inr types, cs => Each GoType.Takes types cs

/-- The docs of the methods of an interface, and those in what else it is made of. -/
def InterfaceTakes (methods : List Method) (embedded : List GoType) (cs : List Comment) : Prop :=
  ∃ ds es, Method.TakeAll methods ds ∧ Each GoType.Takes embedded es ∧ cs = ds ++ es

def BodyTakes : TypeBody → List Comment → Prop
  | .interface methods embedded, cs => InterfaceTakes methods embedded cs
  | .struct fields, cs => Field.TakeAll fields cs
  | .other type, cs => type.Takes cs

def SpecTakes (spec : TypeSpec) (cs : List Comment) : Prop := BodyTakes spec.body cs

def TopTakes : TopLevel → List Comment → Prop
  | .types specs, cs => Each (WithDocs SpecTakes) (documented specs) cs
  | _, cs => cs = []

open GoOpenApi.Go.Parser

theorem takes_opaqueType : opaqueType.Takes [] := .interface .nil

theorem each_opaqueType (cs : List Comment) :
    Each GoType.Takes (cs.map fun _ ↦ opaqueType) [] := by
  induction cs with
  | nil => exact .nil
  | cons c cs ih => exact .cons takes_opaqueType ih

theorem Each.flatten {α : Type} {P : α → List Comment → Prop} {lists : List (List α)}
    {cs : List Comment} (h : Each (Each P) lists cs) : Each P lists.flatten cs := by
  induction h with
  | nil => exact .nil
  | cons ha _ ih => exact ha.append ih

/-- Fields of one type. -/
theorem takeAll_common {fields : List Field} {type : GoType} {cs : List Comment}
    (hn : fields ≠ []) (h : ∀ f ∈ fields, f.type = type) (ht : type.Takes cs) :
    Field.TakeAll fields cs := by
  induction fields with
  | nil => exact absurd rfl hn
  | cons f fields ih =>
    obtain ⟨hf, h⟩ := List.forall_mem_cons.mp h
    cases fields with
    | nil => exact List.append_nil cs ▸ .cons (hf ▸ ht) .nil
    | cons f' fields =>
      exact .shared (hf.trans (h f' List.mem_cons_self).symm) (ih (List.cons_ne_nil _ _) h)

theorem takeAll_numbered (stem : String) {groups : List (List String × GoType)}
    {cs : List Comment} (h : Each (fun group ↦ group.2.Takes) groups cs) :
    Field.TakeAll (numbered stem groups) cs := by
  have hf {fields : List Field} {ds : List Comment} (hd : Field.TakeAll fields ds) :
      Field.TakeAll (groups.foldl
        (fun fields group ↦ fields ++ fieldsOf stem fields.length group) fields) (ds ++ cs) := by
    induction h generalizing fields ds with
    | nil => rwa [List.append_nil]
    | @cons group groups cs es hg _ ih =>
      rw [← List.append_assoc]
      refine ih (hd.append ?_)
      obtain ⟨names, type⟩ := group
      cases names with
      | nil => exact List.append_nil cs ▸ .cons hg .nil
      | cons name names =>
        exact takeAll_common (by simp [fieldsOf]) (by simp [fieldsOf, Field.ofType]) hg
  exact hf .nil

theorem interfaceTakes_of_each {elements : List (List String × (Method ⊕ List GoType))}
    {cs : List Comment} (h : Each (WithDocs ElementTakes) elements cs) : ∃ ds,
    InterfaceTakes
      (elements.filterMap fun (docs, element) ↦ match element with
        | .inl method => some { method with docs := docs }
        | .inr _ => none)
      (elements.flatMap fun (_, element) ↦ match element with
        | .inl _ => []
        | .inr types => types) ds ∧ ds <+~ cs := by
  induction h with
  | nil => exact ⟨[], ⟨[], [], .nil, .nil, rfl⟩, .refl _⟩
  | @cons e elements cs fs he _ ih =>
    obtain ⟨docs, element⟩ := e
    obtain ⟨own, rest, hdocs, hrest, rfl⟩ := he
    obtain ⟨_, ⟨ds, es, hd, he, rfl⟩, hs⟩ := ih
    cases element with
    | inl m =>
      obtain ⟨as, rs, ha, hr, rfl⟩ := hrest
      refine ⟨_, ⟨_, es, .cons (m := { m with docs := docs }) hdocs ha hr hd, he, rfl⟩, ?_⟩
      rw [List.append_assoc, List.append_assoc own]
      exact (List.Subperm.refl _).append hs
    | inr types =>
      refine ⟨_, ⟨ds, _, hd, Each.append hrest he, rfl⟩, ?_⟩
      have hp : ds ++ (rest ++ es) <+~ rest ++ (ds ++ es) := by
        rw [← List.append_assoc, ← List.append_assoc]
        exact (List.perm_append_comm.append_right _).subperm
      exact hp.trans ((List.sublist_append_right own rest).subperm.append hs)

theorem takeAll_of_each {groups : List (List String × List Field)} {cs : List Comment}
    (h : Each (WithDocs Field.TakeAll) groups cs) :
    ∃ ds, Field.TakeAll (groups.flatMap (·.2)) ds ∧ ds <+~ cs := by
  induction h with
  | nil => exact ⟨[], .nil, .refl _⟩
  | cons hg _ ih =>
    obtain ⟨own, rest, -, hrest, rfl⟩ := hg
    obtain ⟨ds, hd, hs⟩ := ih
    exact ⟨_, hrest.append hd, (List.sublist_append_right own rest).subperm.append hs⟩

/-- The types in a construct take their docs from comments between its tokens. -/
class Level.Documenting (g : Level) : Prop extends g.Advancing where
  type_documents : Documents GoType.Takes [] g.type

namespace Level

variable (g : Level) [g.Documenting]

theorem type_takes : Documents GoType.Takes [] g.type := Documenting.type_documents

theorem unionMember_takes : Documents (Each GoType.Takes) [] g.unionMember :=
  .skip fun _ ↦ .skip fun _ ↦ .skip fun _ ↦ g.type_takes.bind fun _ _ ht ↦
    .pure ((each_opaqueType _).append (.single ht)) (.refl _)

theorem union_takes : Documents (Each GoType.Takes) [] g.union :=
  g.type_takes.bind fun _ _ ht ↦ g.unionMember_takes.many.bind fun _ _ hts ↦
    .pure (.cons ht hts.flatten) (.refl _)

theorem namedType_takes (word : String) : Documents GoType.Takes [] (g.namedType word) := by
  refine .skip fun name? ↦ .skip fun _ ↦ ?_
  split
  · exact .pure (.imported .named) (.refl _)
  · exact .pure .named (.refl _)

theorem parameterGroup_takes :
    Documents (fun group ↦ group.2.Takes) [] g.parameterGroup := by
  refine .orElse (.skip fun _ ↦ .skip fun _ ↦ g.type_takes.bind fun _ _ ht ↦
    .pure (.ellipsis ht) (.refl _)) ?_
  refine .orElse (.skip fun _ ↦ g.type_takes.bind fun _ _ ht ↦ .skip fun _ ↦
    .pure ht (.refl _)) ?_
  exact g.type_takes.bind fun _ _ ht ↦ .pure ht (.refl _)

theorem parameters_takes : Documents (Each fun group ↦ group.2.Takes) [] g.parameters :=
  .between _ _ g.parameterGroup_takes.looseList

theorem results_takes : Documents Field.TakeAll [] g.results :=
  .orElse (g.parameters_takes.bind fun _ _ hg ↦ .pure (takeAll_numbered _ hg) (.refl _))
    (g.type_takes.bind fun _ _ ht ↦
      .pure (takeAll_common (by simp) (by simp [Field.ofType]) ht) (.refl _))

theorem signature_takes : Documents
    (fun s cs ↦ ∃ ds es, Field.TakeAll s.1 ds ∧ Field.TakeAll s.2 es ∧ cs = ds ++ es) []
    g.signature := by
  refine g.parameters_takes.bind fun args ds ha ↦ g.results_takes.optional.bind fun results es hr ↦
    .pure ⟨ds, es, takeAll_numbered _ ha, ?_, rfl⟩ (.refl _)
  cases results with
  | none =>
    cases hr
    exact .nil
  | some results =>
    cases hr with
    | cons hr h =>
      cases h
      rwa [List.append_nil]

theorem method_takes : Documents MethodTakes [] g.method := by
  refine .skip fun name ↦ g.signature_takes.optional.bind fun s? cs hs ↦ ?_
  cases s? with
  | none => exact .fail
  | some s =>
    cases hs with
    | cons hs h =>
      cases h
      rw [List.append_nil]
      exact .pure hs (.refl _)

theorem interfaceElement_takes : Documents ElementTakes [] g.interfaceElement :=
  .orElse (g.method_takes.bind fun _ _ hm ↦ .pure hm (.refl _))
    (g.union_takes.bind fun _ _ ht ↦ .pure ht (.refl _))

theorem interfaceBody_takes :
    Documents (fun body ↦ InterfaceTakes body.1 body.2) [] g.interfaceBody := by
  refine (g.interfaceElement_takes.members (.inl rfl) _ _).bind fun elements cs he ↦ ?_
  obtain ⟨ds, hd, hs⟩ := interfaceTakes_of_each he
  exact .pure hd hs

theorem embeddedField_takes : Documents Field.TakeAll [] g.embeddedField := by
  refine .skip fun star? ↦ .skip fun word ↦ (g.namedType_takes word).bind fun type cs ht ↦
    .skip fun tags ↦ .skip fun next ↦ ?_
  have hfield (name : String) : Field.TakeAll
      [⟨name, if star?.isSome then .pointer type else type, tags, true⟩] cs := by
    refine takeAll_common (by simp) (List.forall_mem_singleton.mpr rfl) ?_
    split
    · exact .pointer ht
    · exact ht
  exact .ite (.skip fun _ ↦ .pure (hfield _) (.refl _)) (.pure (hfield _) (.refl _))

theorem namedFields_takes : Documents Field.TakeAll [] g.namedFields := by
  refine .skip fun names ↦ g.type_takes.bind fun type cs ht ↦ .skip fun tags ↦ ?_
  cases names with
  | nil => exact .pure .nil List.nil_subperm
  | cons name names => exact .pure (takeAll_common (by simp) (by simp) ht) (.refl _)

theorem structBody_takes : Documents Field.TakeAll [] g.structBody := by
  refine ((g.embeddedField_takes.orElse g.namedFields_takes).members (.inl rfl) _ _).bind
    fun groups cs hg ↦ ?_
  obtain ⟨ds, hd, hs⟩ := takeAll_of_each hg
  exact .pure hd hs

theorem parenthesizedType_takes : Documents GoType.Takes [] g.parenthesizedType := by
  refine .skip fun _ ↦ (g.type_takes.within false).bind fun type cs ht ↦ .skip fun closing ↦ ?_
  split
  · exact .pure ht (.refl _)
  · exact .pure takes_opaqueType List.nil_subperm

theorem arrayType_takes : Documents GoType.Takes [] g.arrayType :=
  .skip fun _ ↦ g.type_takes.bind fun _ _ ht ↦ .pure (.array ht) (.refl _)

theorem mapType_takes : Documents GoType.Takes [] g.mapType :=
  .skip fun _ ↦ (Documents.between _ _ g.type_takes).bind fun _ _ hk ↦
    g.type_takes.bind fun _ _ hv ↦ .pure (.map hk hv) (.refl _)

theorem channelType_takes : Documents GoType.Takes [] g.channelType :=
  .orElse (.skip fun _ ↦ .skip fun _ ↦ .skip fun _ ↦ .pure takes_opaqueType (.refl _))
    (.skip fun _ ↦ .skip fun _ ↦ .skip fun _ ↦ .pure takes_opaqueType (.refl _))

theorem functionType_takes : Documents GoType.Takes [] g.functionType :=
  .skip fun _ ↦ .skip fun _ ↦ .pure takes_opaqueType (.refl _)

theorem typeOf_takes : Documents GoType.Takes [] g.typeOf := by
  refine .skip fun t ↦ ?_
  split
  · exact .skip fun _ ↦ g.type_takes.bind fun _ _ ht ↦ .pure (.pointer ht) (.refl _)
  · exact g.parenthesizedType_takes
  · exact .orElse (.skip fun _ ↦ .skip fun _ ↦ g.type_takes.bind fun _ _ ht ↦
      .pure (.slice ht) (.refl _)) g.arrayType_takes
  · exact .skip fun _ ↦ .skip fun _ ↦ .pure takes_opaqueType (.refl _)
  · exact g.channelType_takes
  · exact g.channelType_takes
  · exact g.mapType_takes
  · exact g.functionType_takes
  · refine .skip fun _ ↦ g.interfaceBody_takes.bind fun body cs hb ↦ ?_
    obtain ⟨ds, es, hd, -, rfl⟩ := hb
    exact .pure (.interface hd) (List.sublist_append_left ds es).subperm
  · exact .skip fun _ ↦ g.structBody_takes.bind fun _ _ hf ↦ .pure (.struct hf) (.refl _)
  · exact .skip fun word ↦ g.namedType_takes word
  · exact .fail

theorem typeBody_takes : Documents BodyTakes [] g.typeBody := by
  refine .skip fun t ↦ ?_
  split
  · exact .skip fun _ ↦ g.interfaceBody_takes.bind fun _ _ hb ↦ .pure hb (.refl _)
  · exact .skip fun _ ↦ g.structBody_takes.bind fun _ _ hf ↦ .pure hf (.refl _)
  · exact g.typeOf_takes.bind fun _ _ ht ↦ .pure ht (.refl _)

theorem aliasBody_takes : Documents BodyTakes [] g.aliasBody :=
  .skip fun _ ↦ g.typeOf_takes.bind fun _ _ ht ↦ .pure ht (.refl _)

theorem typeSpec_takes : Documents SpecTakes [] g.typeSpec := by
  have h := g.aliasBody_takes.orElse g.typeBody_takes
  exact .skip fun name ↦ (g.aliasBody_takes.orElse (g.typeBody_takes.orElse
    (.skip fun _ ↦ h))).bind fun _ _ hb ↦ .pure hb (.refl _)

/-- A specification without brackets stands behind the word `type`, where no member ends. -/
theorem typeDeclaration_takes : Documents
    (fun siblings ↦ Each (WithDocs SpecTakes) (documented siblings)) [] g.typeDeclaration := by
  intro line ts siblings rest h
  obtain ⟨_, ts₁, hkeyword, hrest⟩ := bind_eq_some h
  obtain ⟨t, _, ht, hr⟩ := bind_eq_some hkeyword
  cases hr
  obtain ⟨rfl, hlexeme⟩ := lexeme_eq_some ht
  rcases orElse_eq_some hrest with h | h
  · obtain ⟨used, cs, rfl, he, hc⟩ := g.typeSpec_takes.members (.inr rfl) _ _ _ _ _ _ h
    exact ⟨t :: used, cs, rfl, he, hc.trans (Token.inner_sublist (some t) used).subperm⟩
  · have hopens : t.opens = true := by simp [Token.opens, hlexeme]
    obtain ⟨used, cs, rfl, hlaid, hc, -⟩ :=
      sibling_laid g.typeSpec_takes h (behind_opening hopens)
    obtain ⟨ds, he, hd⟩ := hlaid.each
    have hd : ds <+ cs := hd
    exact ⟨t :: used, ds, rfl, he, hd.subperm.trans hc⟩

theorem topLevel_takes : Documents TopTakes [] g.topLevel := by
  refine .skip fun t ↦ ?_
  split
  · exact .skip fun _ ↦ .skip fun _ ↦ .pure rfl (.refl _)
  · exact .skip fun _ ↦ .pure rfl (.refl _)
  · exact .skip fun _ ↦ .pure rfl (.refl _)
  · exact g.typeDeclaration_takes.bind fun _ _ hs ↦ .pure hs (.refl _)
  · exact .skip fun _ ↦ .pure rfl (.refl _)

theorem topLevelsWithin_lays (fuel : List Token) : Lays TopTakes (g.topLevelsWithin fuel) := by
  induction fuel with
  | nil => exact .fail
  | cons t fuel ih =>
    refine .peek fun next ↦ ?_
    split
    · exact .nil
    · refine .sibling g.topLevel_takes fun member ↦ .peek fun next ↦ ?_
      split
      · exact .fail
      · exact .terminator ih

end Level

instance (n : Nat) : (level n).Documenting := by
  induction n with
  | zero => exact ⟨.fail⟩
  | succ n ih => exact ⟨(level n).typeOf_takes⟩

/-! ### Files -/

theorem each_specsOf {item : List String × TopLevel} {cs : List Comment}
    (h : WithDocs TopTakes item cs) :
    ∃ ds, Each (WithDocs SpecTakes) (specsOf item) ds ∧ ds <+~ cs := by
  obtain ⟨docs, top⟩ := item
  obtain ⟨own, rest, hdocs, hrest, rfl⟩ := h
  cases top with
  | package | imports | other => exact ⟨[], .nil, List.nil_subperm⟩
  | types siblings =>
    have hspecs : Each (WithDocs SpecTakes) (documented siblings) rest := hrest
    rw [specsOf]
    split
    · rename_i spec hd
      rw [hd] at hspecs
      cases hspecs with
      | cons hs hn =>
        cases hn
        -- the docs of the declaration stand in for the empty docs of the specification
        obtain ⟨own', rest', -, hs, rfl⟩ := hs
        refine ⟨own ++ rest', .single ⟨own, rest', hdocs, hs, rfl⟩, List.Sublist.subperm ?_⟩
        rw [List.append_nil]
        exact (List.Sublist.refl own).append (List.sublist_append_right own' rest')
    · exact ⟨rest, hspecs, (List.sublist_append_right own rest).subperm⟩

theorem each_flatMap_specsOf {items : List (List String × TopLevel)} {cs : List Comment}
    (h : Each (WithDocs TopTakes) items cs) :
    ∃ ds, Each (WithDocs SpecTakes) (items.flatMap specsOf) ds ∧ ds <+~ cs := by
  induction h with
  | nil => exact ⟨[], .nil, .refl _⟩
  | cons hi _ ih =>
    obtain ⟨ds, hd, hds⟩ := each_specsOf hi
    obtain ⟨es, he, hes⟩ := ih
    exact ⟨_, hd.append he, hds.append hes⟩

end Go

namespace Declaration

open GoOpenApi.Go

def docs : Declaration → List String
  | .interface d => d.docs
  | .struct d => d.docs
  | .alias d => d.docs

/-- The docs inside a declaration. -/
def TakesInside : Declaration → List Comment → Prop
  | .interface d, cs => InterfaceTakes d.methods d.embedded cs
  | .struct d, cs => Field.TakeAll d.fields cs
  | .alias d, cs => d.target.Takes cs

/-- The docs of a declaration are those of its own comments; others are taken inside. -/
def Takes (d : Declaration) (cs : List Comment) : Prop :=
  ∃ own rest, d.docs = own.flatMap Comment.lines ∧ d.TakesInside rest ∧ cs = own ++ rest

theorem takes_declarationOf (path : String → String) {spec : List String × TypeSpec}
    {cs : List Comment} (h : WithDocs SpecTakes spec cs) : (declarationOf path spec).Takes cs := by
  obtain ⟨docs, name, body⟩ := spec
  obtain ⟨own, rest, hdocs, hrest, rfl⟩ := h
  cases body with
  | interface methods embedded =>
    obtain ⟨ds, es, hd, he, rfl⟩ := hrest
    exact ⟨own, _, hdocs, ⟨ds, es, hd.mapMethods path, he.map fun _ _ h ↦ h.mapPackages path, rfl⟩,
      rfl⟩
  | struct fields => exact ⟨own, rest, hdocs, Field.TakeAll.mapFields path hrest, rfl⟩
  | other type => exact ⟨own, rest, hdocs, GoType.Takes.mapPackages path hrest, rfl⟩

end Declaration

open GoOpenApi.Go in
/-- In a file the docs of all declarations and methods are taken from its comments, none of which
is taken twice, and none of which stands directly behind a member on its last row. Among siblings a
comment above a member is one of its docs exactly when no row is left out from there on down, and
the comment is not such a first one behind the member before. -/
theorem docs_taken_once {text : String} {tokens : List Token} {file : SourceFile}
    (ht : Token.ofText? text = some tokens) (h : SourceFile.parse? text = some file) :
    (∃ cs, Each Declaration.Takes file.declarations cs ∧ cs <+~ Token.supply none tokens) ∧
    ∀ {α : Type} (above below : List (Sibling α)) (first last row endRow : Nat) (value member : α)
      (run : List Comment), ∃ own others,
      documented (above ++ .node first last value ::
          (run.map .comment ++ .node row endRow member :: below)) =
        documented (above ++ [.node first last value]) ++
          (own.flatMap Comment.lines, member) :: others ∧
      own <:+ run ∧ ∀ before c after, run = before ++ c :: after →
        ((c :: after) <:+ own ↔ Adjoin (c :: after) row ∧ (before = [] → c.row ≠ last)) := by
  refine ⟨?_, documented_between⟩
  obtain ⟨items, hitems, rfl⟩ := Option.map_eq_some_iff.mp h
  obtain ⟨tokens', htokens, hitems⟩ := Option.bind_eq_some_iff.mp hitems
  obtain rfl := Option.some.inj (ht.symm.trans htokens)
  obtain ⟨⟨items, rest⟩, hfile, rfl⟩ := Option.map_eq_some_iff.mp hitems
  have hbehind : Behind none ([] : List (Sibling TopLevel)) tokens := nofun
  obtain ⟨used, cs, hused, hlaid, hcs⟩ :=
    (level (tokens.length + 1)).topLevelsWithin_lays tokens _ _ _ _ none [] hfile hbehind
  obtain ⟨ds, hds, hsub⟩ := hlaid.each
  have hsub : ds <+ cs := hsub
  obtain ⟨es, hes, hes'⟩ := each_flatMap_specsOf hds
  have hdeclared := hes.map (f := declarationOf (importPath (collect items).imports))
    fun _ _ hspec ↦ Declaration.takes_declarationOf _ hspec
  obtain ⟨fs, hfs, hperm⟩ := hdeclared.perm (declarations_collect items).symm
  have hsupply : Token.supply none used <+ Token.supply none tokens := by
    rw [hused, Token.supply_append]
    exact List.sublist_append_left _ _
  exact ⟨fs, hfs, hperm.subperm.trans (hes'.trans (hsub.subperm.trans
    (hcs.trans hsupply.subperm)))⟩

/-- An interface with comments behind the first of two methods. -/
def withTrailing (comments : String) : String :=
  "package service\n\n// Users are kept here.\ntype Users interface \x7b\n\tPing() error " ++
    comments ++ "\n\tPong() error\n\x7d\n"

theorem withTrailing_one : ∃ tokens file,
    Go.Token.ofText? (withTrailing "// @tg deprecated") = some tokens ∧
      SourceFile.parse? (withTrailing "// @tg deprecated") = some file ∧
      (Go.Token.supply none tokens).map (·.text) = ["// Users are kept here."] ∧
      ∃ cs, Go.Each Declaration.Takes file.declarations cs ∧
        cs <+~ Go.Token.supply none tokens := by
  have ht : (Go.Token.ofText? (withTrailing "// @tg deprecated")).map
      (fun tokens ↦ (Go.Token.supply none tokens).map (·.text)) =
      some ["// Users are kept here."] := by
    decide +kernel
  have hf : (SourceFile.parse? (withTrailing "// @tg deprecated")).isSome := by decide +kernel
  obtain ⟨tokens, htokens, hsupply⟩ := Option.map_eq_some_iff.mp ht
  obtain ⟨file, hfile⟩ := Option.isSome_iff_exists.mp hf
  exact ⟨tokens, file, htokens, hfile, hsupply, (docs_taken_once htokens hfile).1⟩

/-- The second of two comments behind a method, on the one row of it, becomes a directive of the
next method. -/
theorem withTrailing_two : ∃ tokens file t d m,
    Go.Token.ofText? (withTrailing "/* old */ // @tg deprecated") = some tokens ∧
      SourceFile.parse? (withTrailing "/* old */ // @tg deprecated") = some file ∧
      t ∈ tokens ∧ t.lexeme = .word "Pong" ∧
      t.comments.map (fun c ↦ (c.text, c.row)) =
        [("/* old */", t.lastRow), ("// @tg deprecated", t.lastRow)] ∧
      d ∈ file.interfaces ∧ m ∈ d.methods ∧ m.name = "Pong" ∧ m.docs = ["@tg deprecated"] ∧
      Dict.contains "deprecated" (Directives.parse m.docs) := by
  have ht : (Go.Token.ofText? (withTrailing "/* old */ // @tg deprecated")).map (fun tokens ↦
      tokens.any fun t ↦ t.lexeme == .word "Pong" && t.comments.map (fun c ↦ (c.text, c.row)) ==
        [("/* old */", t.lastRow), ("// @tg deprecated", t.lastRow)]) = some true := by
    decide +kernel
  have hf : (SourceFile.parse? (withTrailing "/* old */ // @tg deprecated")).map (fun file ↦
      file.interfaces.any fun d ↦ d.methods.any fun m ↦
        m.name == "Pong" && m.docs == ["@tg deprecated"]) = some true := by
    decide +kernel
  obtain ⟨tokens, htokens, ht⟩ := Option.map_eq_some_iff.mp ht
  obtain ⟨file, hfile, hf⟩ := Option.map_eq_some_iff.mp hf
  simp only [List.any_eq_true, Bool.and_eq_true, beq_iff_eq] at ht hf
  obtain ⟨t, hmem, hlexeme, hcomments⟩ := ht
  obtain ⟨d, hd, m, hm, hname, hdocs⟩ := hf
  refine ⟨tokens, file, t, d, m, htokens, hfile, hmem, hlexeme, hcomments, hd, hm, hname, hdocs, ?_⟩
  rw [hdocs]
  decide +kernel

end GoOpenApi
