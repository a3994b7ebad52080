import GoOpenApi.Proofs.Resolve.Order
import GoOpenApi.Proofs.Schema.Order
import GoOpenApi.Proofs.Schema.Promotion

/-!
Members of declared structs in the files. A component has the properties of the fields that are
written in its struct and in the structs embedded there. A field that is not exported supplies a
property under the name in its tag, and only so.
-/

namespace GoOpenApi

variable {p : Project} {d : Table QualifiedName Shape} {q : QualifiedName}

namespace Field

variable {f : Field} {key : String}

theorem jsonName_of_isFlattened (h : f.isFlattened) : f.jsonName = none := by
  obtain ⟨he, ht⟩ := Bool.and_eq_true_iff.mp h
  simp [jsonName, Option.isNone_iff_eq_none.mp ht, he]

/-- A field that is not exported has a name in JSON if there is one in its tag. -/
theorem jsonName_of_unexported (he : f.embedded = false) (hx : isExported f.name = false) :
    f.jsonName = some key ↔ f.jsonTagName = some key ∧ key ≠ "-" := by
  unfold jsonName
  cases f.jsonTagName with
  | none => simp [he, hx]
  | some name => by_cases hn : name = "-" <;> grind

end Field

namespace Project

variable (p)

/-- A field of a struct as it is resolved, with the package in which it is written. -/
def shapeField (m : Field × String) : ShapeField :=
  ⟨m.1.name, m.1.jsonName, m.1.isFlattened, m.1.omitsEmpty, m.1.type.shape p.named m.2⟩

/-- The fields of a declared struct, each with its package. -/
def ownMembers (q : QualifiedName) : List (Field × String) :=
  (((p.declared? q).join.bind Declaration.struct?).map (·.fields)).getD [] |>.map (·, q.package)

/-- The fields of a declared struct and those of the structs that are promoted into it, in
depth-first order. -/
def members (d : Table QualifiedName Shape) (q : QualifiedName) : List (Field × String) :=
  let own := (p.ownMembers q).map p.shapeField
  (q :: (promotions d [] (own.filterMap ShapeField.promoted?)).map (·.1)).flatMap p.ownMembers

/-- The first member with a name in JSON. -/
def supplier? (d : Table QualifiedName Shape) (q : QualifiedName) (key : String) :
    Option (Field × String) :=
  (p.members d q).find? (·.1.jsonName == some key)

variable {p}

theorem ownKey?_shapeField (m : Field × String) : (p.shapeField m).ownKey? = m.1.jsonName := by
  unfold shapeField ShapeField.ownKey?
  split
  · exact (Field.jsonName_of_isFlattened ‹_›).symm
  · rfl

theorem shapes_eq_map (fields : List Field) (package : String) :
    Field.shapes p.named fields package = (fields.map (·, package)).map p.shapeField := by
  induction fields with
  | nil => rfl
  | cons f fields ih =>
    obtain ⟨name, type, tags, embedded⟩ := f
    rw [Field.shapes, ih]
    rfl

theorem record_of_body? {inner : List ShapeField} (h : p.body? q = some (.record inner)) :
    inner = (p.ownMembers q).map p.shapeField := by
  obtain ⟨decl, hd, hb⟩ := Option.map_eq_some_iff.mp h
  rw [ownMembers, hd]
  cases decl with
  | struct decl =>
    cases hb
    exact shapes_eq_map decl.fields q.package
  | interface decl | «alias» decl => cases hb

theorem body?_of_struct {decl : StructDecl} (hd : p.declared? q = some (some (.struct decl))) :
    p.body? q = some (.record ((p.ownMembers q).map p.shapeField)) := by
  rw [body?_of_declared hd, Declaration.body, shapes_eq_map, ownMembers, hd]
  rfl

theorem depthFirst_eq_members (hd : ∀ q body, d.find? q = some body → p.body? q = some body) :
    depthFirst d ((p.ownMembers q).map p.shapeField) = (p.members d q).map p.shapeField := by
  unfold depthFirst members
  rw [List.flatMap_cons, List.map_append, List.flatMap_map, List.map_flatMap]
  congr 1
  refine List.flatMap_congr fun e he ↦ ?_
  exact record_of_body? (hd _ _ (find?_of_mem_promotions he))

theorem mem_members {m : Field × String} (h : m ∈ p.members d q) :
    m ∈ p.ownMembers q ∨ ∃ e ∈ d, m ∈ p.ownMembers e.1 := by
  unfold members at h
  rw [List.flatMap_cons] at h
  refine (List.mem_append.mp h).imp_right fun h ↦ ?_
  obtain ⟨_, hq', hm⟩ := List.mem_flatMap.mp h
  obtain ⟨e, he, rfl⟩ := List.mem_map.mp hq'
  exact ⟨_, Table.mem_of_find? (find?_of_mem_promotions he), hm⟩

theorem firstField?_eq_supplier? (hd : ∀ q body, d.find? q = some body → p.body? q = some body)
    (key : String) :
    firstField? d ((p.ownMembers q).map p.shapeField) key =
      (p.supplier? d q key).map p.shapeField := by
  rw [firstField?, depthFirst_eq_members hd, List.find?_map, supplier?]
  simp only [Function.comp_def, ownKey?_shapeField]

end Project

theorem Walks.supplied_of_mem {supply : Supply} {r r' : Registry} {ss : List Schema} {s : Schema}
    {e : String × ShapeField} (hw : Walks d supply.types r ss r')
    (hs : List.Forall₂ s.Supplied supply.fields ss) (he : e ∈ supply.fields) :
    ∃ u r₁ r₂, s.Supplied e u ∧ Walk d e.2.type r₁ u r₂ := by
  obtain ⟨i, hi, rfl⟩ := List.mem_iff_getElem.mp he
  have hi' : i < ss.length := hs.length_eq ▸ hi
  have hz : (supply.fields[i].2.type, ss[i]) ∈ supply.types.zip ss := by
    refine List.mem_iff_getElem.mpr ⟨i, ?_, ?_⟩
    · simpa [Supply.types] using ⟨hi, hi'⟩
    · simp [Supply.types]
  obtain ⟨r₁, r₂, hwalk, -⟩ := hw.walk_of_mem_zip hz
  exact ⟨ss[i], r₁, r₂, hs.get hi hi', hwalk⟩

/-- The schema of a struct has the properties that its members supply. -/
theorem Walk.members (hd : ∀ q body, d.find? q = some body → p.body? q = some body)
    {r r' : Registry} {s : Schema}
    (h : Walk d (.record ((p.ownMembers q).map p.shapeField)) r s r') :
    (∀ key, key ∈ Dict.keys (s.properties.getD []) ↔ ∃ m, p.supplier? d q key = some m) ∧
      ∀ key m, p.supplier? d q key = some m → ∃ u r₁ r₂,
        s.Supplied (key, p.shapeField m) u ∧ Walk d (m.1.type.shape p.named m.2) r₁ u r₂ := by
  obtain ⟨ss, hw, hs, hk⟩ := h.supplied
  have hfirst := Project.firstField?_eq_supplier? (q := q) hd
  refine ⟨fun key ↦ ?_, fun key m hm ↦ ?_⟩
  · rw [hk, mem_keys_suppliedFields_iff, hfirst]
    simp only [Option.map_eq_some_iff, exists_comm, exists_and_left, exists_eq', and_true]
  · have hmem : (key, p.shapeField m) ∈
        (suppliedFields d ((p.ownMembers q).map p.shapeField)).fields := by
      rw [mem_suppliedFields_iff, hfirst, hm, Option.map_some]
    exact hw.supplied_of_mem hs hmem

theorem Tables.Settles.faithful {α : Type} {names : List QualifiedName} {value : α}
    {a : Action Tables α} {t : Tables} (h : Settles p Set.univ [] names value a)
    (ht : t.Faithful p) : (a t).2.Faithful p := by
  have hk : Knows p Set.univ [] [] t := ⟨ht, fun _ _ _ _ _ ↦ .inr trivial, nofun⟩
  have hs := h [] t hk
  rcases hr : a t with ⟨fault | x, t'⟩ <;> rw [hr] at hs
  · exact (hs.knows (Set.subset_univ _)).faithful
  · exact hs.1.faithful

namespace Generator

/-- A call for the schema of a type or for a container. -/
inductive Demand where
  | type (type : GoType) (package : String)
  | container (name package : String) (fields : List Field)

namespace Demand

def run (p : Project) : Demand → Action Generator Schema
  | type t package => schema p t package
  | container name package fields => Generator.container p name package fields

/-- The name under which a container is registered. -/
def owner? : Demand → Option QualifiedName
  | type _ _ => none
  | container name package _ => some ⟨package ++ containerMark, name⟩

/-- The state of an empty generator after calls, those that failed included. -/
def after (p : Project) (demands : List Demand) : Generator :=
  demands.foldl (fun g demand ↦ (demand.run p g).2) .empty

/-- The call of the resolver with which a call begins. -/
def query : Demand → Tables.Query
  | type t package => .type t package
  | container _ package fields => .fields fields package

/-- What a call with an answer did to the registry. -/
def Makes (d : Table QualifiedName Shape) (r : Registry) (s : Schema) (r' : Registry) :
    Demand → Prop
  | type _ _ => ∃ shape, Walk d shape r s r'
  | container name package _ => ∃ fields, Contains d ⟨package ++ containerMark, name⟩ fields r s r'

/-- A call resolves first. It changes the registry only if it has an answer. -/
theorem run_cases (p : Project) (demand : Demand) (g : Generator) :
    (∃ fault, demand.run p g =
      (.error fault, ⟨(demand.query.run p g.tables).2, g.registry⟩)) ∨
    ∃ s r, demand.run p g = (.ok s, ⟨(demand.query.run p g.tables).2, r⟩) ∧
      demand.Makes (demand.query.run p g.tables).2.definitions g.registry s r := by
  cases demand with
  | type t package =>
    rw [run, schema_eq, query, Tables.Query.run, Action.run_bind]
    rcases Tables.resolve p t package g.tables with ⟨fault | shape, tables⟩
    · exact .inl ⟨fault, rfl⟩
    · rcases hm : materialize shape { g with tables := tables } with ⟨fault | s, g'⟩
      · obtain rfl := build_error hm
        exact .inl ⟨fault, hm⟩
      · obtain ⟨r, hw, rfl⟩ := materialize_ok hm
        exact .inr ⟨s, r, hm, shape, hw⟩
  | container name package fields =>
    rw [run, container_eq, query, Tables.Query.run, Action.run_bind]
    rcases Tables.resolveFields p fields package g.tables with ⟨fault | shapes, tables⟩
    · exact .inl ⟨fault, rfl⟩
    · rcases hm : build (ShapeField.recordsIn shapes + 1)
        (fun e ↦ componentOf ⟨package ++ containerMark, name⟩ (e.recordSchema shapes))
        { g with tables := tables } with ⟨fault | s, g'⟩
      · obtain rfl := build_error hm
        exact .inl ⟨fault, hm⟩
      · obtain ⟨r, hc, rfl⟩ := build_ok hm
        exact .inr ⟨s, r, hm, shapes, componentOf_ok hc⟩

theorem tables_run (p : Project) (demand : Demand) (g : Generator) :
    (demand.run p g).2.tables = (demand.query.run p g.tables).2 := by
  obtain ⟨fault, h⟩ | ⟨s, r, h, -⟩ := demand.run_cases p g <;> rw [h]

theorem Makes.grows {demand : Demand} {r r' : Registry} {s : Schema}
    (h : demand.Makes d r s r') (hr : r.Coherent) :
    r.Grows {q | demand.owner? = some q} r' := by
  cases demand with
  | type t package =>
    obtain ⟨shape, hw⟩ := h
    exact (hw.grows hr).mono (Set.empty_subset _)
  | container name package fields =>
    obtain ⟨shapes, hc⟩ := h
    exact (hc.grows hr).mono fun q hq ↦ congrArg some (Set.mem_singleton_iff.mp hq).symm

end Demand

/-- The tables say what the files say, and ids and types belong to each other. -/
structure Consistent (p : Project) (g : Generator) : Prop where
  tables : g.tables.Faithful p
  registry : g.registry.Coherent

variable {g g' : Generator} {s : Schema}

theorem Consistent.grows (h : g.Consistent p) (demand : Demand) :
    g.registry.Grows {q | demand.owner? = some q} (demand.run p g).2.registry := by
  obtain ⟨fault, hr⟩ | ⟨s, r, hr, hm⟩ := demand.run_cases p g <;> rw [hr]
  · exact .refl h.registry
  · exact hm.grows h.registry

theorem Consistent.run (h : g.Consistent p) (demand : Demand) :
    (demand.run p g).2.Consistent p where
  tables := demand.tables_run p g ▸ (demand.query.run_settles p).faithful h.tables
  registry := (h.grows demand).coherent

theorem consistent_after (p : Project) (demands : List Demand) :
    (Demand.after p demands).Consistent p :=
  List.foldlRecOn demands _ ⟨.empty p, Registry.coherent_empty⟩ fun _ hg demand _ ↦ hg.run demand

/-- Every declared type that is given an id by a call has a component made from its body. -/
theorem Consistent.completes {demand : Demand} (hg : g.Consistent p)
    (h : demand.run p g = (.ok s, g')) {id : String} (hq : demand.owner? ≠ some q)
    (hn : g.registry.idOf? q = none) (hid : g'.registry.idOf? q = some id) :
    ∃ body s, Component g'.tables.definitions g'.registry q id body s := by
  obtain ⟨fault, hr⟩ | ⟨s', r, hr, hm⟩ := demand.run_cases p g <;> cases h.symm.trans hr
  cases demand with
  | type t package =>
    obtain ⟨shape, hw⟩ := hm
    exact hw.completes hg.registry q id hn hid
  | container name package fields =>
    obtain ⟨shapes, hc⟩ := hm
    have hne : q ≠ ⟨package ++ containerMark, name⟩ := fun he ↦ hq (congrArg some he.symm)
    have hown := hc.idOf? hg.registry
    have hcoherent := (hc.grows hg.registry).coherent
    obtain ⟨-, body, r₁, hw, rfl⟩ := hc
    obtain ⟨body', s', hc'⟩ := hw.completes (hg.registry.register _) q id
      (by rwa [Registry.idOf?_register_of_ne hne]) hid
    -- the container has an id of its own, so its schema does not replace that of the component
    refine ⟨body', s', hc'.mono (fun _ _ h ↦ h) ?_⟩
    have hids : id ≠ (g.registry.register ⟨package ++ containerMark, name⟩).1 := by
      rintro rfl
      exact hne (hcoherent.inj hid hown)
    rw [Registry.schemas_setSchema, Dict.find?_insert, if_neg hids]

/-- The component of a declared struct has a property for every name of a member in JSON, made from
the first member of the name, whatever was called before. None of them is supplied by a field that
is neither embedded nor exported, exactly when no such field with a name in its tag is the first
member of that name. -/
theorem component_members {demands : List Demand} {demand : Demand}
    (h : demand.run p (Demand.after p demands) = (.ok s, g')) {decl : StructDecl} {id : String}
    (hd : p.declared? q = some (some (.struct decl))) (hq : demand.owner? ≠ some q)
    (hn : (Demand.after p demands).registry.idOf? q = none)
    (hid : g'.registry.idOf? q = some id) :
    ∃ c, Dict.find? id g'.registry.schemas = some c ∧
      (∀ key, key ∈ Dict.keys (c.properties.getD []) ↔
        ∃ m, p.supplier? g'.tables.definitions q key = some m) ∧
      (∀ key m, p.supplier? g'.tables.definitions q key = some m → ∃ u r₁ r₂,
        c.Supplied (key, p.shapeField m) u ∧
          Walk g'.tables.definitions (m.1.type.shape p.named m.2) r₁ u r₂) ∧
      ((∀ key m, p.supplier? g'.tables.definitions q key = some m → m.1.embedded = false →
          isExported m.1.name = true) ↔
        ∀ key m, m.1.embedded = false → isExported m.1.name = false →
          m.1.jsonTagName = some key → key ≠ "-" →
          p.supplier? g'.tables.definitions q key ≠ some m) := by
  have hg := consistent_after p demands
  have hbodies : g'.tables.Faithful p := by
    have hrun := (hg.run demand).tables
    rwa [h] at hrun
  obtain ⟨body, c, hc⟩ := hg.completes h hq hn hid
  have hbody := hbodies.definitions q body hc.definition
  rw [Project.body?_of_struct hd] at hbody
  obtain ⟨before, after, -, hw, -⟩ := hc.made
  rw [← Option.some.inj hbody] at hw
  obtain ⟨hkeys, hsupplied⟩ := hw.members hbodies.definitions
  refine ⟨c, hc.stored, hkeys, hsupplied, fun hall key m he hx htag hkey hm ↦ ?_,
    fun hall key m hm he ↦ ?_⟩
  · rw [hall key m hm he] at hx
    cases hx
  · by_contra hx
    rw [Bool.not_eq_true] at hx
    have hj : m.1.jsonName = some key := by simpa using List.find?_some hm
    obtain ⟨htag, hkey⟩ := (Field.jsonName_of_unexported he hx).mp hj
    exact hall key m he hx htag hkey hm

/-- A struct that embeds another. Both have a field that is not exported. -/
def users : Project :=
  let source := "package models\n\n" ++
    "type Base struct \x7b\n\tID string `json:\"id\"`\n\tcache int\n\x7d\n\n" ++
    "type User struct \x7b\n\t*Base\n\tName string\n\ttoken string\n\x7d\n"
  let files :=
    [(⟨"go.mod"⟩, .file (.text "module m\n")), (⟨"models/models.go"⟩, .file (.text source))]
  .of (.ofNodes ["tmp", "w"] files) (.ofGoMod {} ⟨"/tmp/w"⟩ (.parse "module m\n"))

/-- A container with a user. -/
def getResponse : Demand :=
  .container "GetResponse" "m/service"
    [⟨"user", .qualified "m/models" "User", [("json", ["user"])], false⟩]

theorem users_hide_unexported :
    ∃ s g c, getResponse.run users .empty = (.ok s, g) ∧
      Dict.find? "User" g.registry.schemas = some c ∧
      ∀ key m, users.supplier? g.tables.definitions ⟨"m/models", "User"⟩ key = some m →
        m.1.embedded = false → isExported m.1.name = true := by
  have hrun : (getResponse.run users .empty).1.isOk ∧
      (getResponse.run users .empty).2.registry.idOf? ⟨"m/models", "User"⟩ = some "User" ∧
      (getResponse.run users .empty).2.tables.definitions.map (·.1) =
        [⟨"m/models", "User"⟩, ⟨"m/models", "Base"⟩] := by
    decide +kernel
  have hstruct : ((users.declared? ⟨"m/models", "User"⟩).join.bind Declaration.struct?).isSome := by
    decide +kernel
  have htags : ∀ q ∈ [⟨"m/models", "User"⟩, ⟨"m/models", "Base"⟩], ∀ m ∈ users.ownMembers q,
      isExported m.1.name = false → m.1.jsonTagName = none := by
    decide +kernel
  rcases h : getResponse.run users .empty with ⟨_ | s, g⟩ <;> rw [h] at hrun
  · cases hrun.1
  · obtain ⟨-, hid, hnames⟩ := hrun
    obtain ⟨decl, hdecl⟩ := Option.isSome_iff_exists.mp hstruct
    obtain ⟨_, hd, hs⟩ := Option.bind_eq_some_iff.mp hdecl
    rw [Declaration.struct?_eq_some.mp hs] at hd
    have h' : getResponse.run users (Demand.after users []) = (.ok s, g) := h
    obtain ⟨c, hc, -, -, hall⟩ := component_members h'
      (Option.join_eq_some_iff.mp hd) (by decide) rfl hid
    refine ⟨s, g, c, rfl, hc, hall.mpr fun key m he hx htag hkey hm ↦ ?_⟩
    have hq : ∃ q ∈ [⟨"m/models", "User"⟩, ⟨"m/models", "Base"⟩], m ∈ users.ownMembers q := by
      rcases Project.mem_members (List.mem_of_find?_eq_some hm) with hm | ⟨e, he, hm⟩
      · exact ⟨_, List.mem_cons_self, hm⟩
      · exact ⟨e.1, hnames ▸ List.mem_map_of_mem he, hm⟩
    obtain ⟨q, hq, hm⟩ := hq
    rw [htags q hq m hm hx] at htag
    cases htag

/-- A struct with a field that is not exported and has a name in its tag. -/
def taggedSecret : Project :=
  let source := "package models\n\ntype T struct \x7b\n\tsecret string `json:\"secret\"`\n\x7d\n"
  let files :=
    [(⟨"go.mod"⟩, .file (.text "module m\n")), (⟨"models/models.go"⟩, .file (.text source))]
  .of (.ofNodes ["tmp", "w"] files) (.ofGoMod {} ⟨"/tmp/w"⟩ (.parse "module m\n"))

/-- The field supplies a property, though it is not exported. -/
theorem secret_documented :
    ∃ s g c m, (Demand.type (.qualified "m/models" "T") "m").run taggedSecret .empty = (.ok s, g) ∧
      Dict.find? "T" g.registry.schemas = some c ∧
      "secret" ∈ Dict.keys (c.properties.getD []) ∧
      taggedSecret.supplier? g.tables.definitions ⟨"m/models", "T"⟩ "secret" = some m ∧
      m.1.embedded = false ∧ isExported m.1.name = false := by
  have hrun : (((Demand.type (.qualified "m/models" "T") "m").run taggedSecret .empty).1.isOk) ∧
      (Dict.find? "T" ((Demand.type (.qualified "m/models" "T") "m").run taggedSecret
        .empty).2.registry.schemas).map (fun c ↦ Dict.keys (c.properties.getD [])) =
          some ["secret"] := by
    decide +kernel
  have hown : (taggedSecret.ownMembers ⟨"m/models", "T"⟩).map
      (fun m ↦ (m.1.jsonName, m.1.embedded, m.1.isFlattened, isExported m.1.name)) =
        [(some "secret", false, false, false)] := by
    decide +kernel
  rcases h : (Demand.type (.qualified "m/models" "T") "m").run taggedSecret .empty with
    ⟨_ | s, g⟩ <;> rw [h] at hrun
  · cases hrun.1
  · obtain ⟨c, hc, hkeys⟩ := Option.map_eq_some_iff.mp hrun.2
    obtain ⟨m, hm, hfield⟩ := List.map_eq_singleton_iff.mp hown
    simp only [Prod.mk.injEq] at hfield
    obtain ⟨hj, he, hf, hx⟩ := hfield
    refine ⟨s, g, c, m, rfl, hc, by simp [hkeys], ?_, he, hx⟩
    -- nothing is embedded, so the field is the only member
    have hp : (taggedSecret.shapeField m).promoted? = none := by
      simp [Project.shapeField, ShapeField.promoted?, hf]
    simp [Project.supplier?, Project.members, hm, hp, promotions, hj]

end Generator

end GoOpenApi
