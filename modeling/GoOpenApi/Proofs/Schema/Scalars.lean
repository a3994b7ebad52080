import GoOpenApi.Proofs.Resolve.Failure
import GoOpenApi.Proofs.Schema.Depth
import GoOpenApi.Proofs.Schema.Members

/-!
Types that stand for a primitive through a chain of names. Only the last name of a chain is made in
place; each name before it is a component that refers to the next.
-/

namespace GoOpenApi

variable {p : Project} {q q' : QualifiedName} {rest : List QualifiedName} {prim : Primitive}

theorem Schema.ofPrimitive_ne_referenceTo (prim : Primitive) (id : String) :
    ofPrimitive prim ≠ referenceTo id := by
  have hn : (ofPrimitive prim).reference = none := by cases prim <;> rfl
  intro h
  cases hn.symm.trans (congrArg Schema.reference h)

/-- The shape is made of other shapes, or it is an interface. -/
def Shape.isCompound : Shape → Bool
  | .primitive _ | .named _ | .unresolved _ => false
  | _ => true

/-- A type is a primitive, or it is a name, or it is made of other types. -/
theorem GoType.shape_cases : ∀ (type : GoType) (package : String),
    (∃ prim, type.names package = [] ∧ ∀ named, type.shape named package = .primitive prim) ∨
      (∃ q, type.names package = [q] ∧ ∀ named, type.shape named package = named q) ∨
      ∀ named, (type.shape named package).isCompound
  | .named name (some origin), package => by
    simp only [shape, names]
    cases Primitive.wellKnown? origin name with
    | some prim => exact .inl ⟨prim, rfl, fun _ ↦ rfl⟩
    | none => exact .inr (.inl ⟨_, rfl, fun _ ↦ rfl⟩)
  | .named name none, package => by
    simp only [shape, names]
    cases Primitive.ofName? name with
    | some prim => exact .inl ⟨prim, rfl, fun _ ↦ rfl⟩
    | none => exact .inr (.inl ⟨_, rfl, fun _ ↦ rfl⟩)
  | .imported origin next, _ => next.shape_cases origin
  | .slice next, package => by
    simp only [shape, names]
    cases next.isByte with
    | true => exact .inl ⟨.bytes, rfl, fun _ ↦ rfl⟩
    | false => exact .inr (.inr fun _ ↦ rfl)
  | .interface [], _ => .inl ⟨.any, rfl, fun _ ↦ rfl⟩
  | .interface (_ :: _), _ | .pointer _, _ | .ellipsis _, _ | .array _ _, _ | .map _ _, _
  | .struct _, _ => .inr (.inr fun _ ↦ rfl)

namespace Project

theorem named_cases (p : Project) (q : QualifiedName) :
    p.named q = .named q ∨ p.named q = .unresolved q := by
  unfold named
  split
  · exact .inl rfl
  · exact .inr rfl

theorem names_of_shape_primitive {type : GoType} {package : String}
    (h : type.shape p.named package = .primitive prim) : type.names package = [] := by
  obtain ⟨_, hn, -⟩ | ⟨q, -, hs⟩ | hc := type.shape_cases package
  · exact hn
  · rcases p.named_cases q with hq | hq <;> cases hq.symm.trans ((hs _).symm.trans h)
  · cases h ▸ hc p.named

theorem names_of_shape_named {type : GoType} {package : String}
    (h : type.shape p.named package = .named q) : type.names package = [q] := by
  obtain ⟨_, -, hs⟩ | ⟨q', hn, hs⟩ | hc := type.shape_cases package
  · cases (hs _).symm.trans h
  · rcases p.named_cases q' with hq | hq <;> cases hq.symm.trans ((hs _).symm.trans h)
    exact hn
  · cases h ▸ hc p.named

/-- What a named type that is neither a struct nor an interface is declared as. -/
def target? (p : Project) (q : QualifiedName) : Option Shape :=
  match p.declared? q with
  | some (some (.alias d)) => some (d.target.shape p.named q.package)
  | _ => none

theorem exists_of_target? {shape : Shape} (h : p.target? q = some shape) :
    ∃ d, p.declared? q = some (some (.alias d)) ∧ d.target.shape p.named q.package = shape := by
  unfold target? at h
  split at h
  · rename_i d hd
    exact ⟨d, hd, Option.some.inj h⟩
  · cases h

/-- The names from a declared type to the one that is declared as the primitive, each declared as
the next. -/
inductive Renames (p : Project) (prim : Primitive) : List QualifiedName → Prop where
  | last {q : QualifiedName} : p.target? q = some (.primitive prim) → Renames p prim [q]
  | link {q q' : QualifiedName} {rest : List QualifiedName} :
    p.target? q = some (.named q') → Renames p prim (q' :: rest) →
    Renames p prim (q :: q' :: rest)

/-- Computes the names from a declared type to a primitive, at most `n` of them. -/
def renamed? (p : Project) : Nat → QualifiedName → Option (List QualifiedName × Primitive)
  | 0, _ => none
  | n + 1, q => match p.target? q with
    | some (.primitive prim) => some ([q], prim)
    | some (.named q') => (p.renamed? n q').map fun (names, prim) ↦ (q :: names, prim)
    | _ => none

theorem renames_of_renamed? {n : Nat} {names : List QualifiedName}
    (h : p.renamed? n q = some (names, prim)) :
    p.Renames prim names ∧ names.head? = some q := by
  induction n generalizing q names with
  | zero => cases h
  | succ n ih =>
    unfold renamed? at h
    split at h
    · rename_i hq
      cases h
      exact ⟨.last hq, rfl⟩
    · rename_i q' hq
      obtain ⟨⟨names', prim'⟩, hn, he⟩ := Option.map_eq_some_iff.mp h
      cases he
      obtain ⟨hc, hhead⟩ := ih hn
      obtain ⟨rest, rfl⟩ := List.head?_eq_some_iff.mp hhead
      exact ⟨.link hq hc, rfl⟩
    · cases h

namespace Renames

theorem body?_last (h : p.Renames prim [q]) : p.body? q = some (.alias (.primitive prim)) := by
  cases h with
  | last hq =>
    obtain ⟨d, hd, hs⟩ := exists_of_target? hq
    rw [body?_of_declared hd, Declaration.body, hs]

theorem body?_link (h : p.Renames prim (q :: q' :: rest)) :
    p.body? q = some (.alias (.named q')) ∧ p.Renames prim (q' :: rest) := by
  cases h with
  | link hq h =>
    obtain ⟨d, hd, hs⟩ := exists_of_target? hq
    exact ⟨by rw [body?_of_declared hd, Declaration.body, hs], h⟩

theorem leads (h : p.Renames prim (q :: rest)) {q'' : QualifiedName} (hl : p.Leads q q'') :
    ∃ rest', rest = q'' :: rest' := by
  obtain ⟨d', hd', hn⟩ := hl
  cases h with
  | last hq =>
    obtain ⟨d, hd, hs⟩ := exists_of_target? hq
    cases hd.symm.trans hd'
    rw [Declaration.names, names_of_shape_primitive hs] at hn
    cases hn
  | link hq _ =>
    obtain ⟨d, hd, hs⟩ := exists_of_target? hq
    cases hd.symm.trans hd'
    rw [Declaration.names, names_of_shape_named hs, List.mem_singleton] at hn
    exact ⟨_, by rw [hn]⟩

theorem leads_next (h : p.Renames prim (q :: q' :: rest)) : p.Leads q q' := by
  cases h with
  | link hq _ =>
    obtain ⟨d, hd, hs⟩ := exists_of_target? hq
    refine ⟨_, hd, ?_⟩
    rw [Declaration.names, names_of_shape_named hs]
    exact List.mem_singleton_self q'

theorem body?_ne_none (h : p.Renames prim (q :: rest)) : p.body? q ≠ none := by
  cases rest with
  | nil => simp [h.body?_last]
  | cons q' rest => simp [h.body?_link.1]

/-- The names of a chain are found, and they lead nowhere else. -/
theorem not_faulty (h : p.Renames prim (q :: rest)) : ¬p.Faulty q := by
  induction rest generalizing q with
  | nil =>
    rintro ⟨q'', hr, hn⟩
    rcases Relation.ReflTransGen.cases_head hr with rfl | ⟨q', hl, -⟩
    · exact h.body?_ne_none (by simp [body?, hn])
    · obtain ⟨_, hrest⟩ := h.leads hl
      cases hrest
  | cons q' rest ih =>
    rintro ⟨q'', hr, hn⟩
    rcases Relation.ReflTransGen.cases_head hr with rfl | ⟨q₁, hl, hr⟩
    · exact h.body?_ne_none (by simp [body?, hn])
    · obtain ⟨_, hrest⟩ := h.leads hl
      cases hrest
      exact ih h.body?_link.2 ⟨q'', hr, hn⟩

end Renames

end Project

open Project

/-- Between calls all names of a chain have bodies once the first has one. -/
theorem Tables.Knows.find?_of_renames {t : Tables} {known : List QualifiedName}
    (hk : Knows p p.failing [] known t) (h : p.Renames prim (q :: rest)) (hm : t.Met p [] q) :
    ∀ q' ∈ q :: rest, t.definitions.find? q' = p.body? q' := by
  induction rest generalizing q with
  | nil =>
    obtain ⟨body, hb⟩ := find?_of_met hm h.body?_ne_none
    simp [hb, hk.faithful.definitions q body hb]
  | cons q' rest ih =>
    obtain ⟨body, hb⟩ := find?_of_met hm h.body?_ne_none
    have hm' : t.Met p [] q' :=
      (hk.closed q body q' hb h.leads_next).resolve_right fun hf ↦ h.body?_link.2.not_faulty hf.2
    refine List.forall_mem_cons.mpr ⟨?_, ih h.body?_link.2 hm'⟩
    rw [hb, hk.faithful.definitions q body hb]

namespace Registry

variable {d : Table QualifiedName Shape} {r r' : Registry} {foreign : Set QualifiedName}
  {s : Schema} {id : String}

/-- What the first name of a chain is made into, when `rest` comes after it. -/
def Begins (r : Registry) (prim : Primitive) (q : QualifiedName) : List QualifiedName → Schema → Prop
  | [], s => s = .ofPrimitive prim
  | _ :: _, s => ∃ id, s = .referenceTo id ∧ r.idOf? q = some id

theorem Begins.mono (h : r.Begins prim q rest s) (hr : r.KeepsIds r') : r'.Begins prim q rest s := by
  cases rest with
  | nil => exact h
  | cons q' rest => exact h.imp fun id hs ↦ hs.imp_right (hr q id)

/-- The components of chains: the last name of a chain has none, and each name with a component is
shown there as the next one. What the names in `foreign` have is not known. -/
structure Chains (p : Project) (foreign : Set QualifiedName) (r : Registry) : Prop where
  last {q : QualifiedName} {prim : Primitive} :
    p.Renames prim [q] → q ∉ foreign → r.idOf? q = none
  link {q q' : QualifiedName} {rest : List QualifiedName} {prim : Primitive} {id : String} :
    p.Renames prim (q :: q' :: rest) → q ∉ foreign → q' ∉ foreign → r.idOf? q = some id →
    ∃ s, Dict.find? id r.schemas = some s ∧ r.Begins prim q' rest s

/-- Each name but the last has a component of its own, which refers to the next. -/
def Refers (r : Registry) (prim : Primitive) : List QualifiedName → Schema → Prop
  | [], _ => False
  | [_], s => s = .ofPrimitive prim
  | q :: q' :: rest, s => ∃ id next, s = .referenceTo id ∧ r.idOf? q = some id ∧
    Dict.find? id r.schemas = some next ∧ r.Refers prim (q' :: rest) next

theorem Chains.empty (p : Project) (foreign : Set QualifiedName) :
    Registry.empty.Chains p foreign where
  last _ _ := rfl
  link _ _ _ hid := nomatch hid

theorem Chains.refers (h : r.Chains p foreign) (hc : p.Renames prim (q :: rest))
    (hf : ∀ q' ∈ q :: rest, q' ∉ foreign) (hs : r.Begins prim q rest s) :
    r.Refers prim (q :: rest) s := by
  induction rest generalizing q s with
  | nil => exact hs
  | cons q' rest ih =>
    obtain ⟨id, rfl, hid⟩ := hs
    rw [List.forall_mem_cons] at hf
    obtain ⟨next, hnext, hs'⟩ := h.link hc hf.1 (hf.2 q' List.mem_cons_self) hid
    exact ⟨id, next, rfl, hid, hnext, ih hc.body?_link.2 hf.2 hs'⟩

end Registry

section

variable {d : Table QualifiedName Shape} {r r' : Registry} {s : Schema}

theorem Walk.begins (h : Walk d (.named q) r s r') (hc : p.Renames prim (q :: rest))
    (hd : d.find? q = p.body? q) (hn : rest = [] → r.idOf? q = none) :
    r'.Begins prim q rest s := by
  cases rest with
  | nil =>
    rw [hc.body?_last] at hd
    cases h with
    | known hid => cases (hn rfl).symm.trans hid
    | undefined _ hb => cases hd.symm.trans hb
    | scalar _ hb => cases hd.symm.trans hb; rfl
    | namedInterface _ hb => cases hd.symm.trans hb
    | component _ hb hcomp _ => cases hd.symm.trans hb; cases hcomp
  | cons q' rest =>
    rw [hc.body?_link.1] at hd
    cases h with
    | known hid => exact ⟨_, rfl, hid⟩
    | undefined _ hb => cases hd.symm.trans hb
    | scalar _ hb => cases hd.symm.trans hb
    | namedInterface _ hb => cases hd.symm.trans hb
    | component hq _ _ h =>
      refine ⟨_, rfl, ?_⟩
      have hown := h.ids (Registry.idOf?_register_self r q)
      rwa [Registry.register_of_none hq] at hown

theorem Walk.registry_of_last (h : Walk d (.named q) r s r') (hc : p.Renames prim [q])
    (hd : d.find? q = p.body? q) : r' = r := by
  rw [hc.body?_last] at hd
  cases h with
  | component _ hb hcomp _ => cases hd.symm.trans hb; cases hcomp
  | _ => rfl

/-- A chain can be walked from every registry. -/
theorem Project.Renames.exists_walk (h : p.Renames prim (q :: rest))
    (hd : ∀ q' ∈ q :: rest, d.find? q' = p.body? q') (r : Registry) :
    ∃ s r', Walk d (.named q) r s r' := by
  induction rest generalizing q r with
  | nil =>
    have hb := (hd q List.mem_cons_self).trans h.body?_last
    cases hid : r.idOf? q with
    | some id => exact ⟨_, r, .known hid⟩
    | none => exact ⟨_, r, .scalar hid hb⟩
  | cons q' rest ih =>
    have hb := (hd q List.mem_cons_self).trans h.body?_link.1
    cases hid : r.idOf? q with
    | some id => exact ⟨_, r, .known hid⟩
    | none =>
      obtain ⟨s, r', hw⟩ := ih h.body?_link.2 (List.forall_mem_cons.mp hd).2 (r.register q).2.2
      exact ⟨_, _, .component hid hb rfl (.alias hw)⟩

end

namespace Generator

variable {g : Generator} {foreign : Set QualifiedName} {demand : Demand}

/-- A call keeps what is known of chains. -/
theorem chains_run (hk : g.tables.Knows p p.failing [] []) (hr : g.registry.Coherent)
    (h : g.registry.Chains p foreign) (ho : ∀ q, demand.owner? = some q → q ∈ foreign) :
    (demand.run p g).2.registry.Chains p foreign := by
  have hg : g.Consistent p := ⟨hk.faithful, hr⟩
  have hgrows := hg.grows demand
  have hk' : (demand.run p g).2.tables.Knows p p.failing [] [] :=
    demand.tables_run p g ▸ demand.query.run_knows hk
  obtain ⟨fault, hrun⟩ | ⟨s, r, hrun, -⟩ := demand.run_cases p g
  · rw [hrun]
    exact h
  · rw [hrun] at hgrows hk' ⊢
    have hnew {q : QualifiedName} {id : String} (hf : q ∉ foreign)
        (hn : g.registry.idOf? q = none) (hid : r.idOf? q = some id) :
        ∃ body next, p.body? q = some body ∧
          Component (demand.query.run p g.tables).2.definitions r q id body next := by
      obtain ⟨body, next, hcomp⟩ := hg.completes hrun (fun he ↦ hf (ho q he)) hn hid
      exact ⟨body, next, hk'.faithful.definitions q body hcomp.definition, hcomp⟩
    have hlast {q : QualifiedName} {prim : Primitive} (hc : p.Renames prim [q])
        (hf : q ∉ foreign) : r.idOf? q = none := by
      by_contra hid
      obtain ⟨id, hid⟩ := Option.ne_none_iff_exists'.mp hid
      obtain ⟨body, next, hb, hcomp⟩ := hnew hf (h.last hc hf) hid
      cases hc.body?_last.symm.trans hb
      cases hcomp.isComponent
    refine ⟨hlast, fun {q q' rest prim id} hc hf hf' hid ↦ ?_⟩
    cases hn : g.registry.idOf? q with
    | some id' =>
      obtain rfl : id' = id := Option.some.inj ((hgrows.ids hn).symm.trans hid)
      obtain ⟨next, hnext, hs⟩ := h.link hc hf hf' hn
      exact ⟨next, (hgrows.kept (fun he ↦ hf (ho q he)) hn).trans hnext,
        hs.mono fun _ _ ↦ hgrows.ids⟩
    | none =>
      obtain ⟨body, next, hb, hcomp⟩ := hnew hf hn hid
      obtain ⟨before, after, -, hw, hkeeps⟩ := hcomp.made
      have hd := hk'.find?_of_renames hc (.inr (.inl ⟨body, hcomp.definition⟩)) q'
        (List.mem_cons_of_mem q List.mem_cons_self)
      cases hc.body?_link.1.symm.trans hb
      cases hw with
      | «alias» hw =>
        refine ⟨next, hcomp.stored, (hw.begins hc.body?_link.2 hd fun hrest ↦ ?_).mono hkeeps⟩
        subst hrest
        exact (hw.keepsIds.trans hkeeps).none (hlast hc.body?_link.2 hf')

/-- What is known after calls whose containers have none but the `foreign` names. -/
structure Knows (p : Project) (foreign : Set QualifiedName) (g : Generator) : Prop where
  tables : g.tables.Knows p p.failing [] []
  registry : g.registry.Coherent
  chains : g.registry.Chains p foreign

theorem Knows.run (h : g.Knows p foreign) (ho : ∀ q, demand.owner? = some q → q ∈ foreign) :
    (demand.run p g).2.Knows p foreign where
  tables := demand.tables_run p g ▸ demand.query.run_knows h.tables
  registry := (Consistent.grows ⟨h.tables.faithful, h.registry⟩ demand).coherent
  chains := chains_run h.tables h.registry h.chains ho

theorem knows_after (p : Project) {demands : List Demand}
    (ho : ∀ demand ∈ demands, ∀ q, demand.owner? = some q → q ∈ foreign) :
    (Demand.after p demands).Knows p foreign :=
  List.foldlRecOn demands _ ⟨.empty p, Registry.coherent_empty, .empty p foreign⟩
    fun _ hg demand hm ↦ hg.run (ho demand hm)

/-- A type that stands for a primitive through a chain of names is answered, by a walk along the
chain. -/
theorem schema_walks (h : p.Renames prim (q :: rest)) {type : GoType} {package : String}
    (ht : type.shape p.named package = .named q) (hk : g.tables.Knows p p.failing [] []) :
    ∃ s t r, schema p type package g = (.ok s, ⟨t, r⟩) ∧
      Walk t.definitions (.named q) g.registry s r ∧ t.definitions.find? q = p.body? q := by
  -- the chain leads to no fault, so the type is resolved, and then the whole chain has bodies
  have hnames := names_of_shape_named ht
  obtain ⟨t, hr⟩ : ∃ t, Tables.resolve p type package g.tables =
      (.ok (type.shape p.named package), t) :=
    Tables.resolve_of_not_faulty (by simpa [hnames] using h.not_faulty) hk
  obtain ⟨hkt, -⟩ := (Tables.resolve_settles type package []).ok hk hr
  have hd := hkt.find?_of_renames h (hkt.met q (by simp [hnames]))
  obtain ⟨_, _, hends⟩ := h.exists_walk hd g.registry
  obtain ⟨s, g', hm⟩ := materialize_of_ends (g := { g with tables := t }) hends.ends
  obtain ⟨r, hw, rfl⟩ := materialize_ok hm
  refine ⟨s, t, r, ?_, hw, hd q List.mem_cons_self⟩
  rw [schema_eq, hr, ht]
  exact hm

/-- A type that is declared as a primitive through a chain of names has a schema after any calls,
failed ones included. Each name of the chain but the last becomes a component that refers to the
next; the schema of the primitive is given in place of the name, and no component is made, exactly
when the chain is a single name. -/
theorem schema_of_renames (h : p.Renames prim (q :: rest)) {type : GoType} {package : String}
    (ht : type.shape p.named package = .named q) {demands : List Demand}
    (ho : ∀ demand ∈ demands, ∀ q' ∈ q :: rest, demand.owner? ≠ some q') :
    ∃ s g, schema p type package (Demand.after p demands) = (.ok s, g) ∧
      g.registry.Refers prim (q :: rest) s ∧
      (s = .ofPrimitive prim ∧ g.registry = (Demand.after p demands).registry ↔ rest = []) := by
  have hk : (Demand.after p demands).Knows p {q' | ∃ demand ∈ demands, demand.owner? = some q'} :=
    knows_after p fun demand hd q' he ↦ ⟨demand, hd, he⟩
  have hf : ∀ q' ∈ q :: rest, q' ∉ {q' | ∃ demand ∈ demands, demand.owner? = some q'} :=
    fun q' hq hdemand ↦ hdemand.elim fun demand h ↦ ho demand h.1 q' hq h.2
  obtain ⟨s, t, r, hrun, hw, hd⟩ := schema_walks h ht hk.tables
  have hk' : ((Demand.type type package).run p (Demand.after p demands)).2.Knows p
      {q' | ∃ demand ∈ demands, demand.owner? = some q'} := hk.run (by simp [Demand.owner?])
  rw [Demand.run, hrun] at hk'
  have hs := hw.begins h hd fun hrest ↦ hk.chains.last (hrest ▸ h) (hf q List.mem_cons_self)
  refine ⟨s, ⟨t, r⟩, hrun, hk'.chains.refers h hf hs, ?_, ?_⟩
  · rintro ⟨rfl, -⟩
    cases rest with
    | nil => rfl
    | cons q' rest =>
      obtain ⟨id, he, -⟩ := hs
      exact absurd he (Schema.ofPrimitive_ne_referenceTo prim id)
  · rintro rfl
    exact ⟨hs, hw.registry_of_last h hd⟩

/-- A text that has three names in two packages. -/
def references : Project :=
  let models := "package models\n\nimport \"m/kinds\"\n\ntype ID kinds.Key\n\ntype Reference ID\n"
  let files := [(⟨"go.mod"⟩, .file (.text "module m\n")),
    (⟨"kinds/kinds.go"⟩, .file (.text "package kinds\n\ntype Key string\n")),
    (⟨"models/models.go"⟩, .file (.text models))]
  .of (.ofNodes ["tmp", "w"] files) (.ofGoMod {} ⟨"/tmp/w"⟩ (.parse "module m\n"))

/-- The name in the middle was met before the first, and the last is given in place after both. -/
theorem references_schemas :
    (∃ s g, schema references (.qualified "m/models" "Reference") "m"
        (Demand.after references [.type (.qualified "m/models" "ID") "m"]) = (.ok s, g) ∧
      g.registry.Refers .string
        [⟨"m/models", "Reference"⟩, ⟨"m/models", "ID"⟩, ⟨"m/kinds", "Key"⟩] s) ∧
    ∃ s g, schema references (.plain "Key") "m/kinds"
        (Demand.after references [.type (.qualified "m/models" "Reference") "m"]) = (.ok s, g) ∧
      s = .ofPrimitive .string := by
  have hn : references.renamed? 3 ⟨"m/models", "Reference"⟩ =
      some ([⟨"m/models", "Reference"⟩, ⟨"m/models", "ID"⟩, ⟨"m/kinds", "Key"⟩], .string) := by
    decide +kernel
  have hc := (renames_of_renamed? hn).1
  have hc' := hc.body?_link.2.body?_link.2
  have hw : Primitive.wellKnown? "m/models" "Reference" = none := by decide +kernel
  have hp : Primitive.ofName? "Key" = none := by decide +kernel
  have ht : (GoType.qualified "m/models" "Reference").shape references.named "m" =
      .named ⟨"m/models", "Reference"⟩ := by
    simp only [GoType.qualified, GoType.shape, hw]
    exact named_of_body? hc.body?_ne_none
  have ht' : (GoType.plain "Key").shape references.named "m/kinds" =
      .named ⟨"m/kinds", "Key"⟩ := by
    simp only [GoType.plain, GoType.shape, hp]
    exact named_of_body? hc'.body?_ne_none
  have ho (t : GoType) (names : List QualifiedName) :
      ∀ demand ∈ [Demand.type t "m"], ∀ q ∈ names, demand.owner? ≠ some q := by
    simp [Demand.owner?]
  obtain ⟨s, g, hs, href, -⟩ := schema_of_renames hc ht (ho (.qualified "m/models" "ID") _)
  obtain ⟨s', g', hs', -, hi⟩ :=
    schema_of_renames hc' ht' (ho (.qualified "m/models" "Reference") _)
  exact ⟨⟨s, g, hs, href⟩, s', g', hs', (hi.mpr rfl).1⟩

/-- A text that has two names. -/
def twoNames : Project :=
  let files := [(⟨"go.mod"⟩, .file (.text "module m\n")),
    (⟨"models/models.go"⟩, .file (.text "package models\n\ntype A string\n\ntype B A\n"))]
  .of (.ofNodes ["tmp", "w"] files) (.ofGoMod {} ⟨"/tmp/w"⟩ (.parse "module m\n"))

/-- The second name of the text becomes a component. -/
theorem twoNames_registered :
    twoNames.renamed? 2 ⟨"m/models", "B"⟩ =
        some ([⟨"m/models", "B"⟩, ⟨"m/models", "A"⟩], .string) ∧
      ∃ s g, schema twoNames (.qualified "m/models" "B") "m" .empty = (.ok s, g) ∧
        s ≠ .ofPrimitive .string ∧ g.registry.idOf? ⟨"m/models", "B"⟩ = some "B" := by
  refine ⟨by decide +kernel, ?_⟩
  have hrun : (schema twoNames (.qualified "m/models" "B") "m" .empty).1.toOption.map
      Schema.reference = some (some "#/components/schemas/B") := by
    decide +kernel
  have hid : (schema twoNames (.qualified "m/models" "B") "m" .empty).2.registry.idOf?
      ⟨"m/models", "B"⟩ = some "B" := by
    decide +kernel
  rcases h : schema twoNames (.qualified "m/models" "B") "m" .empty with ⟨_ | s, g⟩ <;>
    rw [h] at hrun hid
  · cases hrun
  · refine ⟨s, g, rfl, ?_, hid⟩
    rintro rfl
    cases hrun

end Generator

end GoOpenApi
