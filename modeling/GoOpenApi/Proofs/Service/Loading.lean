import GoOpenApi.Proofs.Go.Signature
import GoOpenApi.Proofs.Resolve.Determinism
import GoOpenApi.Proofs.Service.Related

/-!
What loaded services have: the package of their directory, names of containers made of those of
the service and the method, and arguments and results that appear in JSON under their own names.
-/

namespace GoOpenApi

open GoOpenApi.Go (AllOwn AllParameters IsParameter Plain)

section

variable {t : FileTree} {dir : Path} {d : InterfaceDecl} {file : SourceFile}

theorem FileTree.plain_of_mem (h : .interface d ∈ t.declarations) : ∀ m ∈ d.methods, Plain m := by
  obtain ⟨⟨place, content⟩, -, h⟩ := List.mem_flatMap.mp h
  cases content with
  | binary bytes => cases h
  | text s =>
    obtain ⟨file, hf, h⟩ := List.mem_flatMap.mp h
    refine Go.plain_of_parse? (Option.mem_toList.mp hf) d ?_
    simpa [SourceFile.declarations] using h

theorem SourceFile.mem_declarations (h : d ∈ file.interfaces) :
    .interface d ∈ file.declarations := by
  simp [declarations, h]

end

namespace Tables

variable {p : Project} {α β : Type} {P : α → Prop} {Q : β → Prop}

/-- From tables that agree with the files an action leaves such tables and an answer in `P`,
unless there is a fault. No type is defined by it. -/
def Gives (p : Project) (P : α → Prop) (a : Action Tables α) : Prop :=
  ∀ definitions, Action.Triple (fun t ↦ t.Faithful p ∧ t.definitions = definitions) a
    (fun x t ↦ (t.Faithful p ∧ t.definitions = definitions) ∧ P x) fun _ _ ↦ True

namespace Gives

theorem pure {x : α} (h : P x) : Gives p P (pure x) :=
  fun _ ↦ Action.Triple.pure fun _ ht ↦ ⟨ht, h⟩

theorem throw (fault : Fault) : Gives p P (throw fault) :=
  fun _ ↦ Action.Triple.throw fun _ _ ↦ trivial

theorem imp {P' : α → Prop} {a : Action Tables α} (ha : Gives p P a) (h : ∀ x, P x → P' x) :
    Gives p P' a := fun definitions ↦
  (ha definitions).mono (fun _ ht ↦ ht) (fun x _ hx ↦ hx.imp_right (h x)) fun _ _ hf ↦ hf

theorem bind {a : Action Tables α} {f : α → Action Tables β} (ha : Gives p P a)
    (hf : ∀ x, P x → Gives p Q (f x)) : Gives p Q (a >>= f) := fun definitions ↦
  Action.Triple.bind (ha definitions) fun x ↦ .assume fun hx ↦ hf x hx definitions

theorem get {f : Tables → Action Tables α} (h : ∀ t, Gives p P (f t)) :
    Gives p P (MonadState.get >>= f) := fun definitions ↦
  Action.Triple.get fun t ht ↦
    (h t definitions).mono (fun _ hs ↦ hs ▸ ht) (fun _ _ hx ↦ hx) fun _ _ hx ↦ hx

theorem onSources {a : Action Sources α}
    (h : Action.Triple (Sources.Faithful p.files) a (fun x s ↦ s.Faithful p.files ∧ P x)
      fun _ s ↦ s.Faithful p.files) : Gives p P (onSources a) := fun _ ↦
  Action.Triple.focus fun _ ht ↦ h.mono (fun _ hs ↦ hs ▸ ht.1.sources)
    (fun _ _ hx ↦ ⟨⟨⟨hx.1, ht.1.declarations, ht.1.definitions⟩, ht.2⟩, hx.2⟩) fun _ _ _ ↦ trivial

theorem declaration (q : QualifiedName) :
    Gives p (fun found ↦ p.declared? q = some found) (declaration p q) := by
  intro definitions t ht
  have h := declaration_spec p q definitions t ht
  split at h
  · exact h
  · trivial

section

variable {a : Action Tables α} {x : α} {t t' : Tables} (h : Gives p P a) (ht : t.Faithful p)
  (hr : a t = (.ok x, t'))

include h ht hr

theorem ok : t'.Faithful p ∧ P x :=
  (Action.Triple.ok (h t.definitions) ⟨ht, rfl⟩ hr).imp_left And.left

theorem definitions_eq : t'.definitions = t.definitions :=
  (Action.Triple.ok (h t.definitions) ⟨ht, rfl⟩ hr).1.2

end

end Gives

/-- What an action gives, as a relation in which the second action does not matter. -/
def giving (p : Project) : Action.Relation Tables Tables where
  Holds P a _ := Gives p P a
  pure := .pure
  bind := .bind

theorem followWithin_gives (n : Nat) (entered : List QualifiedName) (type : GoType)
    (package : String) (path : List String) :
    Gives p (fun _ ↦ True) (followWithin p n entered type package path) := by
  induction n generalizing entered type package path with
  | zero => exact .throw _
  | succ n ih =>
    have h (enter : QualifiedName → Nested → List String → Action Tables Nested)
        (he : ∀ q here path, Gives p (fun _ ↦ True) (enter q here path)) :
        (giving p).Relates (follow enter type package path) (follow enter type package path) :=
      follow_relates type package path fun q here path _ ↦ he q here path
    refine h _ fun q here path ↦ ?_
    split
    · exact .pure trivial
    · refine (Gives.declaration q).bind fun found _ ↦ ?_
      cases found with
      | none => exact .pure trivial
      | some d => exact ih _ _ _ _

theorem nestedType_gives (type : GoType) (package : String) (path : List String) :
    Gives p (fun _ ↦ True) (nestedType p type package path) :=
  .get fun _ ↦ followWithin_gives _ _ _ _ _

end Tables

theorem Go.AllParameters.qualifyAll (package : String) {fields : List Field}
    (h : AllParameters fields) : AllParameters (Field.qualifyAll package fields) := by
  induction fields with
  | nil => exact nofun
  | cons f fields ih =>
    obtain ⟨name, type, tags, embedded⟩ := f
    obtain ⟨hf, h⟩ := List.forall_mem_cons.mp h
    exact List.forall_mem_cons.mpr ⟨⟨hf.embedded, hf.tags, hf.name⟩, ih h⟩

theorem Go.Plain.qualify (package : String) {m : Method} (h : Plain m) :
    Plain (m.qualify package) :=
  ⟨h.name, AllParameters.qualifyAll package h.args, AllParameters.qualifyAll package h.results⟩

/-- A field that appears in JSON under its own name, which is an identifier. -/
structure Field.KeepsName (f : Field) : Prop where
  embedded : f.embedded = false
  name : Go.IsIdentifier f.name
  jsonName : f.jsonName = some f.name

theorem Go.IsParameter.tagged {f : Field} (h : IsParameter f) : f.tagged.KeepsName := by
  have ht : f.tagged = { f with tags := [("json", [f.name])] } := by
    simp [Field.tagged, h.tags, Dict.contains, Dict.insert]
  have hj : Field.jsonTagName { f with tags := [("json", [f.name])] } = some f.name := by
    have hn : f.name.isEmpty = false := by simpa using h.name.ne_empty
    simp [Field.jsonTagName, Field.jsonTag, Dict.find?_cons, Option.filter, hn]
  rw [ht]
  refine ⟨h.embedded, h.name, ?_⟩
  rw [Field.jsonName, hj]
  exact if_neg h.name.ne_hyphen

namespace Gathered

def AllPlain (g : Gathered) : Prop := ∀ m ∈ g.methods, Plain m

theorem AllPlain.add {g : Gathered} (h : g.AllPlain) {m : Method} (hm : Plain m) :
    (g.add m).AllPlain := by
  unfold Gathered.add
  split
  · exact h
  · exact List.forall_mem_append.mpr ⟨h, List.forall_mem_singleton.mpr hm⟩

theorem AllPlain.addAll {g : Gathered} (h : g.AllPlain) (package home : String)
    {methods : List Method} (hm : ∀ m ∈ methods, Plain m) :
    (g.addAll package home methods).AllPlain := by
  unfold Gathered.addAll
  induction methods generalizing g with
  | nil => exact h
  | cons m methods ih =>
    obtain ⟨hm, hms⟩ := List.forall_mem_cons.mp hm
    refine ih (h.add ?_) hms
    split
    · exact hm
    · exact hm.qualify package

end Gathered

namespace Tables

variable {p : Project}

theorem plain_of_declared {q : QualifiedName} {d : InterfaceDecl}
    (h : p.declared? q = some (some (.interface d))) : ∀ m ∈ d.methods, Plain m :=
  FileTree.plain_of_mem (Project.mem_of_declared h).1

theorem gatherWithin_gives (home : String) (n : Nat) (d : InterfaceDecl) (package : String)
    (g : Gathered) (hd : ∀ m ∈ d.methods, Plain m) (hg : g.AllPlain) :
    Gives p Gathered.AllPlain (gatherWithin p home n d package g) := by
  induction n generalizing d package g with
  | zero => exact .throw _
  | succ n ih =>
    have hmet (q : QualifiedName) (g : Gathered) (hg : g.AllPlain) :
        Gathered.AllPlain { g with met := q :: g.met } := hg
    have h : (giving p).Holds Gathered.AllPlain (gatherWithin p home (n + 1) d package g)
        (gatherWithin p home (n + 1) d package g) :=
      gatherEmbedded_relates hmet Gives.declaration
        (fun q d g _ hd _ hg ↦ ih d q.package _ (plain_of_declared hd) (hmet q g hg))
        (hg.addAll package home hd)
    exact h

theorem methodsOf_gives (d : InterfaceDecl) (package : String) (hd : ∀ m ∈ d.methods, Plain m) :
    Gives p (fun methods ↦ ∀ m ∈ methods, Plain m) (methodsOf p d package) := by
  have hg : Gathered.AllPlain ⟨[⟨package, d.name⟩], []⟩ := fun _ h ↦ absurd h List.not_mem_nil
  exact .get fun _ ↦ (gatherWithin_gives package _ d package _ hd hg).bind fun _ hg ↦ .pure hg

end Tables

section

variable {α β γ : Type} {R : α → β → Prop} {as : List α} {bs : List β}

theorem exists_of_mem_left (h : List.Forall₂ R as bs) {a : α} (ha : a ∈ as) : ∃ b ∈ bs, R a b := by
  induction h with
  | nil => cases ha
  | cons hr _ ih =>
    rcases List.mem_cons.mp ha with rfl | ha
    · exact ⟨_, List.mem_cons_self, hr⟩
    · obtain ⟨b, hb, hr⟩ := ih ha
      exact ⟨b, List.mem_cons_of_mem _ hb, hr⟩

theorem exists_of_mem_right (h : List.Forall₂ R as bs) {b : β} (hb : b ∈ bs) :
    ∃ a ∈ as, R a b := exists_of_mem_left h.flip hb

theorem map_eq_map_of_forall₂ {f : α → γ} {g : β → γ} (h : List.Forall₂ R as bs)
    (hr : ∀ a b, R a b → f a = g b) : as.map f = bs.map g := by
  induction h with
  | nil => rfl
  | cons hab _ ih => rw [List.map_cons, List.map_cons, hr _ _ hab, ih]

end

namespace Endpoint

variable {p : Project}

/-- What a directive or the path names is bound as a result. -/
structure BindsResult (m : Endpoint) (spec : BindingSpec) (b : Binding) : Prop where
  location : b.location = spec.location
  key : b.key = spec.key
  arg : ∃ f, m.target? ((Text.split '.' spec.target).headD "") = some (f, true) ∧ b.arg = f.name
  path : b.path = (Text.split '.' spec.target).drop 1

/-- The endpoint was made of a method of a service. -/
structure IsOf (service : String) (m : Endpoint) : Prop where
  requestName : m.requestName = service ++ m.name ++ "Request"
  responseName : m.responseName = service ++ m.name ++ "Response"
  args : ∀ f ∈ m.args, f.KeepsName
  results : ∀ f ∈ m.results, f.KeepsName
  resultBindings : ∀ b ∈ m.resultBindings, ∃ spec ∈ m.bindingSpecs, m.BindsResult spec b

variable {service : String} {m : Endpoint}

theorem IsOf.requestFields (h : m.IsOf service) : ∀ f ∈ m.requestFields, f.KeepsName := by
  intro f hf
  unfold Endpoint.requestFields at hf
  split at hf
  · exact h.args f (List.mem_of_mem_drop hf)
  · exact h.args f hf

theorem IsOf.responseFields (h : m.IsOf service) : ∀ f ∈ m.responseFields, f.KeepsName := by
  intro f hf
  unfold Endpoint.responseFields at hf
  split at hf
  · exact h.results f ((List.dropLast_sublist _).subset hf)
  · exact h.results f hf

theorem IsOf.bodyFields (h : m.IsOf service) : AllOwn m.bodyFields :=
  fun f hf ↦ (h.requestFields f (List.mem_filter.mp hf).1).embedded

theorem IsOf.responseBodyFields (h : m.IsOf service) : AllOwn m.responseBodyFields :=
  fun f hf ↦ (h.responseFields f (List.mem_filter.mp hf).1).embedded

theorem bind_gives (m : Endpoint) (package : String) (specs : List BindingSpec) :
    Tables.Gives p (fun bindings ↦ ∀ b ∈ bindings.2, ∃ spec ∈ specs, m.BindsResult spec b)
      (m.bind p package specs) := by
  induction specs with
  | nil => exact .pure nofun
  | cons spec specs ih =>
    have hmono {b : Binding} : (∃ spec ∈ specs, m.BindsResult spec b) →
        ∃ spec' ∈ spec :: specs, m.BindsResult spec' b :=
      fun ⟨spec', hs, hb⟩ ↦ ⟨spec', List.mem_cons_of_mem _ hs, hb⟩
    rw [bind]
    dsimp only
    split
    · exact ih.imp fun _ h b hb ↦ hmono (h b hb)
    · rename_i f isResult ht
      refine (Tables.nestedType_gives _ _ _).bind fun nested _ ↦ ih.bind fun bindings hb ↦ .pure ?_
      cases isResult with
      | false => exact fun b hm ↦ hmono (hb b hm)
      | true =>
        refine List.forall_mem_cons.mpr ⟨⟨spec, List.mem_cons_self, ?_⟩, fun b hm ↦ hmono (hb b hm)⟩
        exact ⟨rfl, rfl, ⟨f, ht, rfl⟩, rfl⟩

/-- The endpoint is that of a method with its bindings. -/
def MadeOf (service : String) (d : Directives) (m : Method) (o : Endpoint) : Prop :=
  ∃ bindings resultBindings, o = { ofMethod service d m with bindings, resultBindings }

theorem MadeOf.exists_of_mem {d : Directives} {ms : List Method} {os : List Endpoint}
    {o : Endpoint} (h : List.Forall₂ (MadeOf service d) ms os) (ho : o ∈ os) :
    ∃ m ∈ ms, MadeOf service d m o := exists_of_mem_right h ho

theorem build_madeOf (d : Directives) (package : String) (m : Method) :
    Tables.Gives p (MadeOf service d m) (build p service d package m) :=
  (bind_gives _ package _).bind fun bindings _ ↦ .pure ⟨bindings.1, bindings.2, rfl⟩

theorem build_gives (d : Directives) (package : String) {m : Method} (hm : Plain m) :
    Tables.Gives p (IsOf service) (build p service d package m) :=
  (bind_gives _ package _).bind fun _ hb ↦ .pure ⟨rfl, rfl,
    List.forall_mem_map.mpr fun f hf ↦ (hm.args f hf).tagged,
    List.forall_mem_map.mpr fun f hf ↦ (hm.results f hf).tagged,
    fun b hm ↦ (hb b hm).imp fun _ h ↦ ⟨h.1, ⟨h.2.1, h.2.2, h.2.3, h.2.4⟩⟩⟩

end Endpoint

namespace Service

variable {p : Project}

/-- The service was made of an interface of a package. -/
structure IsOf (package : String) (s : Service) : Prop where
  package : s.package = package
  methods : ∀ m ∈ s.methods, m.IsOf s.name

theorem buildMethods_gives (service : String) (d : Directives) (package : String)
    {ms : List Method} (hm : ∀ m ∈ ms, Plain m) :
    Tables.Gives p (fun ms ↦ ∀ m ∈ ms, Endpoint.IsOf service m)
      (buildMethods p service d package ms) := by
  induction ms with
  | nil => exact .pure nofun
  | cons m ms ih =>
    rw [List.forall_mem_cons] at hm
    exact (Endpoint.build_gives d package hm.1).bind fun o ho ↦
      (ih hm.2).bind fun os hos ↦ .pure (List.forall_mem_cons.mpr ⟨ho, hos⟩)

theorem buildMethods_madeOf (service : String) (d : Directives) (package : String)
    (ms : List Method) :
    Tables.Gives p (List.Forall₂ (Endpoint.MadeOf service d) ms)
      (buildMethods p service d package ms) := by
  induction ms with
  | nil => exact .pure .nil
  | cons m ms ih =>
    exact (Endpoint.build_madeOf d package m).bind fun _ ho ↦ ih.bind fun _ hos ↦
      .pure (.cons ho hos)

theorem build_madeOf (d : InterfaceDecl) (package : String) {P : List Method → Prop}
    (h : Tables.Gives p P (Tables.methodsOf p d package)) :
    Tables.Gives p (fun s ↦ s.name = d.name ∧ ∃ ms, P ms ∧
        List.Forall₂ (Endpoint.MadeOf d.name (Directives.parse d.docs)) ms s.methods)
      (build p d package) :=
  h.bind fun ms hms ↦ (buildMethods_madeOf d.name _ package ms).bind fun _ hos ↦
    .pure ⟨rfl, ms, hms, hos⟩

theorem build_gives (package : String) {d : InterfaceDecl} (hd : ∀ m ∈ d.methods, Plain m) :
    Tables.Gives p (IsOf package) (build p d package) :=
  (Tables.methodsOf_gives d package hd).bind fun _ hm ↦
    (buildMethods_gives d.name _ package hm).bind fun _ hm ↦ .pure ⟨rfl, hm⟩

theorem buildAll_gives (package : String) {ds : List InterfaceDecl}
    (hd : ∀ d ∈ ds, ∀ m ∈ d.methods, Plain m) :
    Tables.Gives p (fun services ↦ ∀ s ∈ services, IsOf package s) (buildAll p package ds) := by
  induction ds with
  | nil => exact .pure nofun
  | cons d ds ih =>
    rw [List.forall_mem_cons] at hd
    exact (build_gives package hd.1).bind fun s hs ↦
      (ih hd.2).bind fun ss hss ↦ .pure (List.forall_mem_cons.mpr ⟨hs, hss⟩)

theorem load_gives (dir : Path) (filter : List String) :
    Tables.Gives p (fun services ↦ ∀ s ∈ services, IsOf (p.layout.importPathOf p.files dir) s)
      (load p dir filter) := by
  refine (Tables.Gives.onSources ((Sources.package_spec dir).mono (fun _ h ↦ h) (fun _ _ h ↦ h)
    fun _ _ h ↦ h.1)).bind fun files hf ↦ buildAll_gives _ fun d hd ↦ ?_
  obtain ⟨file, hfile, hd⟩ := List.mem_flatMap.mp (List.mem_of_mem_filter hd)
  obtain ⟨path, hs⟩ := FileTree.exists_source hf (List.mem_map_of_mem hfile)
  exact FileTree.plain_of_mem
    (FileTree.declarations_of_source hs (SourceFile.mem_declarations hd))

/-- Services are loaded without resolving a type. -/
theorem load_knows {excused : Set QualifiedName} {inside known : List QualifiedName} {dir : Path}
    {filter : List String} {services : List Service} {t t' : Tables}
    (ht : Tables.Knows p excused inside known t) (h : load p dir filter t = (.ok services, t')) :
    Tables.Knows p excused inside known t' :=
  have hg := load_gives dir filter
  ht.of_definitions (hg.ok ht.faithful h).1 (hg.definitions_eq ht.faithful h)

end Service

end GoOpenApi
