import GoOpenApi.Proofs.Service.Loading

/-!
The methods of a service. An interface comes with the methods of the interfaces embedded in it,
which are met depth first and entered once; of one name the first method counts.
-/

namespace GoOpenApi

/-- The names that types stand for, as they are written in a package. -/
def GoType.identities (package : String) (types : List GoType) : List QualifiedName :=
  types.filterMap fun type ↦ type.identity.map fun (origin, name) ↦ ⟨origin.getD package, name⟩

theorem GoType.identities_of_none {package : String} {type : GoType} (types : List GoType)
    (h : type.identity = none) : identities package (type :: types) = identities package types := by
  simp [identities, h]

theorem GoType.identities_of_some {package name : String} {type : GoType} {origin : Option String}
    (types : List GoType) (h : type.identity = some (origin, name)) :
    identities package (type :: types) =
      ⟨origin.getD package, name⟩ :: identities package types := by
  simp [identities, h]

def InterfaceDecl.embeddedNames (package : String) (d : InterfaceDecl) : List QualifiedName :=
  GoType.identities package d.embedded

/-- The interface that a name stands for. The one to start from stands for its own name, whatever
the files declare under it. -/
def Project.interfaceFrom? (p : Project) (root : QualifiedName) (d : InterfaceDecl)
    (q : QualifiedName) : Option InterfaceDecl :=
  if q = root then some d
  else match p.declared? q with
    | some (some (.interface d')) => some d'
    | _ => none

theorem Project.interfaceFrom?_eq_some {p : Project} {root q : QualifiedName}
    {d d' : InterfaceDecl} (h : q ≠ root) :
    p.interfaceFrom? root d q = some d' ↔ p.declared? q = some (some (.interface d')) := by
  rw [interfaceFrom?, if_neg h]
  split
  · simp_all
  · rename_i hn
    exact ⟨nofun, fun hd ↦ absurd hd (hn d')⟩

section

variable (find? : QualifiedName → Option InterfaceDecl)

/-- The interface of the first name embeds the second name. -/
def Embeds (q q' : QualifiedName) : Prop := ∃ d, find? q = some d ∧ q' ∈ d.embeddedNames q.package

/-- The interfaces on the way depth first through the names of a list, each before those that are
embedded in it. Names that were met before are passed over. -/
inductive DepthFirst : List QualifiedName → List QualifiedName →
    List (QualifiedName × InterfaceDecl) → List QualifiedName → Prop where
  | done (met : List QualifiedName) : DepthFirst met [] [] met
  | again {q : QualifiedName} {met met' qs : List QualifiedName}
    {order : List (QualifiedName × InterfaceDecl)} :
    q ∈ met → DepthFirst met qs order met' → DepthFirst met (q :: qs) order met'
  | nowhere {q : QualifiedName} {met met' qs : List QualifiedName}
    {order : List (QualifiedName × InterfaceDecl)} :
    q ∉ met → find? q = none → DepthFirst (q :: met) qs order met' →
    DepthFirst met (q :: qs) order met'
  | enter {q : QualifiedName} {d : InterfaceDecl} {met met' qs : List QualifiedName}
    {order : List (QualifiedName × InterfaceDecl)} :
    q ∉ met → find? q = some d →
    DepthFirst (q :: met) (d.embeddedNames q.package ++ qs) order met' →
    DepthFirst met (q :: qs) ((q, d) :: order) met'

end

namespace DepthFirst

variable {find? : QualifiedName → Option InterfaceDecl} {q root : QualifiedName}
  {d : InterfaceDecl} {met met' met'' qs qs' : List QualifiedName}
  {order order' : List (QualifiedName × InterfaceDecl)}

theorem append (h : DepthFirst find? met qs order met')
    (h' : DepthFirst find? met' qs' order' met'') :
    DepthFirst find? met (qs ++ qs') (order ++ order') met'' := by
  induction h with
  | done => exact h'
  | again hq _ ih => exact .again hq (ih h')
  | nowhere hq hn _ ih => exact .nowhere hq hn (ih h')
  | enter hq hd _ ih =>
    have h := ih h'
    rw [List.append_assoc] at h
    exact .enter hq hd h

theorem met_subset (h : DepthFirst find? met qs order met') : met ⊆ met' := by
  induction h with
  | done => exact List.Subset.refl _
  | again _ _ ih => exact ih
  | nowhere _ _ _ ih | enter _ _ _ ih => exact (List.cons_subset.mp ih).2

theorem names_subset (h : DepthFirst find? met qs order met') : qs ⊆ met' := by
  induction h with
  | done => exact List.nil_subset _
  | again hq h ih => exact List.cons_subset.mpr ⟨h.met_subset hq, ih⟩
  | nowhere _ _ h ih =>
    exact List.cons_subset.mpr ⟨h.met_subset List.mem_cons_self, ih⟩
  | enter _ _ h ih =>
    exact List.cons_subset.mpr ⟨h.met_subset List.mem_cons_self, (List.append_subset.mp ih).2⟩

theorem entered (h : DepthFirst find? met qs order met') (hq : q ∈ met') (hn : q ∉ met)
    (hd : find? q = some d) : (q, d) ∈ order ∧ d.embeddedNames q.package ⊆ met' := by
  induction h with
  | done => exact absurd hq hn
  | again _ _ ih => exact ih hq hn
  | @nowhere q' _ _ _ _ _ hno _ ih =>
    -- the name passed over stands for nothing, so it is not the one that was met
    refine ih hq fun hm ↦ ?_
    rcases List.mem_cons.mp hm with rfl | hm
    · rw [hno] at hd
      cases hd
    · exact hn hm
  | @enter q' d' _ _ _ _ _ hd' h ih =>
    by_cases he : q = q'
    · subst he
      cases hd.symm.trans hd'
      exact ⟨List.mem_cons_self, (List.append_subset.mp h.names_subset).1⟩
    · obtain ⟨ho, hs⟩ := ih hq fun hm ↦ (List.mem_cons.mp hm).elim he hn
      exact ⟨List.mem_cons_of_mem _ ho, hs⟩

theorem reached (h : DepthFirst find? met qs order met') (ho : (q, d) ∈ order) :
    find? q = some d ∧ ∃ q₀ ∈ qs, Relation.ReflTransGen (Embeds find?) q₀ q := by
  induction h with
  | done => cases ho
  | again _ _ ih | nowhere _ _ _ ih =>
    obtain ⟨hd, q₀, hq₀, hr⟩ := ih ho
    exact ⟨hd, q₀, List.mem_cons_of_mem _ hq₀, hr⟩
  | @enter q' d' _ _ _ _ _ hd' _ ih =>
    rcases List.mem_cons.mp ho with he | ho
    · cases he
      exact ⟨hd', q, List.mem_cons_self, .refl⟩
    · obtain ⟨hd, q₀, hq₀, hr⟩ := ih ho
      rcases List.mem_append.mp hq₀ with hq₀ | hq₀
      -- reached from a name embedded in the interface just entered
      · exact ⟨hd, q', List.mem_cons_self, .head ⟨d', hd', hq₀⟩ hr⟩
      · exact ⟨hd, q₀, List.mem_cons_of_mem _ hq₀, hr⟩

/-- The way from one name enters the interfaces that embedding leads to from there. -/
theorem mem_order_iff (h : DepthFirst find? [] [root] order met) :
    (q, d) ∈ order ↔ Relation.ReflTransGen (Embeds find?) root q ∧ find? q = some d := by
  constructor
  · intro ho
    obtain ⟨hd, q₀, hq₀, hr⟩ := h.reached ho
    exact ⟨List.mem_singleton.mp hq₀ ▸ hr, hd⟩
  · rintro ⟨hr, hd⟩
    -- the names met are closed under embedding, whatever they stand for
    have hmet : q ∈ met := by
      clear hd
      induction hr with
      | refl => exact h.names_subset (List.mem_singleton_self root)
      | tail _ he ih =>
        obtain ⟨d', hd', hq⟩ := he
        exact (h.entered ih List.not_mem_nil hd').2 hq
    exact (h.entered hmet List.not_mem_nil hd).1

end DepthFirst

namespace Gathered

variable {g g' : Gathered} {m : Method} {name : String}

theorem met_add (g : Gathered) (m : Method) : (g.add m).met = g.met := by
  unfold add
  split <;> rfl

theorem met_foldl_add (ms : List Method) (g : Gathered) : (ms.foldl add g).met = g.met := by
  induction ms generalizing g with
  | nil => rfl
  | cons m ms ih => exact (ih (g.add m)).trans (met_add g m)

theorem methods_add_congr (h : g.methods = g'.methods) (m : Method) :
    (g.add m).methods = (g'.add m).methods := by
  unfold add
  rw [h]
  split
  · exact h
  · rfl

theorem methods_foldl_add_congr (h : g.methods = g'.methods) (ms : List Method) :
    (ms.foldl add g).methods = (ms.foldl add g').methods := by
  induction ms generalizing g g' with
  | nil => exact h
  | cons m ms ih => exact ih (methods_add_congr h m)

theorem find?_add : (g.add m).methods.find? (·.name == name) =
    (g.methods.find? (·.name == name)).or (if m.name == name then some m else none) := by
  unfold add
  split
  · rename_i hm
    obtain ⟨m', hm', hn⟩ := List.any_eq_true.mp hm
    by_cases he : m.name = name
    · have hs : (g.methods.find? (·.name == name)).isSome :=
        List.find?_isSome.mpr ⟨m', hm', by simpa [← he] using hn⟩
      rw [Option.or_of_isSome hs]
    · simp [he]
  · rw [List.find?_append, List.find?_singleton]

/-- Of the methods that are added under a name the first is kept, unless there was one before. -/
theorem find?_foldl_add (ms : List Method) (g : Gathered) :
    (ms.foldl add g).methods.find? (·.name == name) =
      (g.methods.find? (·.name == name)).or (ms.find? (·.name == name)) := by
  induction ms generalizing g with
  | nil => simp
  | cons m ms ih =>
    rw [List.foldl_cons, ih, find?_add, Option.or_assoc, List.find?_cons]
    split <;> rename_i hm <;> simp [hm]

theorem nodup_foldl_add (ms : List Method) (h : (g.methods.map (·.name)).Nodup) :
    ((ms.foldl add g).methods.map (·.name)).Nodup := by
  induction ms generalizing g with
  | nil => exact h
  | cons m ms ih =>
    refine ih ?_
    unfold add
    split
    · exact h
    · rename_i hm
      rw [List.map_append, List.map_singleton, ← List.concat_eq_append]
      refine h.concat fun hn ↦ hm ?_
      obtain ⟨m', hm', he⟩ := List.mem_map.mp hn
      exact List.any_eq_true.mpr ⟨m', hm', by simp [he]⟩

/-- The methods of interfaces, as they read in the package `home`. -/
def methodsIn (home : String) (order : List (QualifiedName × InterfaceDecl)) : List Method :=
  order.flatMap fun (q, d) ↦
    d.methods.map fun m ↦ if q.package = home then m else m.qualify q.package

theorem mem_names_methodsIn {home : String} {order : List (QualifiedName × InterfaceDecl)} :
    name ∈ (methodsIn home order).map (·.name) ↔
      ∃ q d, (q, d) ∈ order ∧ name ∈ d.methods.map (·.name) := by
  simp only [methodsIn, List.map_flatMap, List.mem_flatMap, Prod.exists, List.map_map]
  refine exists₂_congr fun q d ↦ and_congr_right fun _ ↦ ?_
  rw [List.map_congr_left (g := (·.name)) fun m _ ↦ ?_]
  dsimp only [Function.comp]
  split <;> rfl

theorem find?_methodsIn {home : String} {order : List (QualifiedName × InterfaceDecl)}
    (h : (methodsIn home order).find? (·.name == name) = some m) :
    ∃ first, (order.flatMap (·.2.methods)).find? (·.name == name) = some first ∧
      (m = first ∨ ∃ package, m = first.qualify package) := by
  induction order with
  | nil => cases h
  | cons entry order ih =>
    obtain ⟨q, d⟩ := entry
    let read (m : Method) : Method := if q.package = home then m else m.qualify q.package
    -- reading a method elsewhere keeps its name, so it commutes with the search
    have hn : (fun m : Method ↦ m.name == name) ∘ read = fun m ↦ m.name == name := by
      funext m
      simp only [Function.comp, read]
      split <;> rfl
    have hs : (methodsIn home ((q, d) :: order)).find? (·.name == name) =
        ((d.methods.find? (·.name == name)).map read).or
          ((methodsIn home order).find? (·.name == name)) := by
      rw [← hn, ← List.find?_map, hn]
      exact List.find?_append
    rw [List.flatMap_cons, List.find?_append]
    rw [hs] at h
    cases hd : d.methods.find? (·.name == name) with
    | none =>
      rw [hd] at h
      exact ih h
    | some first =>
      rw [hd] at h
      cases h
      refine ⟨first, rfl, ?_⟩
      dsimp only [read]
      split
      · exact .inl rfl
      · exact .inr ⟨_, rfl⟩

theorem addAll_eq (g : Gathered) (q : QualifiedName) (home : String) (d : InterfaceDecl) :
    g.addAll q.package home d.methods = (methodsIn home [(q, d)]).foldl add g := by
  simp [addAll, methodsIn, List.foldl_map]

/-- One state of gathering comes from another by going through the names of a list. -/
def Follows (find? : QualifiedName → Option InterfaceDecl) (home : String)
    (qs : List QualifiedName) (g g' : Gathered) : Prop :=
  ∃ order, DepthFirst find? g.met qs order g'.met ∧
    g'.methods = ((methodsIn home order).foldl add g).methods

namespace Follows

variable {find? : QualifiedName → Option InterfaceDecl} {home : String} {q : QualifiedName}
  {d : InterfaceDecl} {qs : List QualifiedName} {g₁ : Gathered}

theorem met_subset (h : Follows find? home qs g g') : g.met ⊆ g'.met :=
  h.elim fun _ h ↦ h.1.met_subset

theorem done (g : Gathered) : Follows find? home [] g g := ⟨[], .done _, rfl⟩

theorem again (hq : q ∈ g.met) (h : Follows find? home qs g g') :
    Follows find? home (q :: qs) g g' := by
  obtain ⟨order, hd, hm⟩ := h
  exact ⟨order, .again hq hd, hm⟩

theorem nowhere (hq : q ∉ g.met) (hn : find? q = none)
    (h : Follows find? home qs { g with met := q :: g.met } g') :
    Follows find? home (q :: qs) g g' := by
  obtain ⟨order, hd, hm⟩ := h
  refine ⟨order, .nowhere hq hn hd, hm.trans ?_⟩
  apply methods_foldl_add_congr
  rfl

theorem enter (hq : q ∉ g.met) (hd : find? q = some d)
    (h : Follows find? home (d.embeddedNames q.package)
      (({ g with met := q :: g.met } : Gathered).addAll q.package home d.methods) g₁)
    (h' : Follows find? home qs g₁ g') : Follows find? home (q :: qs) g g' := by
  obtain ⟨order, ho, hm⟩ := h
  obtain ⟨order', ho', hm'⟩ := h'
  rw [addAll_eq, met_foldl_add] at ho
  -- its own methods come first, then those embedded in it, then those of the names behind it
  refine ⟨(q, d) :: (order ++ order'), .enter hq hd (ho.append ho'), ?_⟩
  have hs : methodsIn home ((q, d) :: (order ++ order')) =
      methodsIn home [(q, d)] ++ (methodsIn home order ++ methodsIn home order') := by
    simp [methodsIn]
  rw [hm', hs, List.foldl_append, List.foldl_append]
  refine methods_foldl_add_congr ?_ _
  rw [hm, addAll_eq]
  apply methods_foldl_add_congr
  apply methods_foldl_add_congr
  rfl

end Follows

end Gathered

namespace Tables

variable {p : Project} {root : QualifiedName} {d₀ : InterfaceDecl} {home : String}

open Gathered (Follows)

/-- Entering embedded interfaces as `enter` does goes through their names depth first. -/
theorem gatherEmbedded_follows
    {enter : InterfaceDecl → String → Gathered → Action Tables Gathered}
    (he : ∀ d (q : QualifiedName) g, root ∈ g.met →
      Gives p (Follows (p.interfaceFrom? root d₀) home (d.embeddedNames q.package)
        (g.addAll q.package home d.methods)) (enter d q.package g))
    (package : String) (types : List GoType) (g : Gathered) (hg : root ∈ g.met) :
    Gives p (Follows (p.interfaceFrom? root d₀) home (GoType.identities package types) g)
      (gatherEmbedded p enter package types g) := by
  induction types generalizing g with
  | nil => exact .pure (.done g)
  | cons type types ih =>
    rw [gatherEmbedded]
    cases hi : type.identity with
    | none =>
      rw [GoType.identities_of_none types hi]
      exact ih g hg
    | some identity =>
      obtain ⟨origin, name⟩ := identity
      rw [GoType.identities_of_some types hi]
      dsimp only
      split
      · rename_i hq
        exact (ih g hg).imp fun g' h ↦ .again (List.contains_iff_mem.mp hq) h
      · rename_i hq
        rw [List.contains_iff_mem] at hq
        -- the start has been met, so the files decide what the name stands for
        have hr : (⟨origin.getD package, name⟩ : QualifiedName) ≠ root := fun h ↦ hq (h ▸ hg)
        have hm : root ∈ (⟨origin.getD package, name⟩ : QualifiedName) :: g.met :=
          List.mem_cons_of_mem _ hg
        refine (Gives.declaration _).bind fun found hf ↦ ?_
        split
        · rename_i d
          have hd : p.interfaceFrom? root d₀ ⟨origin.getD package, name⟩ = some d :=
            (Project.interfaceFrom?_eq_some hr).mpr hf
          refine (he d ⟨origin.getD package, name⟩ { g with met := _ } hm).bind fun g₁ hg₁ ↦ ?_
          have hm₁ : root ∈ g₁.met := hg₁.met_subset (by
            rwa [Gathered.addAll_eq, Gathered.met_foldl_add])
          exact (ih g₁ hm₁).imp fun g' h ↦ .enter hq hd hg₁ h
        · rename_i hn
          have hd : p.interfaceFrom? root d₀ ⟨origin.getD package, name⟩ = none := by
            refine Option.eq_none_iff_forall_ne_some.mpr fun d hd ↦ ?_
            rw [Project.interfaceFrom?_eq_some hr, hf, Option.some_inj] at hd
            exact hn d hd
          exact (ih { g with met := _ } hm).imp fun g' h ↦ .nowhere hq hd h

theorem gatherWithin_follows (root : QualifiedName) (d₀ : InterfaceDecl) (n : Nat)
    (d : InterfaceDecl) (q : QualifiedName) (g : Gathered) (hg : root ∈ g.met) :
    Gives p (Follows (p.interfaceFrom? root d₀) home (d.embeddedNames q.package)
      (g.addAll q.package home d.methods)) (gatherWithin p home n d q.package g) := by
  induction n generalizing d q g with
  | zero => exact .throw _
  | succ n ih =>
    refine gatherEmbedded_follows (fun d q g hg ↦ ih d q g hg) q.package d.embedded _ ?_
    rwa [Gathered.addAll_eq, Gathered.met_foldl_add]

/-- The methods of an interface are those of the interfaces on the way depth first from it, of
which the first ones of their names are kept. -/
theorem methodsOf_follows (d : InterfaceDecl) (package : String) :
    Gives p (fun methods ↦ ∃ order met,
        DepthFirst (p.interfaceFrom? ⟨package, d.name⟩ d) [] [⟨package, d.name⟩] order met ∧
          methods = ((Gathered.methodsIn package order).foldl Gathered.add ⟨[], []⟩).methods)
      (methodsOf p d package) := by
  refine .get fun t ↦ (gatherWithin_follows ⟨package, d.name⟩ d _ d ⟨package, d.name⟩ _
    List.mem_cons_self).bind fun g hg ↦ .pure ?_
  have hd : p.interfaceFrom? ⟨package, d.name⟩ d ⟨package, d.name⟩ = some d := if_pos rfl
  obtain ⟨order, ho, hm⟩ := Follows.enter (g := ⟨[], []⟩) List.not_mem_nil hd hg (.done g)
  exact ⟨order, g.met, ho, hm⟩

end Tables

section

variable (package : String)

theorem Field.map_name_qualifyAll (fields : List Field) :
    (Field.qualifyAll package fields).map (·.name) = fields.map (·.name) := by
  induction fields with
  | nil => rfl
  | cons f fields ih =>
    obtain ⟨name, type, tags, embedded⟩ := f
    exact congrArg (name :: ·) ih

theorem Field.map_name_tagged (fields : List Field) :
    (fields.map Field.tagged).map (·.name) = fields.map (·.name) := by
  rw [List.map_map]
  refine List.map_congr_left fun f _ ↦ ?_
  simp only [Function.comp, Field.tagged]
  split <;> rfl

/-- The endpoint has the texts and the names of a method. -/
structure Endpoint.Shows (m : Method) (o : Endpoint) : Prop where
  name : o.name = m.name
  docs : o.docs = m.docs
  args : o.args.map (·.name) = m.args.map (·.name)
  results : o.results.map (·.name) = m.results.map (·.name)

variable {service home : String} {directives : Directives} {m : Method} {o : Endpoint}

theorem Endpoint.MadeOf.shows (h : MadeOf service directives m o) : o.Shows m := by
  obtain ⟨bindings, resultBindings, rfl⟩ := h
  exact ⟨rfl, rfl, Field.map_name_tagged _, Field.map_name_tagged _⟩

theorem Endpoint.Shows.of_qualify (h : o.Shows (m.qualify package)) : o.Shows m :=
  ⟨h.name, h.docs, h.args.trans (Field.map_name_qualifyAll package _),
    h.results.trans (Field.map_name_qualifyAll package _)⟩

variable {ms : List Method} {os : List Endpoint} {name : String}

theorem Method.mem_names_iff : name ∈ ms.map (·.name) ↔ (ms.find? (·.name == name)).isSome := by
  simp [List.find?_isSome]

theorem Endpoint.MadeOf.map_name (h : List.Forall₂ (MadeOf service directives) ms os) :
    os.map (·.name) = ms.map (·.name) :=
  (map_eq_map_of_forall₂ h fun _ _ ho ↦ ho.shows.name.symm).symm

end

namespace Service

variable {p : Project} {d : InterfaceDecl} {package : String} {s : Service} {t t' : Tables}

/-- The methods of a service have different names, those of the methods of all interfaces that
embedding leads to from its own. Each shows the first method of its name on the way depth first. -/
theorem methods_of_embedded (ht : t.Faithful p) (h : build p d package t = (.ok s, t')) :
    (s.methods.map (·.name)).Nodup ∧
      (∀ name, name ∈ s.methods.map (·.name) ↔ ∃ q d',
        Relation.ReflTransGen (Embeds (p.interfaceFrom? ⟨package, d.name⟩ d)) ⟨package, d.name⟩ q ∧
          p.interfaceFrom? ⟨package, d.name⟩ d q = some d' ∧ name ∈ d'.methods.map (·.name)) ∧
      ∃ order met,
        DepthFirst (p.interfaceFrom? ⟨package, d.name⟩ d) [] [⟨package, d.name⟩] order met ∧
        ∀ o ∈ s.methods, ∃ first,
          (order.flatMap (·.2.methods)).find? (·.name == o.name) = some first ∧ o.Shows first := by
  obtain ⟨-, -, ms, ⟨order, met, ho, rfl⟩, hs⟩ :=
    (build_madeOf d package (Tables.methodsOf_follows d package)).ok ht h
  have hfind (name : String) :
      ((Gathered.methodsIn package order).foldl Gathered.add ⟨[], []⟩).methods.find?
        (·.name == name) = (Gathered.methodsIn package order).find? (·.name == name) :=
    Gathered.find?_foldl_add _ _
  have hnodup := Gathered.nodup_foldl_add (g := ⟨[], []⟩) (Gathered.methodsIn package order)
    List.nodup_nil
  rw [Endpoint.MadeOf.map_name hs]
  refine ⟨hnodup, fun name ↦ ?_, order, met, ho, fun o hm ↦ ?_⟩
  · rw [Method.mem_names_iff, hfind, ← Method.mem_names_iff, Gathered.mem_names_methodsIn]
    refine exists₂_congr fun q d' ↦ ?_
    rw [ho.mem_order_iff, and_assoc]
  · obtain ⟨m, hms, hm⟩ := Endpoint.MadeOf.exists_of_mem hs hm
    obtain ⟨m', hm'⟩ := Option.isSome_iff_exists.mp
      (Method.mem_names_iff.mp (List.mem_map_of_mem (f := (·.name)) hms))
    have he : m' = m := List.inj_on_of_nodup_map hnodup (List.mem_of_find?_eq_some hm') hms
      (by simpa using List.find?_some hm')
    rw [hfind, he] at hm'
    obtain ⟨first, hf, hq⟩ := Gathered.find?_methodsIn hm'
    rw [hm.shows.name]
    refine ⟨first, hf, ?_⟩
    rcases hq with rfl | ⟨package, rfl⟩
    · exact hm.shows
    · exact hm.shows.of_qualify

/-- `Common` embeds the interface that embeds it, and both embed `Audit` of another package. -/
def embeddedAround : Project :=
  let base := "package base\n\n" ++
    "type Audit interface \x7b\n\tTrail(user string)\n\tPing(times int)\n\x7d\n"
  let source := "package service\n\nimport \"m/base\"\n\n" ++
    "type Common interface \x7b\n\tUsers\n\tbase.Audit\n\t// Of Common\n\tPing()\n\x7d\n\n" ++
    "type Users interface \x7b\n\tCommon\n\tbase.Audit\n\tReset()\n\x7d\n"
  let files := [(⟨"go.mod"⟩, .file (.text "module m\n")), (⟨"base/base.go"⟩, .file (.text base)),
    (⟨"service/service.go"⟩, .file (.text source))]
  .of (.ofNodes ["tmp", "w"] files) (.ofGoMod {} ⟨"/tmp/w"⟩ (.parse "module m\n"))

theorem embeddedAround_methods :
    let d : InterfaceDecl :=
      ⟨"Users", [], [⟨"Reset", [], [], []⟩], [.plain "Common", .qualified "m/base" "Audit"]⟩
    let find? := embeddedAround.interfaceFrom? ⟨"m/service", "Users"⟩ d
    ∃ s t', build embeddedAround d "m/service" .empty = (.ok s, t') ∧
      s.methods.map (fun m ↦ (m.name, m.docs)) =
        [("Reset", []), ("Ping", ["Of Common"]), ("Trail", [])] ∧
      (s.methods.map (·.name)).Nodup ∧
      (∀ name, name ∈ s.methods.map (·.name) ↔ ∃ q d',
        Relation.ReflTransGen (Embeds find?) ⟨"m/service", "Users"⟩ q ∧
          find? q = some d' ∧ name ∈ d'.methods.map (·.name)) ∧
      ∃ order met, DepthFirst find? [] [⟨"m/service", "Users"⟩] order met ∧
        ∀ o ∈ s.methods, ∃ first,
          (order.flatMap (·.2.methods)).find? (·.name == o.name) = some first ∧ o.Shows first := by
  intro d find?
  have h : (build embeddedAround d "m/service" .empty).1.toOption.map
      (fun s ↦ s.methods.map fun m ↦ (m.name, m.docs)) =
        some [("Reset", []), ("Ping", ["Of Common"]), ("Trail", [])] := by
    decide +kernel
  rcases hb : build embeddedAround d "m/service" .empty with ⟨fault | s, t'⟩
  · rw [hb] at h
    cases h
  · rw [hb] at h
    exact ⟨s, t', rfl, Option.some.inj h, methods_of_embedded (.empty _) hb⟩

end Service

end GoOpenApi
