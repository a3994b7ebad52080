import GoOpenApi.Proofs.Document.Operation
import GoOpenApi.Proofs.Files.Order
import GoOpenApi.Proofs.Service.Route
import Mathlib.Data.List.Dedup
import Mathlib.Data.List.Perm.Lattice

/-!
Which operations a document has. In each place stands the operation of the last method that was
added there, so that a service has one operation for each of its calls unless names of methods have
the same lower camel case.
-/

namespace GoOpenApi

/-- The paths and verbs of a document under which there is an operation. -/
def occupied (paths : Dict PathItem) : List (String × Verb) :=
  paths.flatMap fun (path, item) ↦ (Verb.all.filter fun v ↦ (item.at? v).isSome).map (path, ·)

section

variable {paths : Dict PathItem} {path : String} {v : Verb}

theorem Verb.mem_all (v : Verb) : v ∈ all := by cases v <;> decide

theorem mem_occupied (h : paths.Ordered) :
    (path, v) ∈ occupied paths ↔ (operationAt paths path v).isSome := by
  simp only [occupied, List.mem_flatMap, List.mem_map, List.mem_filter, operationAt,
    Option.isSome_bind, Option.any_eq_true, h.find?_eq_some_iff]
  constructor
  · rintro ⟨⟨path', item⟩, hm, v', ⟨-, hv⟩, he⟩
    cases he
    exact ⟨item, hm, hv⟩
  · rintro ⟨item, hm, hv⟩
    exact ⟨(path, item), hm, v, ⟨v.mem_all, hv⟩, rfl⟩

theorem nodup_occupied (h : paths.Ordered) : (occupied paths).Nodup := by
  refine List.nodup_flatMap.mpr ⟨fun entry _ ↦ ?_, h.imp fun hlt ↦ ?_⟩
  · exact ((by decide : Verb.all.Nodup).filter _).map fun v v' he ↦ (Prod.mk.inj he).2
  · rintro ⟨path, v⟩ hm hm'
    obtain ⟨_, -, he⟩ := List.mem_map.mp hm
    obtain ⟨_, -, he'⟩ := List.mem_map.mp hm'
    exact hlt.ne ((Prod.mk.inj he).1.trans (Prod.mk.inj he').1.symm)

end

theorem Dict.Ordered.withMethod {b : Builder} (h : b.paths.Ordered) (m : Endpoint) (o : Operation) :
    (b.withMethod m o).paths.Ordered := by
  unfold Builder.withMethod
  split <;> exact h.insert _ _

/-- The operation was made of the method. -/
def OperationOf (p : Project) (e : Service × Endpoint) (o : Operation) : Prop :=
  ∃ g g', Generator.operationOf p e.1 e.2 g = (.ok o, g')

/-- Every place holds the operation of the last method that was added there. -/
structure Placed (p : Project) (done : List (Service × Endpoint)) (b : Builder) : Prop where
  ordered : b.paths.Ordered
  placed : ∀ path v,
    Option.Rel (OperationOf p) (lastAt done path v) (operationAt b.paths path v)

namespace Placed

variable {p : Project} {done added : List (Service × Endpoint)} {ms : List Endpoint} {s : Service}
  {m : Endpoint} {b b' : Builder} {g g' : Generator}

theorem step (h : Placed p done b) (ha : Builder.addMethod p s m b g = (.ok b', g')) :
    Placed p (done ++ [(s, m)]) b' := by
  rw [Builder.addMethod_eq] at ha
  obtain ⟨o, g₁, ho, ha⟩ := Action.bind_ok ha
  cases ha
  refine ⟨h.ordered.withMethod m o, fun path v ↦ ?_⟩
  rw [Added.lastAt_snoc, Builder.operationAt_withMethod]
  split
  · exact .some ⟨g, g', ho⟩
  · exact h.placed path v

theorem run {state state' : Builder × Generator} (ha : Adds p added state state')
    (h : Placed p done state.1) : Placed p (done ++ added) state'.1 := by
  induction ha generalizing done with
  | nil => rwa [List.append_nil]
  | cons hm _ ih =>
    rw [List.append_cons]
    exact ih (h.step hm)

theorem isSome_of_rel {α β : Type} {R : α → β → Prop} {a? : Option α} {b? : Option β}
    (h : Option.Rel R a? b?) : a?.isSome = b?.isSome := by
  cases h <;> rfl

theorem mem_occupied_iff (h : Placed p done b) {path : String} {v : Verb} :
    (path, v) ∈ occupied b.paths ↔ ∃ e ∈ done, e.2.route = (path, some v) := by
  rw [mem_occupied h.ordered, ← isSome_of_rel (h.placed path v)]
  simp [lastAt]

theorem occupied_perm (h : Placed p (ms.map (s, ·)) b) (hr : ∀ m ∈ ms, m.isHttp = false) :
    (occupied b.paths).Perm ((ms.map (·.rpcPath)).dedup.map (·, Verb.post)) := by
  have hn : ((ms.map (·.rpcPath)).dedup.map (·, Verb.post)).Nodup :=
    (List.nodup_dedup _).map fun path path' he ↦ (Prod.mk.inj he).1
  -- neither list repeats a place, so it is enough that both have the same places
  refine (List.perm_ext_iff_of_nodup (nodup_occupied h.ordered) hn).mpr fun ⟨path, v⟩ ↦ ?_
  rw [h.mem_occupied_iff]
  have hroute {m : Endpoint} (hm : m ∈ ms) : m.route = (m.rpcPath, some .post) := by
    simp [Endpoint.route, hr m hm]
  constructor
  · rintro ⟨e, he, hv⟩
    obtain ⟨m, hm, rfl⟩ := List.mem_map.mp he
    cases (hroute hm).symm.trans hv
    exact List.mem_map_of_mem (List.mem_dedup.mpr (List.mem_map_of_mem hm))
  · intro hm
    obtain ⟨path', hp, he⟩ := List.mem_map.mp hm
    obtain ⟨m, hms, rfl⟩ := List.mem_map.mp (List.mem_dedup.mp hp)
    cases he
    exact ⟨(s, m), List.mem_map_of_mem hms, hroute hms⟩

end Placed

section

variable {p : Project} {s : Service} {text package : String} {file : SourceFile} {d : InterfaceDecl}
  {t t' : Tables} {directives : Directives} {b : Builder} {g g' : Generator}

/-- The operations of a service without methods over HTTP are calls, one at each path; it is made of
the last method there. Two methods have one path exactly when their names have the same lower camel
case, so that they differ in the case of letters at most. Thus there is one operation for each
method exactly when the lower camel cases of their names are different. -/
theorem calls_of_service (hf : SourceFile.parse? text = some file) (hd : d ∈ file.interfaces)
    (ht : t.Faithful p) (hs : Service.build p d package t = (.ok s, t'))
    (hr : ∀ m ∈ s.methods, m.isHttp = false)
    (ha : Builder.addService p s (Builder.initial.withDirectives directives, g) =
      (.ok (), (b, g'))) :
    (occupied (b.document g'.registry).paths).Perm
        ((s.methods.map (·.rpcPath)).dedup.map (·, .post)) ∧
      (∀ path, Option.Rel (OperationOf p) (lastAt (s.methods.map (s, ·)) path .post)
        (operationAt (b.document g'.registry).paths path .post)) ∧
      (∀ m ∈ s.methods, ∀ m' ∈ s.methods, m.rpcPath = m'.rpcPath ↔ m.camelName = m'.camelName) ∧
      (∀ m ∈ s.methods, ∀ m' ∈ s.methods, m.rpcPath = m'.rpcPath →
        List.Forall₂ Text.SameLetter m.name.toList m'.name.toList) ∧
      ((occupied (b.document g'.registry).paths).Perm (s.methods.map fun m ↦ (m.rpcPath, .post)) ↔
        (s.methods.map (·.camelName)).Nodup) := by
  have hc := ((Service.build_routesCalls (Go.plain_of_parse? hf d hd)).ok ht hs).2
  have h₀ : Placed p [] (Builder.initial.withDirectives directives) :=
    ⟨Dict.ordered_nil, fun _ _ ↦ .none⟩
  have hp : Placed p (s.methods.map (s, ·)) b := Placed.run (Adds.of_addMethods ha) h₀
  have hperm := hp.occupied_perm hr
  refine ⟨hperm, fun path ↦ hp.placed path .post, fun m hm m' hm' ↦ hc.rpcPath_iff hm hm',
    fun m hm m' hm' he ↦ Text.sameLetters_of_lowerCamel ((hc.rpcPath_iff hm hm').mp he), ?_⟩
  rw [← hc.nodup_rpcPath_iff]
  constructor
  · intro hm
    have hn : ((s.methods.map (·.rpcPath)).map (·, Verb.post)).Nodup := by
      rw [List.map_map]
      exact hm.nodup_iff.mp (nodup_occupied hp.ordered)
    exact hn.of_map _
  · intro hn
    rw [hn.dedup, List.map_map] at hperm
    exact hperm

/-- The service of an interface in a text, and what adding it alone makes. -/
def Service.addedFrom? (p : Project) (text package name : String) :
    Option (SourceFile × InterfaceDecl × Service × Tables × Builder × Generator) := do
  let file ← SourceFile.parse? text
  let d ← file.interfaces.find? (·.name == name)
  let (.ok s, t) := build p d package .empty | none
  let builder := Builder.initial.withDirectives s.directives
  let (.ok _, b, g) := Builder.addService p s (builder, ⟨t, .empty⟩) | none
  return (file, d, s, t, b, g)

theorem Service.addedFrom?_eq_some {name : String}
    (h : addedFrom? p text package name = some (file, d, s, t, b, g)) :
    SourceFile.parse? text = some file ∧ d ∈ file.interfaces ∧
      build p d package .empty = (.ok s, t) ∧
      Builder.addService p s (Builder.initial.withDirectives s.directives, ⟨t, .empty⟩) =
        (.ok (), (b, g)) := by
  unfold addedFrom? at h
  obtain ⟨file', hf, h⟩ := Option.bind_eq_some_iff.mp h
  obtain ⟨d', hd, h⟩ := Option.bind_eq_some_iff.mp h
  split at h
  · rename_i s' t' hs
    dsimp only at h
    split at h
    · rename_i x b' g' ha
      cases h
      exact ⟨hf, List.mem_of_find?_eq_some hd, hs, ha⟩
    · cases h
  · cases h

/-- Two services, with a method `Id` beside `ID` in the second. -/
def twoIds : String :=
  "package service\n\n// @tg server-jsonrpc\ntype Orders interface \x7b\n" ++
  "\tGetOrder(id string) (total int)\n\tID() (id string)\n\x7d\n\n" ++
  "// @tg server-jsonrpc\ntype Users interface \x7b\n" ++
  "\tID() (id string)\n\tId(x int) (name string)\n\x7d\n"

def twoIdsProject : Project :=
  let files :=
    [(⟨"go.mod"⟩, .file (.text "module m\n")), (⟨"service/service.go"⟩, .file (.text twoIds))]
  .of (.ofNodes ["tmp", "w"] files) (.ofGoMod {} ⟨"/tmp/w"⟩ (.parse "module m\n"))

theorem twoIds_calls_of_orders :
    ∃ file d s t b g, SourceFile.parse? twoIds = some file ∧ d ∈ file.interfaces ∧
      Service.build twoIdsProject d "m/service" .empty = (.ok s, t) ∧
      s.methods.map (fun m ↦ (m.camelName, m.isHttp)) = [("getOrder", false), ("id", false)] ∧
      Builder.addService twoIdsProject s
        (Builder.initial.withDirectives s.directives, ⟨t, .empty⟩) = (.ok (), (b, g)) ∧
      (occupied (b.document g.registry).paths).Perm (s.methods.map fun m ↦ (m.rpcPath, .post)) := by
  have h : (Service.addedFrom? twoIdsProject twoIds "m/service" "Orders").map
      (fun x ↦ x.2.2.1.methods.map fun m ↦ (m.camelName, m.isHttp)) =
        some [("getOrder", false), ("id", false)] := by
    decide +kernel
  obtain ⟨⟨file, d, s, t, b, g⟩, ha, hm⟩ := Option.map_eq_some_iff.mp h
  have hm : s.methods.map (fun m ↦ (m.camelName, m.isHttp)) =
      [("getOrder", false), ("id", false)] := hm
  obtain ⟨hf, hd, hs, ha⟩ := Service.addedFrom?_eq_some ha
  have hr : ∀ m ∈ s.methods, m.isHttp = false := by
    have hb : s.methods.map (·.isHttp) = [false, false] := by
      simpa [Function.comp_def] using congrArg (List.map Prod.snd) hm
    intro m hms
    have hmem := List.mem_map_of_mem (f := (·.isHttp)) hms
    rw [hb] at hmem
    simpa using hmem
  have hn : (s.methods.map (·.camelName)).Nodup := by
    have hc : s.methods.map (·.camelName) = ["getOrder", "id"] := by
      simpa [Function.comp_def] using congrArg (List.map Prod.fst) hm
    rw [hc]
    decide
  exact ⟨file, d, s, t, b, g, hf, hd, hs, hm, ha,
    (calls_of_service hf hd (.empty _) hs hr ha).2.2.2.2.mpr hn⟩

/-- The methods `ID` and `Id` have one path, and the document one operation for both. -/
theorem twoIds_calls_of_users :
    ∃ file d s t b g, SourceFile.parse? twoIds = some file ∧ d ∈ file.interfaces ∧
      Service.build twoIdsProject d "m/service" .empty = (.ok s, t) ∧
      s.methods.map (fun m ↦ (m.name, m.rpcPath, m.isHttp)) =
        [("ID", "/users/id", false), ("Id", "/users/id", false)] ∧
      Builder.addService twoIdsProject s
        (Builder.initial.withDirectives s.directives, ⟨t, .empty⟩) = (.ok (), (b, g)) ∧
      occupied (b.document g.registry).paths = [("/users/id", .post)] := by
  have h : (Service.addedFrom? twoIdsProject twoIds "m/service" "Users").map
      (fun x ↦ (x.2.2.1.methods.map (fun m ↦ (m.name, m.rpcPath, m.isHttp)),
        occupied x.2.2.2.2.1.paths)) =
        some ([("ID", "/users/id", false), ("Id", "/users/id", false)],
          [("/users/id", .post)]) := by
    decide +kernel
  obtain ⟨⟨file, d, s, t, b, g⟩, ha, hm⟩ := Option.map_eq_some_iff.mp h
  obtain ⟨hf, hd, hs, ha⟩ := Service.addedFrom?_eq_some ha
  obtain ⟨hm, ho⟩ := Prod.mk.inj hm
  exact ⟨file, d, s, t, b, g, hf, hd, hs, hm, ha, ho⟩

end

end GoOpenApi
