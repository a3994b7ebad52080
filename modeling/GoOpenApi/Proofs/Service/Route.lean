import GoOpenApi.Proofs.Service.Binding
import GoOpenApi.Proofs.Service.Segments
import GoOpenApi.Proofs.Text.Case

/-!
The paths of calls. All calls of a service have one path up to the last segment, which is the lower
camel case of the name of the method. What stands before it is the path for batches of calls.
-/

namespace GoOpenApi

namespace Go.IsIdentifier

variable {name : String} (h : IsIdentifier name)

include h

theorem lowerCamel_ne_empty : Text.lowerCamel name ≠ "" := by
  intro he
  have hl := congrArg (fun s : String ↦ s.toList.length) he
  simp [Text.lowerCamel, Text.length_lowerCamelList] at hl
  exact h.ne_empty hl

theorem slash_not_mem_lowerCamel : '/' ∉ (Text.lowerCamel name).toList := by
  rw [Text.lowerCamel, String.toList_ofList]
  exact Text.slash_not_mem_lowerCamelList (h.not_mem (by decide))

end Go.IsIdentifier

namespace Service

/-- Where the calls of a service are: their paths differ in the last segment only. -/
def RoutesCalls (s : Service) : Prop :=
  ∃ parts, ∀ m ∈ s.methods, Go.IsIdentifier m.name ∧ m.rpcPath = Route.join (parts ++ [m.camelName])

variable {p : Project} {s : Service} {d : InterfaceDecl} {package : String} {m m' : Endpoint}

theorem build_routesCalls (hd : ∀ m ∈ d.methods, Go.Plain m) :
    Tables.Gives p RoutesCalls (build p d package) := by
  refine (build_madeOf d package (Tables.methodsOf_gives d package hd)).imp fun s h ↦ ?_
  obtain ⟨-, ms, hms, hs⟩ := h
  refine ⟨[(Directives.parse d.docs).valueOr "http-prefix" "",
    (Directives.parse d.docs).valueOr "http-path" (Text.lowercase d.name)], fun o ho ↦ ?_⟩
  obtain ⟨m, hm, bindings, resultBindings, rfl⟩ := Endpoint.MadeOf.exists_of_mem hs ho
  exact ⟨(hms m hm).name, rfl⟩

theorem RoutesCalls.rpcPath_iff (h : s.RoutesCalls) (hm : m ∈ s.methods) (hm' : m' ∈ s.methods) :
    m.rpcPath = m'.rpcPath ↔ m.camelName = m'.camelName := by
  obtain ⟨parts, hp⟩ := h
  obtain ⟨hi, hm⟩ := hp m hm
  obtain ⟨hi', hm'⟩ := hp m' hm'
  rw [hm, hm']
  exact Route.join_concat_inj hi.slash_not_mem_lowerCamel hi.lowerCamel_ne_empty
    hi'.slash_not_mem_lowerCamel hi'.lowerCamel_ne_empty

theorem RoutesCalls.nodup_rpcPath_iff (h : s.RoutesCalls) :
    (s.methods.map (·.rpcPath)).Nodup ↔ (s.methods.map (·.camelName)).Nodup := by
  unfold List.Nodup
  rw [List.pairwise_map, List.pairwise_map]
  exact List.Pairwise.iff_of_mem fun hm hm' ↦ (h.rpcPath_iff hm hm').not

/-- What stands before the name of the method in the path of a call. -/
def callParts (s : Service) : List String :=
  [s.directives.valueOr "http-prefix" "", s.directives.valueOr "http-path" s.lowerName]

theorem batchPath_eq (s : Service) : s.batchPath = Route.join s.callParts := rfl

theorem rpcPath_of_build {t t' : Tables} (h : build p d package t = (.ok s, t'))
    (hm : m ∈ s.methods) : m.rpcPath = Route.join (s.callParts ++ [m.camelName]) := by
  obtain ⟨-, -, sigs, hs⟩ := build_ok h
  obtain ⟨sig, -, bindings, resultBindings, rfl⟩ := Endpoint.MadeOf.exists_of_mem hs hm
  rfl

end Service

/-- Every call is below the path for batches. Joining joined paths is joining their parts, and what
is joined begins with a slash and has no empty segment behind it. -/
theorem calls_below_batchPath (p : Project) :
    (∀ d package t s t', Service.build p d package t = (.ok s, t') → ∀ m ∈ s.methods,
      m.rpcPath = Route.join [s.batchPath, m.camelName] ∧
        s.batchPath.toList <+: m.rpcPath.toList ∧
        (Go.IsIdentifier m.name → m.rpcPath ≠ s.batchPath)) ∧
    (∀ parts parts' : List String,
      Route.join [Route.join parts, Route.join parts'] = Route.join (parts ++ parts')) ∧
    ∀ parts : List String, Route.IsNormal (Route.join parts).toList := by
  refine ⟨fun d package t s t' h m hm ↦ ?_, Route.join_append, Route.isNormal_join⟩
  rw [Service.rpcPath_of_build h hm, Service.batchPath_eq, Route.join_cons]
  refine ⟨rfl, Route.join_isPrefix _ _, fun hi ↦ ?_⟩
  exact Route.join_concat_ne hi.slash_not_mem_lowerCamel hi.lowerCamel_ne_empty _

/-- An interface whose directives have more slashes than its paths. -/
def spareSlashes : InterfaceDecl where
  name := "Users"
  docs := ["@tg http-prefix /api//v1/", "@tg http-path:users/,all"]
  methods := [⟨"GetUser", [], [], []⟩]
  embedded := []

theorem spareSlashes_calls_below :
    ∃ s t m, Service.build noFiles spareSlashes "m/service" .empty = (.ok s, t) ∧ m ∈ s.methods ∧
      s.batchPath = "/api/v1/users/,all" ∧ m.rpcPath = "/api/v1/users/,all/getUser" ∧
      m.rpcPath = Route.join [s.batchPath, m.camelName] := by
  obtain ⟨s, t, hr, hb⟩ := ok_of_map (a := Service.build noFiles spareSlashes "m/service")
    (t := .empty) (f := fun s ↦ (s.batchPath, s.methods.map (·.rpcPath)))
    (y := ("/api/v1/users/,all", ["/api/v1/users/,all/getUser"])) (by decide +kernel)
  obtain ⟨hbatch, hpaths⟩ := Prod.mk.inj hb
  obtain ⟨m, hm, hpath⟩ := List.map_eq_singleton_iff.mp hpaths
  have hm : m ∈ s.methods := hm ▸ List.mem_singleton_self m
  have h := (calls_below_batchPath noFiles).1 _ _ _ _ _ hr m hm
  exact ⟨s, t, m, hr, hm, hbatch, hpath, h.1⟩

end GoOpenApi
