import GoOpenApi.Proofs.Module.History
import GoOpenApi.Proofs.Resolve.Order
import GoOpenApi.Proofs.Service.Related

/-!
A service does not depend on those that are loaded with it, nor on what was looked up before. A
filter with fewer names gives fewer services, and these are the same.
-/

namespace GoOpenApi

namespace Tables

variable {p : Project} {t : Tables}

/-- A call on a resolver of types or on its search. -/
inductive Request where
  | declare (q : QualifiedName)
  | resolve (query : Query)
  | follow (type : GoType) (package : String) (path : List String)
  | search (request : Sources.Request)
  | build (d : InterfaceDecl) (package : String)
  | load (dir : Path) (filter : List String)

/-- The tables after a call, whether it was answered or not. -/
def Request.after (p : Project) (t : Tables) : Request → Tables
  | .declare q => (declaration p q t).2
  | .resolve query => (query.run p t).2
  | .follow type package path => (nestedType p type package path t).2
  | .search request => { t with sources := request.after p t.sources }
  | .build d package => (Service.build p d package t).2
  | .load dir filter => (Service.load p dir filter t).2

def after (p : Project) (history : List Request) : Tables := history.foldl (Request.after p) .empty

theorem Query.run_finding (query : Query) :
    (finding p True).Relates (query.run p) (query.run p) := by
  cases query with
  | type type package => exact (resolve_finding type package).map Answer.shape
  | fields fields package => exact (resolveFields_finding fields package).map Answer.fields
  | declared q => exact (resolveDeclared_finding q).map Answer.body

theorem Found.request (ht : t.Found p) (request : Request) : (request.after p t).Found p := by
  have hfound {α : Type} {P : α → Prop} {a : Action Tables α} (h : (finding p True).Holds P a a) :
      (a t).2.Found p := finding_found h ht
  cases request with
  | declare q => exact hfound (declaration_finding q)
  | resolve query => exact hfound query.run_finding
  | follow type package path => exact hfound (nestedType_finding type package path)
  | search request => exact ⟨ht.sources.request request, ht.declarations⟩
  | build d package => exact hfound (Service.build_finding d package)
  | load dir filter => exact hfound (Service.load_finding dir filter)

theorem found_after (p : Project) (history : List Request) : (after p history).Found p :=
  List.foldlRecOn history _ (.empty p) fun _ ht request _ ↦ ht.request request

end Tables

namespace Service

variable {p : Project} {dir : Path} {names names' : List String} {services : List Service}

/-- Of services built one after the other those of some names are built without the others. -/
theorem buildAll_fewer_lockstep (package : String) (names : List String) (ds : List InterfaceDecl) :
    (Tables.lockstep p p False False).Relates
      (do return (← buildAll p package ds).filter fun s ↦ names.contains s.name)
      (buildAll p package (ds.filter fun d ↦ names.contains d.name)) := by
  induction ds with
  | nil => exact .pure _
  | cons d ds ih =>
    rw [buildAll, bind_assoc]
    simp only [bind_assoc, pure_bind, List.filter_cons]
    by_cases hd : names.contains d.name
    · rw [if_pos hd, buildAll]
      refine (Tables.lockstep p p False False).bind (build_lockstep d package) fun s hs ↦ ?_
      simp only [hs, hd, if_true]
      have ih := ih.map (List.cons s)
      rwa [bind_assoc] at ih
    · rw [if_neg hd]
      refine Tables.lockstep_skip id (build_finding d package) fun s hs ↦ ?_
      simp only [hs, hd, if_false, Bool.false_eq_true]
      exact ih

theorem isSelected_of_ne_nil (h : names ≠ []) (d : InterfaceDecl) :
    isSelected names d = names.contains d.name := by
  cases names with
  | nil => exact absurd rfl h
  | cons name names => rfl

/-- With fewer names to load, services are loaded as with more. -/
theorem load_fewer_lockstep (dir : Path) (hn : names ≠ []) (hs : names ⊆ names') :
    (Tables.lockstep p p False False).Relates
      (do return (← load p dir names').filter fun s ↦ names.contains s.name)
      (load p dir names) := by
  rw [load_eq, load_eq, bind_assoc]
  refine (Tables.contents_lockstep rfl).bind fun files ↦ ?_
  have hn' : names' ≠ [] := by
    rintro rfl
    exact hn (List.subset_nil.mp hs)
  have hd (d : InterfaceDecl) :
      isSelected names d = (names.contains d.name && isSelected names' d) := by
    rw [isSelected_of_ne_nil hn, isSelected_of_ne_nil hn']
    by_cases h : d.name ∈ names
    · simp [h, hs h]
    · simp [h]
  simp only [funext hd, ← List.filter_filter]
  exact buildAll_fewer_lockstep _ names _

/-- After any calls, answered or not, the services of some names are those that a load of more
names gives after any others, field by field and in the same order. -/
theorem load_of_fewer (history history' : List Tables.Request) (hn : names ≠ [])
    (hs : names ⊆ names') (h : (load p dir names' (Tables.after p history)).1 = .ok services) :
    (load p dir names (Tables.after p history')).1 =
      .ok (services.filter fun s ↦ names.contains s.name) := by
  rcases hr : load p dir names' (Tables.after p history) with ⟨answer, t⟩
  rw [hr] at h
  cases h
  have hl := load_fewer_lockstep (p := p) dir hn hs (Tables.after p history)
    (services.filter fun s ↦ names.contains s.name) t (Tables.found_after p history) (by
      rw [Action.run_bind, hr]
      rfl)
  obtain ⟨u, hu, -⟩ | ⟨h, -⟩ :=
    hl.2 _ (Tables.found_after p history') (fun h ↦ h.elim) fun _ _ ↦ rfl
  · rw [hu]
  · exact h.elim

/-- Two services, one with the methods of the other, and a package that cannot be read. -/
def embedding : Project :=
  let services := "package service\n\ntype A interface \x7b\n\tGet(id string) error\n\x7d\n\n" ++
    "type B interface \x7b\n\tA\n\tPut(id string) error\n\x7d\n"
  let files :=
    [(⟨"go.mod"⟩, .file (.text "module m\n")),
      (⟨"service/service.go"⟩, .file (.text services)),
      (⟨"broken/broken.go"⟩, .file (.text "package broken\n\ntype Broken struct \x7b\n"))]
  .of (.ofNodes ["tmp", "w"] files) (.ofGoMod {} ⟨"/tmp/w"⟩ (.parse "module m\n"))

theorem embedding_load_of_fewer : ∃ services,
    (load embedding ⟨"service"⟩ ["A", "B"] (Tables.after embedding [])).1 = .ok services ∧
      services.map (·.name) = ["A", "B"] ∧
      (load embedding ⟨"service"⟩ ["B"] (Tables.after embedding
        [.declare ⟨"m/broken", "Broken"⟩, .declare ⟨"m/service", "C"⟩])).1 =
          .ok (services.filter fun s ↦ ["B"].contains s.name) := by
  have hnames : ((load embedding ⟨"service"⟩ ["A", "B"] (Tables.after embedding [])).1.toOption.map
      fun services ↦ services.map (·.name)) = some ["A", "B"] := by decide +kernel
  obtain ⟨services, hs, hn⟩ := Option.map_eq_some_iff.mp hnames
  have hs := Sources.ok_of_toOption hs
  exact ⟨services, hs, hn, load_of_fewer [] _ (by simp) (by simp) hs⟩

end Service

end GoOpenApi
