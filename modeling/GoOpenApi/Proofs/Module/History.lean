import GoOpenApi.Proofs.Files.Order
import GoOpenApi.Proofs.Module.Search

/-!
The search behind a cache gives, after any requests, what a search of the files themselves gives:
the first file that declares the name counts, and the files after it do not matter.
-/

namespace GoOpenApi

section

variable {look : α → Option (Option β)} {as : List α}

/-- The places before the first one that says something. -/
def silent (look : α → Option (Option β)) (as : List α) : List α :=
  as.takeWhile fun a ↦ (look a).join.isNone

theorem firstFound_of_readable (h : ∀ a ∈ silent look as, look a ≠ none) :
    firstFound look as =
      some ((as.find? fun a ↦ (look a).join.isSome).bind fun a ↦ (look a).join) := by
  induction as with
  | nil => rfl
  | cons a as ih =>
    rcases hl : look a with _ | _ | b
    · have ha : a ∈ silent look (a :: as) := by simp [silent, hl]
      exact absurd hl (h a ha)
    · have ih := ih fun a' ha' ↦ h a' (by simp [silent, hl]; exact .inr ha')
      simpa [firstFound, hl] using ih
    · simp [firstFound, hl]

theorem firstFound_eq_none_iff :
    firstFound look as = none ↔ ∃ a ∈ silent look as, look a = none := by
  constructor
  · intro h
    by_contra hn
    rw [firstFound_of_readable (by simpa using hn)] at h
    cases h
  · rintro ⟨a', ha', hn⟩
    induction as with
    | nil => cases ha'
    | cons a as ih =>
      rcases hl : look a with _ | _ | b
      · exact firstFound_of_fault hl
      · have hne : a' ≠ a := fun h ↦ by simp [← h, hn] at hl
        have ha' : a' ∈ silent look as := by simpa [silent, hl, hne] using ha'
        rw [firstFound_of_nothing hl, ih ha']
      · simp [silent, hl] at ha'

theorem takeWhile_prefix_of_find? {f : α → Option β} {a : α}
    (h : as.find? (fun a ↦ (f a).isSome) = some a) :
    (∃ b, f a = some b) ∧ as.takeWhile (fun a ↦ (f a).isNone) ++ [a] <+: as := by
  refine ⟨Option.isSome_iff_exists.mp (by simpa using List.find?_some h), ?_⟩
  induction as with
  | nil => cases h
  | cons a' as ih =>
    cases ha : f a' with
    | none =>
      rw [List.find?_cons_of_neg (by simp [ha])] at h
      rw [List.takeWhile_cons_of_pos (by simp [ha]), List.cons_append]
      exact (List.prefix_cons_inj a').mpr (ih h)
    | some b =>
      rw [List.find?_cons_of_pos (by simp [ha])] at h
      cases h
      simp [ha]

theorem firstFound_stops {look' : α → Option (Option β)} {as' pre : List α} {a : α} {b : β}
    (ha : look a = some (some b)) (hl : ∀ a' ∈ pre ++ [a], look' a' = look a')
    (hs : pre ++ [a] <+: as) (hs' : pre ++ [a] <+: as') :
    firstFound look' as' = firstFound look as := by
  obtain ⟨rest, rfl⟩ := hs
  obtain ⟨rest', rfl⟩ := hs'
  have ha' : look' a = some (some b) := (hl a (by simp)).trans ha
  induction pre with
  | nil =>
    rw [List.nil_append, List.singleton_append, List.singleton_append, firstFound_of_found ha,
      firstFound_of_found ha']
  | cons c pre ih =>
    have hc : look' c = look c := hl c (by simp)
    have ih := ih fun a' h ↦ hl a' (List.mem_cons_of_mem _ h)
    simp only [List.cons_append, firstFound, hc] at ih ⊢
    rw [ih]

end

namespace FileTree

variable {t : FileTree}

/-- A file can be read and parsed. -/
def isReadable (t : FileTree) (file : Path) : Bool := (t.source file).toOption.isSome

/-- What a file declares under a name. -/
def declaring? (t : FileTree) (name : String) (file : Path) : Option Declaration :=
  (t.source file).toOption.bind (·.find? name)

theorem declaredAt_join (name : String) (file : Path) :
    (t.declaredAt name file).join = t.declaring? name file := by
  unfold declaredAt declaring?
  cases (t.source file).toOption <;> rfl

theorem Ordered.goNames (h : t.Ordered) (dir : Path) : (t.goNames dir).Pairwise (· < ·) := by
  refine List.Pairwise.filter _ ?_
  unfold namesIn
  split
  · rename_i place entries hl
    obtain ⟨-, -, hn, -⟩ := locate_ok_iff.mp hl
    cases Node.Ordered.at? h hn with
    | dir order below => exact order.keys
  · exact List.Pairwise.nil

end FileTree

namespace Project

variable (p : Project) (q : QualifiedName) (e : SearchStep × Path)

theorem foundIn_join : (p.foundIn q e).join =
    (p.files.declaring? q.name e.2).map (·, e.1, e.2.components) := by
  rw [foundIn, ← FileTree.declaredAt_join]
  cases p.files.declaredAt q.name e.2 <;> rfl

theorem foundIn_eq_none_iff : p.foundIn q e = none ↔ ¬p.files.isReadable e.2 := by
  simp [foundIn, FileTree.declaredAt, FileTree.isReadable]

end Project

/-- What a search gives, with the file as a place. -/
structure Finding where
  declaration : Declaration
  place : List Path.Component
  step : SearchStep
  attempted : List SearchStep

def Located.finding (l : Located) : Finding :=
  ⟨l.declaration, l.file.components, l.step, l.attempted⟩

/-- The steps up to and including a step. -/
def SearchStep.upTo (step : SearchStep) : List SearchStep :=
  SearchStep.all.takeWhile (· ≠ step) ++ [step]

namespace Sources

inductive Request where
  | locate (name package : String)
  | list (dir : Path)

variable (p : Project)

/-- What has been read after a request, whether it was answered or not. -/
def Request.after (s : Sources) : Request → Sources
  | .locate name package => (Sources.locate p.files p.layout name package s).2
  | .list dir => (Sources.package p.files dir s).2

def after (history : List Request) : Sources := history.foldl (Request.after p) empty

/-- The answer to a search after a history of requests. -/
def answerAfter (history : List Request) (name package : String) : Except Fault (Option Located) :=
  (locate p.files p.layout name package (after p history)).1

variable {p} {s : Sources}

theorem Faithful.request (h : s.Faithful p.files) (r : Request) :
    (r.after p s).Faithful p.files := by
  cases r with
  | locate name package =>
    have h := locate_spec p ⟨package, name⟩ s h
    simp only [Request.after]
    split at h <;> simp_all
  | list dir =>
    have h := package_spec dir s h
    simp only [Request.after]
    split at h <;> simp_all

theorem faithful_after (history : List Request) : (after p history).Faithful p.files :=
  List.foldlRecOn history _ (.empty _) fun _ hs r _ ↦ hs.request r

theorem ok_of_toOption {answer : Except Fault α} {a : α} (h : answer.toOption = some a) :
    answer = .ok a := by
  cases answer with
  | ok a' => exact congrArg _ (Option.some.inj h)
  | error fault => cases h

variable (p)

/-- A search finds what the files say, whatever was requested before. -/
theorem answerAfter_eq (history : List Request) (name package : String) :
    (answerAfter p history name package).toOption.map (·.map Located.finding) =
      (firstFound (p.foundIn ⟨package, name⟩) (p.searched package)).map
        (·.map fun (d, step, place) ↦ ⟨d, place, step, step.upTo⟩) := by
  have h := locate_spec p ⟨package, name⟩ _ (faithful_after history)
  unfold answerAfter
  split at h
  · rename_i found s hr
    obtain ⟨-, ha, hf⟩ := h
    rw [hr, hf]
    cases found with
    | none => rfl
    | some l =>
      have ha : l.attempted = l.step.upTo := by simpa [SearchStep.upTo] using (ha l rfl).attempted
      simp [Except.toOption, Located.finding, ha]
  · rename_i fault s hr
    rw [hr, h.2.2]
    rfl

theorem exists_fault_iff (history : List Request) (name package : String) :
    (∃ fault, answerAfter p history name package = .error fault) ↔
      firstFound (p.foundIn ⟨package, name⟩) (p.searched package) = none := by
  rw [← Option.map_eq_none_iff, ← answerAfter_eq p history name package, Option.map_eq_none_iff]
  cases answerAfter p history name package <;> simp [Except.toOption]

theorem exists_answer {found : Option (Declaration × SearchStep × List Path.Component)}
    (history : List Request) {name package : String}
    (h : firstFound (p.foundIn ⟨package, name⟩) (p.searched package) = some found) :
    ∃ located?, answerAfter p history name package = .ok located? ∧
      located?.map Located.finding =
        found.map fun (d, step, place) ↦ ⟨d, place, step, step.upTo⟩ := by
  have heq := answerAfter_eq p history name package
  rw [h, Option.map_some] at heq
  obtain ⟨located?, hl, hf⟩ := Option.map_eq_some_iff.mp heq
  exact ⟨located?, ok_of_toOption hl, hf⟩

/-- Another project whose files are the same up to the first declaration of a name gives the same
answer to a search for it. -/
theorem answer_eq_of_prefix {p' : Project} {history history' : List Request} {name package : String}
    {before : List (SearchStep × Path)} {e : SearchStep × Path} {d : Declaration}
    (hd : p.files.declaring? name e.2 = some d) (hs : before ++ [e] <+: p.searched package)
    (hs' : before ++ [e] <+: p'.searched package)
    (hl : ∀ e' ∈ before ++ [e], p'.files.source e'.2 = p.files.source e'.2) :
    (answerAfter p' history' name package).toOption.map (·.map Located.finding) =
      (answerAfter p history name package).toOption.map (·.map Located.finding) := by
  have hfound : p.foundIn ⟨package, name⟩ e = some (some (d, e.1, e.2.components)) := by
    rw [← Option.join_eq_some_iff, p.foundIn_join]
    exact congrArg _ hd
  have hl' : ∀ e' ∈ before ++ [e],
      p'.foundIn ⟨package, name⟩ e' = p.foundIn ⟨package, name⟩ e' := by
    intro e' he'
    rw [Project.foundIn, Project.foundIn, FileTree.declaredAt, FileTree.declaredAt, hl e' he']
  rw [answerAfter_eq, answerAfter_eq, firstFound_stops hfound hl' hs hs']

theorem fault_names_search {history : List Request} {name package : String} {fault : Fault}
    (h : answerAfter p history name package = .error fault) :
    ∃ cause, fault = .search package name cause := by
  have hs := locate_spec p ⟨package, name⟩ _ (faithful_after history)
  unfold answerAfter at h
  split at hs
  · simp_all
  · rename_i hr
    rw [hr] at h
    cases h
    exact hs.2.1

/-- After any history of requests a search behaves like one in the files themselves. It gives the
first declaration of the name, over the steps in their order and the files of each in the order
of their names; it fails, naming what was searched, exactly if a file before that cannot be read;
and no file after it matters. -/
theorem locate_first_match (hp : p.files.Ordered) (history : List Request)
    (name package : String) :
    let answer := answerAfter p history name package
    let declares (e : SearchStep × Path) := p.files.declaring? name e.2
    let before := (p.searched package).takeWhile fun e ↦ (declares e).isNone
    let first := (p.searched package).find? fun e ↦ (declares e).isSome
    (∀ dir, (p.files.goNames dir).Pairwise (· < ·)) ∧
    ((∃ fault, answer = .error fault) ↔ ∃ e ∈ before, ¬p.files.isReadable e.2) ∧
    (∀ fault, answer = .error fault → ∃ cause, fault = .search package name cause) ∧
    ((∀ e ∈ before, p.files.isReadable e.2) →
      (∀ e ∈ first, ∃ located, answer = .ok (some located) ∧
        declares e = some located.declaration ∧ located.file.components = e.2.components ∧
        located.step = e.1 ∧ located.attempted = e.1.upTo) ∧
      (first = none → answer = .ok none)) ∧
    ∀ e ∈ first, ∀ (p' : Project) (history' : List Request),
      before ++ [e] <+: p'.searched package →
      (∀ e' ∈ before ++ [e], p'.files.source e'.2 = p.files.source e'.2) →
      (answerAfter p' history' name package).toOption.map (·.map Located.finding) =
        answer.toOption.map (·.map Located.finding) := by
  intro answer declares before first
  have hbefore : silent (p.foundIn ⟨package, name⟩) (p.searched package) = before := by
    simp only [silent, p.foundIn_join, Option.isNone_map, before, declares]
  refine ⟨hp.goNames, ?_, fun fault h ↦ fault_names_search p h, fun hr ↦ ?_,
    fun e he p' history' hs' hl ↦ ?_⟩
  · rw [exists_fault_iff, firstFound_eq_none_iff, hbefore]
    simp only [p.foundIn_eq_none_iff]
  · have hfirst : firstFound (p.foundIn ⟨package, name⟩) (p.searched package) =
        some (first.bind fun e ↦ (declares e).map (·, e.1, e.2.components)) := by
      rw [firstFound_of_readable]
      · simp only [p.foundIn_join, Option.isSome_map, first, declares]
      · rw [hbefore]
        exact fun e he hn ↦ (p.foundIn_eq_none_iff _ _).mp hn (hr e he)
    obtain ⟨located?, hanswer, hf⟩ := exists_answer p history hfirst
    refine ⟨fun e he ↦ ?_, fun he ↦ ?_⟩
    · obtain ⟨⟨d, hd⟩, -⟩ := takeWhile_prefix_of_find? (f := declares) he
      rw [he, Option.bind_some, hd] at hf
      obtain ⟨located, rfl, hl⟩ := Option.map_eq_some_iff.mp hf
      obtain ⟨hdecl, hplace, hstep, hattempted⟩ := Finding.mk.inj hl
      exact ⟨located, hanswer, hd.trans (congrArg _ hdecl.symm), hplace, hstep, hattempted⟩
    · rw [he] at hf
      exact hanswer.trans (congrArg _ (Option.map_eq_none_iff.mp hf))
  · obtain ⟨⟨d, hd⟩, hs⟩ := takeWhile_prefix_of_find? (f := declares) he
    exact answer_eq_of_prefix p hd hs hs' hl

/-- A package whose last file is no Go. -/
def brokenBehind : Project :=
  let files :=
    [(⟨"go.mod"⟩, .file (.text "module m\n")),
      (⟨"models/a.go"⟩, .file (.text "package models\n\ntype User struct\x7b\x7d\n")),
      (⟨"models/z.go"⟩, .file (.text "package models\n\ntype Broken struct \x7b\n"))]
  .of (.ofNodes ["tmp", "w"] files) (.ofGoMod {} ⟨"/tmp/w"⟩ (.parse "module m\n"))

/-- Requests that fail at the broken file leave the search for what stands before it as it was. -/
theorem brokenBehind_first_match :
    brokenBehind.files.Ordered ∧ ∃ located,
      answerAfter brokenBehind [.list ⟨"/tmp/w/models"⟩, .locate "Other" "m/models"] "User"
        "m/models" = .ok (some located) ∧
      located.file.components = (Path.mk "/tmp/w/models/a.go").components ∧
      located.step = .moduleMapping ∧ located.attempted = [.packageDir, .moduleMapping] := by
  have ho : brokenBehind.files.Ordered :=
    FileTree.ordered_ofNodes _ _ (by simp [Node.Ordered.file])
  have hf : (brokenBehind.searched "m/models").find?
      (fun e ↦ (brokenBehind.files.declaring? "User" e.2).isSome) =
        some (.moduleMapping, ⟨"/tmp/w/models/a.go"⟩) := by decide +kernel
  have hr : ∀ e ∈ (brokenBehind.searched "m/models").takeWhile
      (fun e ↦ (brokenBehind.files.declaring? "User" e.2).isNone),
      brokenBehind.files.isReadable e.2 := by decide +kernel
  have h := locate_first_match brokenBehind ho
    [.list ⟨"/tmp/w/models"⟩, .locate "Other" "m/models"] "User" "m/models"
  obtain ⟨located, ha, -, hc, hs, hu⟩ := (h.2.2.2.1 hr).1 _ hf
  exact ⟨ho, located, ha, hc, hs, hu⟩

end Sources

end GoOpenApi
