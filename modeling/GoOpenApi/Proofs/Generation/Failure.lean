import GoOpenApi.Generation
import GoOpenApi.Proofs.Files.Writing

/-!
What a run that fails leaves behind. Up to the first file that is written nothing happens to the
tree; a file that cannot be written leaves those that were written before it.
-/

namespace GoOpenApi

namespace FileTree

variable {t t' t'' : FileTree}

/-- The places to which the paths of some files lead. -/
def placesOf (t : FileTree) (outputs : List (Path × String)) : Set (List String) :=
  {place | ∃ entry ∈ outputs, ∃ n, t.locate entry.1 = .ok (place, n)}

/-- The places of directories above some files. -/
def aboveAll (t : FileTree) (outputs : List (Path × String)) : Set (List String) :=
  {place | ∃ entry ∈ outputs, place ∈ t.above entry.1}

/-- Each of the files has its text. -/
def HoldsAll (t : FileTree) (outputs : List (Path × String)) : Prop :=
  ∀ entry ∈ outputs, ∃ place, t.locate entry.1 = .ok (place, .file (.text entry.2))

end FileTree

namespace Run

variable {env : Environment} {o : CommandLine.Options} {t t' : FileTree} {fault : RunFault}

theorem write_cons (file : Path) (text : String) (rest : List (Path × String)) (t : FileTree) :
    write ((file, text) :: rest) t = match FileTree.save file text t with
      | (.ok _, t₁) => write rest t₁
      | (.error cause, t₁) => (.error (.write file cause), t₁) := by
  rw [write, Action.run_get_bind]
  rcases FileTree.save file text t with ⟨_ | _, t₁⟩ <;> rfl

theorem perform_eq (env : Environment) (o : CommandLine.Options) (t : FileTree) :
    perform env o t = match o.check t with
      | .error fault => (.error fault, t)
      | .ok _ => match Generation.generate t env o with
        | .error fault => (.error fault, t)
        | .ok g => write (g.outputs o) t := by
  rw [perform, Action.run_get_bind]
  cases o.check t with
  | error fault => rfl
  | ok _ =>
    simp only
    rw [produce, Action.run_get_bind]
    cases Generation.generate t env o <;> rfl

theorem write_error {outputs : List (Path × String)} (h : write outputs t = (.error fault, t')) :
    ∃ before file text after cause t₁, outputs = before ++ (file, text) :: after ∧
      fault = .write file cause ∧ write before t = (.ok (), t₁) ∧
      FileTree.save file text t₁ = (.error cause, t') := by
  induction outputs generalizing t with
  | nil => cases h
  | cons entry rest ih =>
    obtain ⟨file, text⟩ := entry
    rw [write_cons] at h
    rcases hs : FileTree.save file text t with ⟨cause | _, t₁⟩ <;> rw [hs] at h
    · cases h
      exact ⟨[], file, text, rest, cause, t, rfl, rfl, rfl, hs⟩
    · obtain ⟨before, file', text', after, cause, t₂, rfl, hf, hb, hs'⟩ := ih h
      refine ⟨(file, text) :: before, file', text', after, cause, t₂, rfl, hf, ?_, hs'⟩
      rw [write_cons, hs]
      exact hb

theorem length_outputs_le (g : Generation) (o : CommandLine.Options) :
    (g.outputs o).length ≤ 2 := by
  unfold Generation.outputs
  cases o.model? <;> simp

theorem addServices_error {p : Project} {services : List Service} {state : Builder × Generator}
    (h : Generation.addServices p services state = .error fault) :
    ∃ name cause, fault = .document name cause := by
  induction services generalizing state with
  | nil => cases h
  | cons s rest ih =>
    rw [Generation.addServices] at h
    split at h
    · exact ih h
    · cases h
      exact ⟨_, _, rfl⟩

theorem generate_error (h : Generation.generate t env o = .error fault) (file : Path)
    (cause : FileFault) : fault ≠ .write file cause := by
  rintro rfl
  rcases Except.bind_eq_error h with hl | ⟨l, -, h⟩
  · unfold CommandLine.Options.layout at hl
    split at hl <;> cases hl
  · dsimp only at h
    split at h
    · cases h
    · cases h
    · rcases Except.bind_eq_error h with ha | ⟨state, -, h⟩
      · obtain ⟨name, cause', hf⟩ := addServices_error ha
        cases hf
      · cases h

theorem check_error (h : o.check t = .error fault) (file : Path) (cause : FileFault) :
    fault ≠ .write file cause := by
  rintro rfl
  unfold CommandLine.Options.check at h
  simp only [Except.throw_eq, Except.error_bind, Except.pure_eq] at h
  repeat' split at h
  all_goals cases h

/-- A file that cannot be written, after one other at most, leaves the text of the other and new
directories above the two. -/
theorem written_before_failing {before : List (Path × String)} {file : Path} {text : String}
    {cause : FileFault} {t₁ : FileTree} (hlen : before.length ≤ 1)
    (hb : write before t = (.ok (), t₁)) (hs : FileTree.save file text t₁ = (.error cause, t')) :
    t'.HoldsAll before ∧
      t.Written (t'.placesOf before) (t'.aboveAll (before ++ [(file, text)])) t' := by
  have hw := FileTree.save_error hs
  match before, hlen, hb with
  | [], _, hb =>
    cases hb
    refine ⟨fun _ he ↦ absurd he List.not_mem_nil, hw.mono (Set.empty_subset _) ?_⟩
    exact fun place hp ↦ ⟨(file, text), List.mem_singleton_self _, hp⟩
  | [(first, firstText)], _, hb =>
    rw [write_cons] at hb
    rcases hf : FileTree.save first firstText t with ⟨_ | _, t₂⟩ <;> rw [hf] at hb
    · cases hb
    · cases hb
      obtain ⟨place, name, -, hl, hw₁⟩ := FileTree.save_ok hf
      have hl' := hw.locate_file hl (Set.notMem_empty (place ++ [name]))
      refine ⟨fun entry he ↦ ⟨place ++ [name], List.mem_singleton.mp he ▸ hl'⟩, ?_⟩
      refine (hw₁.mono ?_ ?_).trans (hw.mono (Set.empty_subset _) ?_)
      · rintro _ rfl
        exact ⟨(first, firstText), List.mem_singleton_self _, _, hl'⟩
      · exact fun place hp ↦ ⟨(first, firstText), List.mem_cons_self, hw.passed_subset _ hp⟩
      · exact fun place hp ↦ ⟨(file, text), List.mem_cons_of_mem _ List.mem_cons_self, hp⟩

/-- A run that fails otherwise than in writing a file leaves the tree as it was. If a file cannot be
written, the files before it have been: these have their texts, no other file is new or changed, and
the only new directories are above them and above the one that could not be written. -/
theorem failed_run_keeps_files (h : perform env o t = (.error fault, t')) :
    ((∀ file cause, fault ≠ .write file cause) → t' = t) ∧
      ∀ file cause, fault = .write file cause → ∃ g before text after,
        Generation.generate t env o = .ok g ∧
        g.outputs o = before ++ (file, text) :: after ∧
        t'.HoldsAll before ∧
        t.Written (t'.placesOf before) (t'.aboveAll (before ++ [(file, text)])) t' := by
  rw [perform_eq] at h
  cases hc : o.check t with
  | error fault' =>
    rw [hc] at h
    cases h
    exact ⟨fun _ ↦ rfl, fun file cause hf ↦ absurd hf (check_error hc file cause)⟩
  | ok _ =>
    rw [hc] at h
    cases hg : Generation.generate t env o with
    | error fault' =>
      rw [hg] at h
      cases h
      exact ⟨fun _ ↦ rfl, fun file cause hf ↦ absurd hf (generate_error hg file cause)⟩
    | ok g =>
      rw [hg] at h
      obtain ⟨before, file, text, after, cause, t₁, ho, rfl, hb, hs⟩ := write_error h
      have hlen : before.length ≤ 1 := by
        have hle := length_outputs_le g o
        rw [ho, List.length_append, List.length_cons] at hle
        omega
      refine ⟨fun hf ↦ absurd rfl (hf file cause), ?_⟩
      rintro _ _ ⟨⟩
      exact ⟨g, before, text, after, rfl, ho, written_before_failing hlen hb hs⟩

/-- A service without methods beside an empty file whose name is that of the directory for the
services as JSON. -/
def blocked : FileTree :=
  let service := "package service\n\n// @tg x\ntype A interface \x7b\x7d\n"
  .ofNodes ["tmp", "w"] [(⟨"go.mod"⟩, .file (.text "module m\n")),
    (⟨"service/service.go"⟩, .file (.text service)), (⟨"blocked"⟩, .file (.text ""))]

def intoBlocked : CommandLine.Options where
  services := ⟨"service"⟩
  output? := some ⟨"api.yaml"⟩
  model? := some ⟨"blocked/model.json"⟩

/-- The document is there although the services could not be written. -/
def writesBeforeFailing : Bool :=
  match perform {} intoBlocked blocked with
  | (.error (.write _ _), t') =>
    (blocked.root.at? ["tmp", "w", "api.yaml"]).isNone &&
      (t'.root.at? ["tmp", "w", "api.yaml"]).isSome
  | _ => false

set_option maxRecDepth 20000 in
theorem writesBeforeFailing_eq : writesBeforeFailing = true := by decide +kernel

theorem blocked_fails : ∃ file cause t', perform {} intoBlocked blocked =
    (.error (.write file cause), t') ∧ blocked.root.at? ["tmp", "w", "api.yaml"] = none ∧
      t'.root.at? ["tmp", "w", "api.yaml"] ≠ none := by
  have h := writesBeforeFailing_eq
  unfold writesBeforeFailing at h
  split at h
  · rename_i file cause t' hr
    rw [Bool.and_eq_true, Option.isNone_iff_eq_none, Option.isSome_iff_ne_none] at h
    exact ⟨file, cause, t', hr, h⟩
  · cases h

theorem failed_run_may_write :
    ¬∀ env o t fault t', perform env o t = (.error fault, t') → t' = t := by
  intro h
  obtain ⟨file, cause, t', hr, hn, hs⟩ := blocked_fails
  rw [h _ _ _ _ _ hr] at hs
  exact hs hn

theorem blocked_keeps_files : ∃ file cause t' g before text after,
    perform {} intoBlocked blocked = (.error (.write file cause), t') ∧
      Generation.generate blocked {} intoBlocked = .ok g ∧
      g.outputs intoBlocked = before ++ (file, text) :: after ∧
      t'.HoldsAll before ∧
      blocked.Written (t'.placesOf before) (t'.aboveAll (before ++ [(file, text)])) t' := by
  obtain ⟨file, cause, t', hr, -, -⟩ := blocked_fails
  obtain ⟨g, before, text, after, h⟩ := (failed_run_keeps_files hr).2 file cause rfl
  exact ⟨file, cause, t', g, before, text, after, hr, h⟩

end Run

end GoOpenApi
