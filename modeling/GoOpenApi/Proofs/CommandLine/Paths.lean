import GoOpenApi.Generation
import GoOpenApi.Proofs.Action

/-!
The paths that a command line gives. A value that is empty is refused, so every path has a text, and
so has that of the vendor directory of a run.
-/

namespace GoOpenApi

/-- A path, if there is one, has a text. -/
def HasText (path? : Option Path) : Prop := ∀ path ∈ path?, path.text ≠ ""

theorem HasText.getD {path? : Option Path} {p : Path} (h : HasText path?) (hp : p.text ≠ "") :
    (path?.getD p).text ≠ "" := by
  cases path? with
  | none => exact hp
  | some path => exact h path rfl

theorem Path.text_join_ne_empty (p : Path) {q : Path} (hq : q.text ≠ "") :
    (p.join q).text ≠ "" := by
  unfold Path.join
  split
  · exact hq
  · split <;> simp only [ne_eq, String.append_eq_empty_iff, hq, and_false, not_false_eq_true]

theorem Except.bind_eq_ok {ε α β : Type} {x : Except ε α} {f : α → Except ε β} {b : β}
    (h : (x >>= f) = .ok b) : ∃ a, x = .ok a ∧ f a = .ok b := by
  cases x with
  | ok a => exact ⟨a, rfl, h⟩
  | error fault => cases h

namespace CommandLine

variable {r r' : Reading} {path? : Option Path} {word : String}

/-- All paths that have been read have a text. -/
structure Reading.HasPaths (r : Reading) : Prop where
  services : HasText r.services?
  output : HasText r.settings.output?
  root : HasText r.settings.root?
  vendor : HasText r.settings.vendor?
  model : HasText r.settings.model?

namespace Reading

theorem hasText_of_once {old : Option Path} (h : once old (pathValue word) = .ok path?) :
    HasText path? := by
  unfold once pathValue at h
  split at h
  · cases h
  · split at h
    · cases h
    · rename_i hne
      cases h
      rintro path ⟨⟩
      simpa using hne

theorem HasPaths.fill (hp : r.HasPaths) {slot : Slot} (h : r.fill word slot = .ok r') :
    r'.HasPaths := by
  cases slot with
  | interface =>
    cases h
    exact ⟨hp.services, hp.output, hp.root, hp.vendor, hp.model⟩
  | format =>
    obtain ⟨format?, -, h⟩ := Except.bind_eq_ok h
    cases h
    exact ⟨hp.services, hp.output, hp.root, hp.vendor, hp.model⟩
  | services =>
    obtain ⟨path?, hpath, h⟩ := Except.bind_eq_ok h
    cases h
    exact ⟨hasText_of_once hpath, hp.output, hp.root, hp.vendor, hp.model⟩
  | output =>
    obtain ⟨path?, hpath, h⟩ := Except.bind_eq_ok h
    cases h
    exact ⟨hp.services, hasText_of_once hpath, hp.root, hp.vendor, hp.model⟩
  | root =>
    obtain ⟨path?, hpath, h⟩ := Except.bind_eq_ok h
    cases h
    exact ⟨hp.services, hp.output, hasText_of_once hpath, hp.vendor, hp.model⟩
  | vendor =>
    obtain ⟨path?, hpath, h⟩ := Except.bind_eq_ok h
    cases h
    exact ⟨hp.services, hp.output, hp.root, hasText_of_once hpath, hp.model⟩
  | model =>
    obtain ⟨path?, hpath, h⟩ := Except.bind_eq_ok h
    cases h
    exact ⟨hp.services, hp.output, hp.root, hp.vendor, hasText_of_once hpath⟩

/-- A reading with the same paths. -/
theorem HasPaths.of_eq (hp : r.HasPaths) (hs : r'.services? = r.services?)
    (h : r'.settings = r.settings) : r'.HasPaths :=
  ⟨hs ▸ hp.services, h ▸ hp.output, h ▸ hp.root, h ▸ hp.vendor, h ▸ hp.model⟩

theorem HasPaths.settle (hp : r.HasPaths) (h : r.settle = .ok r') : r'.HasPaths := by
  unfold Reading.settle at h
  split at h
  · cases h
    exact hp
  · cases h
  · have hp : HasPaths { r with waiting := none } := hp.of_eq rfl rfl
    exact hp.fill h

theorem HasPaths.press (hp : r.HasPaths) {switch : Switch} (h : r.press switch = .ok r') :
    r'.HasPaths := by
  obtain ⟨r₁, hr, h⟩ := Except.bind_eq_ok h
  have hp := hp.settle hr
  cases switch with
  | verbose =>
    dsimp only at h
    split at h
    · cases h
    · cases h
      exact ⟨hp.services, hp.output, hp.root, hp.vendor, hp.model⟩
  | help => cases h
  | version => cases h

theorem HasPaths.openSlot (hp : r.HasPaths) {slot : Slot} {value? : Option String}
    (h : r.openSlot slot value? = .ok r') : r'.HasPaths := by
  cases value? with
  | none =>
    obtain ⟨r₁, hr, h⟩ := Except.bind_eq_ok h
    cases h
    exact (hp.settle hr).of_eq rfl rfl
  | some value =>
    obtain ⟨r₁, hr, h⟩ := Except.bind_eq_ok h
    exact (hp.settle hr).fill h

theorem HasPaths.long (hp : r.HasPaths) {cs : List Char} (h : r.long cs = .ok r') :
    r'.HasPaths := by
  unfold Reading.long at h
  dsimp only at h
  split at h
  · cases h
  · exact hp.openSlot h
  · cases h
  · exact hp.press h

theorem HasPaths.short {cs : List Char} (hp : r.HasPaths) (h : Reading.short cs r = .ok r') :
    r'.HasPaths := by
  induction cs generalizing r with
  | nil =>
    cases h
    exact hp
  | cons c cs ih =>
    rw [Reading.short.eq_def] at h
    dsimp only at h
    split at h
    · cases h
    · obtain ⟨r₁, hr, h⟩ := Except.bind_eq_ok h
      exact ih (hp.press hr) h
    · exact hp.openSlot h

theorem HasPaths.operand (hp : r.HasPaths) (h : r.operand word = .ok r') : r'.HasPaths := by
  unfold Reading.operand at h
  split at h
  · cases h
  · obtain ⟨r₁, hr, h⟩ := Except.bind_eq_ok h
    cases h
    exact (hp.settle hr).of_eq rfl rfl

theorem HasPaths.operands {args : List String} (hp : r.HasPaths)
    (h : args.foldlM Reading.operand r = .ok r') : r'.HasPaths := by
  induction args generalizing r with
  | nil =>
    cases h
    exact hp
  | cons word args ih =>
    rw [List.foldlM_cons] at h
    obtain ⟨r₁, hr, h⟩ := Except.bind_eq_ok h
    exact ih (hp.operand hr) h

theorem HasPaths.plain (hp : r.HasPaths) (h : r.plain word = .ok r') : r'.HasPaths := by
  unfold Reading.plain at h
  split at h
  · cases h
    exact hp.of_eq rfl rfl
  · exact hp.operand h

theorem HasPaths.words {args : List String} (hp : r.HasPaths)
    (h : Reading.words args r = .ok r') : r'.HasPaths := by
  induction args generalizing r with
  | nil =>
    cases h
    exact hp
  | cons word args ih =>
    rw [Reading.words.eq_def] at h
    dsimp only at h
    split at h
    · exact hp.operands h
    · obtain ⟨r₁, hr, h⟩ := Except.bind_eq_ok h
      exact ih (hp.long hr) h
    · obtain ⟨r₁, hr, h⟩ := Except.bind_eq_ok h
      exact ih (hp.short hr) h
    · obtain ⟨r₁, hr, h⟩ := Except.bind_eq_ok h
      exact ih (hp.plain hr) h

end Reading

variable {args : List String} {o : Options} {t : FileTree} {env : Environment} {l : Layout}

theorem hasText_of_parse (h : parse args = .ok o) :
    o.services.text ≠ "" ∧ HasText o.output? ∧ HasText o.root? ∧ HasText o.vendor? ∧
      HasText o.model? := by
  obtain ⟨r, hr, h⟩ := Except.bind_eq_ok h
  obtain ⟨r', hr', h⟩ := Except.bind_eq_ok h
  have hnone : HasText none := fun _ hp ↦ by cases hp
  have hempty : Reading.HasPaths {} := ⟨hnone, hnone, hnone, hnone, hnone⟩
  have hp := (hempty.words hr).settle hr'
  split at h
  · rename_i services hs
    cases h
    exact ⟨hp.services services hs, hp.output, hp.root, hp.vendor, hp.model⟩
  · cases h

/-- The vendor directory of a run has a path with a text. -/
theorem vendorDir_ne_empty (hp : parse args = .ok o) (hl : o.layout t env = .ok l) :
    l.vendorDir.text ≠ "" := by
  obtain ⟨-, -, -, hvendor, -⟩ := hasText_of_parse hp
  have hdefault {root : Path} : (Layout.bare env root).vendorDir.text ≠ "" :=
    root.text_join_ne_empty (by decide)
  unfold Options.layout at hl
  split at hl
  · rename_i l₀ hd
    cases hl
    refine hvendor.getD ?_
    unfold Layout.discover at hd
    dsimp only at hd
    split at hd
    · cases hg : t.readText ((o.moduleRoot t).join ⟨"go.mod"⟩) with
      | error cause =>
        rw [hg] at hd
        cases hd
      | ok text =>
        rw [hg] at hd
        cases hd
        exact hdefault
    · cases hd
      exact hdefault
  · cases hl

end CommandLine

end GoOpenApi
