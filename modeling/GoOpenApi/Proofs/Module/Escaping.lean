import GoOpenApi.Module.Layout
import GoOpenApi.Proofs.Text.Case
import GoOpenApi.Proofs.Text.Split
import Mathlib

/-!
Names in the module cache. A file system may ignore the case of ASCII letters; the names of two
modules are different all the same, because a path is escaped to one without capital letters and
can be read back from it.
-/

namespace GoOpenApi.Layout

variable {cs : List Char} {c : Char} {path : String} {r r' : Requirement}

/-- The name of the directory of a module in the cache. -/
def cachedName (r : Requirement) : String := escape r.path ++ "@" ++ r.version

theorem cachedDir_eq (cache : Path) (r : Requirement) :
    cachedDir cache r = cache.join ⟨cachedName r⟩ := rfl

/-- Reads an escaped path. A small letter behind an exclamation mark is a capital one, and no other
capital letters can stand in it. -/
def unescapeList : List Char → Option (List Char)
  | [] => some []
  | '!' :: c :: cs => if c.isLower then (unescapeList cs).map (c.toUpper :: ·) else none
  | c :: cs => if c = '!' || c.isUpper then none else (unescapeList cs).map (c :: ·)

def unescape? (name : String) : Option String :=
  (unescapeList name.toList).map String.ofList

/-- The signs that escaping and the version of a module need are not in the path. -/
def Escapable (path : String) : Prop := '!' ∉ path.toList ∧ '@' ∉ path.toList

instance : DecidablePred Escapable := fun _ ↦ inferInstanceAs (Decidable (_ ∧ _))

/-! ### Escaped paths -/

theorem escapeList_upper (h : c.isUpper) (cs : List Char) :
    escapeList (c :: cs) = '!' :: c.toLower :: escapeList cs := if_pos h

theorem escapeList_other (h : ¬c.isUpper) (cs : List Char) :
    escapeList (c :: cs) = c :: escapeList cs := if_neg h

theorem unescapeList_upper (h : c.isUpper) (cs : List Char) :
    unescapeList ('!' :: c.toLower :: cs) = (unescapeList cs).map (c :: ·) := by
  have hl : c.toLower.isLower := by
    rw [Char.isLower_toLower_eq_isAlpha, Char.isAlpha, h, Bool.true_or]
  have hc : c.toUpper = c := Char.toUpper_eq_of_not_isLower (Char.not_isLower_of_isUpper h)
  rw [unescapeList, if_pos hl, Char.toUpper_toLower_eq_toUpper, hc]

theorem unescapeList_other (h : ¬c.isUpper) (hc : c ≠ '!') (cs : List Char) :
    unescapeList (c :: cs) = (unescapeList cs).map (c :: ·) := by
  rw [unescapeList, if_neg (by simp [h, hc])]
  intro _ _ he
  exact absurd he hc

/-- An escaped path is read back. -/
theorem unescapeList_escapeList (h : '!' ∉ cs) : unescapeList (escapeList cs) = some cs := by
  induction cs with
  | nil => rfl
  | cons c cs ih =>
    have hc : c ≠ '!' := fun he ↦ h (by simp [he])
    have ih := ih fun hm ↦ h (List.mem_cons_of_mem _ hm)
    by_cases hu : c.isUpper
    · rw [escapeList_upper hu, unescapeList_upper hu, ih]
      rfl
    · rw [escapeList_other hu, unescapeList_other hu hc, ih]
      rfl

theorem not_isUpper_of_mem_escapeList (h : c ∈ escapeList cs) : ¬c.isUpper := by
  induction cs with
  | nil => cases h
  | cons d cs ih =>
    by_cases hu : d.isUpper
    · rw [escapeList_upper hu] at h
      obtain rfl | h := List.mem_cons.mp h
      · decide
      · obtain rfl | h := List.mem_cons.mp h
        · simp
        · exact ih h
    · rw [escapeList_other hu] at h
      obtain rfl | h := List.mem_cons.mp h
      · exact hu
      · exact ih h

theorem at_notMem_escapeList (h : '@' ∉ cs) : '@' ∉ escapeList cs := by
  induction cs with
  | nil => exact h
  | cons c cs ih =>
    obtain ⟨hc, hcs⟩ := List.ne_and_not_mem_of_not_mem_cons h
    by_cases hu : c.isUpper
    · have hl : '@' ≠ c.toLower := fun he ↦ hc (Text.eq_of_toLower_eq (by decide) he.symm).symm
      rw [escapeList_upper hu]
      simp [hl, ih hcs]
    · rw [escapeList_other hu]
      simp [hc, ih hcs]

theorem map_toLower_escapeList (cs : List Char) :
    (escapeList cs).map Char.toLower = escapeList cs := by
  refine (List.map_congr_left fun c hc ↦ ?_).trans (List.map_id _)
  exact Char.toLower_eq_of_not_isUpper (not_isUpper_of_mem_escapeList hc)

theorem eq_of_escapeList_eq {cs cs' : List Char} (h : '!' ∉ cs) (h' : '!' ∉ cs')
    (he : escapeList cs = escapeList cs') : cs = cs' := by
  have hread := unescapeList_escapeList h
  rw [he, unescapeList_escapeList h'] at hread
  exact (Option.some.inj hread).symm

/-! ### Names of directories -/

theorem toList_cachedName (r : Requirement) :
    (cachedName r).toList = escapeList r.path.toList ++ '@' :: r.version.toList := by
  simp [cachedName, escape]

theorem map_toLower_cachedName (r : Requirement) : (cachedName r).toList.map Char.toLower =
    escapeList r.path.toList ++ '@' :: r.version.toList.map Char.toLower := by
  have hat : Char.toLower '@' = '@' := rfl
  rw [toList_cachedName, List.map_append, map_toLower_escapeList, List.map_cons, hat]

/-- A path ends where the name has its first `@`. -/
theorem parts_of_cachedName {vs vs' : List Char} (h : Escapable r.path) (h' : Escapable r'.path)
    (he : escapeList r.path.toList ++ '@' :: vs = escapeList r'.path.toList ++ '@' :: vs') :
    r.path = r'.path ∧ vs = vs' := by
  have hcut := Text.cutList_eq_some_iff.mpr ⟨he, at_notMem_escapeList h'.2⟩
  rw [Text.cutList_eq_some_iff.mpr ⟨rfl, at_notMem_escapeList h.2⟩] at hcut
  obtain ⟨hescaped, hv⟩ := Prod.mk.inj (Option.some.inj hcut)
  exact ⟨String.toList_injective (eq_of_escapeList_eq h.1 h'.1 hescaped), hv⟩

/-- Names in the cache are equal, with or without regard to the case of letters, only if the paths
are. An escaped path has no capital letters, and the path is read back from it. -/
theorem cachedName_eq_iff (h : Escapable r.path) (h' : Escapable r'.path) :
    (Text.equalIgnoringAsciiCase (cachedName r) (cachedName r') ↔
      r.path = r'.path ∧ Text.equalIgnoringAsciiCase r.version r'.version) ∧
    (cachedName r = cachedName r' ↔ r = r') ∧
    (∀ c ∈ (escape r.path).toList, ¬c.isUpper) ∧
    unescape? (escape r.path) = some r.path := by
  have hescape : (escape r.path).toList = escapeList r.path.toList := String.toList_ofList
  refine ⟨?_, ?_, ?_, ?_⟩
  · rw [Text.equalIgnoringAsciiCase, Text.equalIgnoringAsciiCase, beq_iff_eq, beq_iff_eq,
      map_toLower_cachedName, map_toLower_cachedName]
    constructor
    · exact parts_of_cachedName h h'
    · intro ⟨hp, hv⟩
      rw [hp, hv]
  · constructor
    · intro he
      have hl := congrArg String.toList he
      rw [toList_cachedName, toList_cachedName] at hl
      obtain ⟨hp, hv⟩ := parts_of_cachedName h h' hl
      cases r
      cases r'
      exact (Requirement.mk.injEq _ _ _ _).mpr ⟨hp, String.toList_injective hv⟩
    · intro he
      rw [he]
  · rw [hescape]
    intro c hc
    exact not_isUpper_of_mem_escapeList hc
  · rw [unescape?, hescape, unescapeList_escapeList h.1, Option.map_some, String.ofList_toList]

/-- Two modules whose paths differ only in the case of letters. -/
def capitalModule : Requirement := ⟨"github.com/Azure/go-SDK", "v1.2.0-RC1"⟩

def smallModule : Requirement := ⟨"github.com/azure/go-sdk", "v1.2.0-rc1"⟩

theorem cachedName_capitalModule : Escapable capitalModule.path ∧ Escapable smallModule.path ∧
    Text.equalIgnoringAsciiCase capitalModule.path smallModule.path ∧
    cachedDir ⟨"/mod"⟩ capitalModule = ⟨"/mod/github.com/!azure/go-!s!d!k@v1.2.0-RC1"⟩ ∧
    ¬Text.equalIgnoringAsciiCase (cachedName capitalModule) (cachedName smallModule) ∧
    unescape? "github.com/!azure/go-!s!d!k" = some capitalModule.path := by
  have hc : Escapable capitalModule.path := by decide
  have hs : Escapable smallModule.path := by decide
  obtain ⟨heq, -, -, hread⟩ := cachedName_eq_iff hc hs
  have hname : cachedName capitalModule = "github.com/!azure/go-!s!d!k@v1.2.0-RC1" := by decide
  refine ⟨hc, hs, by decide, ?_, ?_, hread⟩
  · rw [cachedDir_eq, hname]
    decide
  · rw [heq]
    intro h
    exact absurd h.1 (by decide)

end GoOpenApi.Layout
