import GoOpenApi.Module.Layout
import GoOpenApi.Proofs.Text.Split
import Mathlib.Data.List.Induction
import Mathlib.Data.List.Nodup
import Mathlib.Tactic.Common

/-!
The module that a package is mapped into. It is the longest one that covers the package; two modules
of the same length that cover it are the same, so their order in `go.mod` does not matter.
-/

namespace GoOpenApi

namespace Text

theorem dropStart?_eq_some_iff {head s rest : String} :
    dropStart? head s = some rest ↔ s = head ++ rest := by
  rw [dropStart?, Option.map_eq_some_iff, ← String.toList_inj, String.toList_append]
  constructor
  · rintro ⟨left, h, rfl⟩
    rw [String.toList_ofList, dropHead_eq_some_iff.mp h]
  · intro h
    exact ⟨rest.toList, dropHead_eq_some_iff.mpr h, String.ofList_toList⟩

end Text

namespace Layout

variable {α : Type} {path : α → String} {as bs : List α} {a : α} {l : Layout}
  {module module' package below below' : String}

/-- The package is the module itself, or stands below it after a slash. -/
def Covers (module package below : String) : Prop :=
  package = module ∧ below = "" ∨ package = module ++ "/" ++ below

theorem belowModule?_eq_some_iff :
    belowModule? module package = some below ↔ Covers module package below := by
  unfold belowModule? Covers
  split
  · rename_i he
    have hne : module ≠ module ++ "/" ++ below := by
      intro h
      have hl := congrArg String.length h
      simp only [String.length_append] at hl
      have hslash : "/".length = 1 := rfl
      omega
    simp [he, hne, eq_comm]
  · rename_i he
    simp [he, Option.bind_eq_some_iff, Text.dropStart?_eq_some_iff, String.append_assoc]

theorem Covers.toList_prefix (h : Covers module package below) :
    module.toList <+: package.toList := by
  rcases h with ⟨rfl, -⟩ | rfl
  · exact List.prefix_rfl
  · rw [String.append_assoc, String.toList_append]
    exact List.prefix_append _ _

/-- Of two modules that cover a package the longer one begins with the shorter one. -/
theorem Covers.length_lt (h : Covers module package below) (h' : Covers module' package below')
    (hs : module.utf8ByteSize ≤ module'.utf8ByteSize) (hne : module ≠ module') :
    module.length < module'.length := by
  rcases List.prefix_or_prefix_of_prefix h.toList_prefix h'.toList_prefix with hp | hp
  · refine Nat.lt_of_le_of_ne hp.length_le fun hl ↦ hne ?_
    exact String.toList_injective (hp.eq_of_length hl)
  · obtain ⟨rest, hr⟩ := hp
    have hm : module = module' ++ String.ofList rest := by
      rw [← String.toList_inj, String.toList_append, String.toList_ofList, hr]
    rw [hm, String.utf8ByteSize_append] at hs
    have hrest : String.ofList rest = "" := String.utf8ByteSize_eq_zero_iff.mp (by omega)
    rw [hm, hrest, String.append_empty] at hne
    exact absurd rfl hne

/-! ### The longest of several -/

theorem longest_concat (path : α → String) (as : List α) (a : α) :
    longest path (as ++ [a]) = match longest path as with
      | some b => if (path a).utf8ByteSize < (path b).utf8ByteSize then some b else some a
      | none => some a := by
  rw [longest, List.foldl_append]
  rfl

theorem longest_eq_none_iff : longest path as = none ↔ as = [] := by
  induction as using List.reverseRecOn with
  | nil => simp [longest]
  | append_singleton as a ih =>
    rw [longest_concat]
    split
    · split <;> simp
    · simp

theorem longest_max (h : longest path as = some a) :
    a ∈ as ∧ ∀ b ∈ as, (path b).utf8ByteSize ≤ (path a).utf8ByteSize := by
  induction as using List.reverseRecOn generalizing a with
  | nil => simp [longest] at h
  | append_singleton as last ih =>
    simp only [List.mem_append, List.mem_singleton]
    rw [longest_concat] at h
    split at h
    · rename_i b hb
      obtain ⟨hm, hmax⟩ := ih hb
      split at h
      · cases h
        refine ⟨.inl hm, ?_⟩
        rintro c (hc | rfl)
        · exact hmax c hc
        · omega
      · cases h
        refine ⟨.inr rfl, ?_⟩
        rintro c (hc | rfl)
        · exact Nat.le_trans (hmax c hc) (by omega)
        · exact Nat.le_refl _
    · rename_i hn
      rw [longest_eq_none_iff.mp hn]
      cases h
      simp

/-- Where no two have the same length, their order does not matter. -/
theorem longest_perm (h : bs.Perm as)
    (hinj : ∀ a ∈ as, ∀ b ∈ as, (path a).utf8ByteSize = (path b).utf8ByteSize → a = b) :
    longest path bs = longest path as := by
  cases ha : longest path as with
  | none =>
    rw [longest_eq_none_iff.mp ha] at h
    rw [longest_eq_none_iff, h.eq_nil]
  | some a =>
    obtain ⟨hm, hmax⟩ := longest_max ha
    cases hb : longest path bs with
    | none =>
      rw [longest_eq_none_iff.mp hb, List.nil_perm] at h
      simp [h] at hm
    | some b =>
      obtain ⟨hm', hmax'⟩ := longest_max hb
      have hle := hmax b (h.mem_iff.mp hm')
      have hge := hmax' a (h.mem_iff.mpr hm)
      rw [hinj b (h.mem_iff.mp hm') a hm (by omega)]

/-! ### Modules that cover a package -/

/-- The entries for modules that cover a package. -/
def covering (path : α → String) (package : String) (as : List α) : List α :=
  as.filter fun a ↦ (belowModule? (path a) package).isSome

theorem mem_covering :
    a ∈ covering path package as ↔ a ∈ as ∧ ∃ below, Covers (path a) package below := by
  simp only [covering, List.mem_filter, Option.isSome_iff_exists, belowModule?_eq_some_iff]

theorem longest_covering_perm (package : String) (h : bs.Perm as) (hn : (as.map path).Nodup) :
    longest path (covering path package bs) = longest path (covering path package as) := by
  refine longest_perm (h.filter _) fun a ha b hb hs ↦ ?_
  obtain ⟨ha, below, hc⟩ := mem_covering.mp ha
  obtain ⟨hb, below', hc'⟩ := mem_covering.mp hb
  refine List.inj_on_of_nodup_map hn ha hb ?_
  by_contra hne
  have hlt := hc.length_lt hc' (Nat.le_of_eq hs) hne
  have hgt := hc'.length_lt hc (Nat.le_of_eq hs.symm) (Ne.symm hne)
  omega

/-- The module is longer than every other one of a list that covers the package. -/
structure IsLongest (modules : List String) (package module below : String) : Prop where
  mem : module ∈ modules
  covers : Covers module package below
  longer : ∀ other ∈ modules, ∀ left, Covers other package left → other ≠ module →
    other.length < module.length

/-- No module of a list covers the package. -/
def Uncovered (modules : List String) (package : String) : Prop :=
  ∀ module ∈ modules, ∀ below, ¬Covers module package below

theorem uncovered_of_longest (h : longest path (covering path package as) = none) :
    Uncovered (as.map path) package := by
  intro module hm below hc
  obtain ⟨a, ha, rfl⟩ := List.mem_map.mp hm
  have hcovering := longest_eq_none_iff.mp h
  have hmem : a ∈ covering path package as := mem_covering.mpr ⟨ha, below, hc⟩
  rw [hcovering] at hmem
  cases hmem

theorem isLongest_of_longest (h : longest path (covering path package as) = some a) :
    a ∈ as ∧ ∃ below, belowModule? (path a) package = some below ∧
      IsLongest (as.map path) package (path a) below := by
  obtain ⟨hm, hmax⟩ := longest_max h
  obtain ⟨ha, below, hc⟩ := mem_covering.mp hm
  refine ⟨ha, below, belowModule?_eq_some_iff.mpr hc, List.mem_map_of_mem ha, hc, ?_⟩
  intro other ho left hleft hne
  obtain ⟨b, hb, rfl⟩ := List.mem_map.mp ho
  exact hleft.length_lt hc (hmax b (mem_covering.mpr ⟨hb, left, hleft⟩)) hne

theorem moduleDir?_of_uncovered (h : Uncovered l.module?.toList package) :
    l.moduleDir? package = match longest (·.1) (covering (·.1) package l.replaces) with
      | some (module, dir) => (belowModule? module package).map dir.joinSegments
      | none => (longest (·.path) (covering (·.path) package l.requires)).bind fun r ↦
        l.moduleCache?.bind fun cache ↦
          (belowModule? r.path package).bind fun below ↦
            some ((cachedDir cache r).joinSegments below) := by
  have hn : (l.module?.bind fun module ↦ belowModule? module package) = none := by
    rw [Option.bind_eq_none_iff]
    intro module hm
    rw [Option.eq_none_iff_forall_ne_some]
    intro below hb
    exact h module (by simpa using hm) below (belowModule?_eq_some_iff.mp hb)
  rw [moduleDir?, hn]
  rfl

theorem moduleDir?_perm {requires : List Requirement} {replaces : List (String × Path)}
    (hq : requires.Perm l.requires) (hp : replaces.Perm l.replaces)
    (hnq : (l.requires.map (·.path)).Nodup) (hnp : (l.replaces.map (·.1)).Nodup) :
    moduleDir? { l with requires, replaces } package = l.moduleDir? package := by
  have hq := longest_covering_perm package hq hnq
  have hp := longest_covering_perm package hp hnp
  unfold covering at hq hp
  simp only [moduleDir?, hq, hp]

/-- The order of what `go.mod` requires and replaces does not matter for the directory of a package.
A package outside the module itself is mapped into the longest module that is replaced and covers
it; if there is none, into the longest one that is required, which is looked for in the module
cache. -/
theorem candidate?_of_longest (l : Layout) (hrequires : (l.requires.map (·.path)).Nodup)
    (hreplaces : (l.replaces.map (·.1)).Nodup) :
    (∀ requires replaces, requires.Perm l.requires → replaces.Perm l.replaces →
      ∀ step package,
        candidate? { l with requires, replaces } step package = l.candidate? step package) ∧
    ∀ package, Uncovered l.module?.toList package →
      (∃ r ∈ l.replaces, ∃ below, IsLongest (l.replaces.map (·.1)) package r.1 below ∧
        l.candidate? .moduleMapping package = some (r.2.joinSegments below)) ∨
      Uncovered (l.replaces.map (·.1)) package ∧
        ((∃ r ∈ l.requires, ∃ below, IsLongest (l.requires.map (·.path)) package r.path below ∧
          l.candidate? .moduleMapping package =
            l.moduleCache?.map fun cache ↦ (cachedDir cache r).joinSegments below) ∨
        Uncovered (l.requires.map (·.path)) package ∧
          l.candidate? .moduleMapping package = none) := by
  refine ⟨fun requires replaces hq hp step package ↦ ?_, fun package hout ↦ ?_⟩
  · cases step with
    | moduleMapping => exact moduleDir?_perm hq hp hrequires hreplaces
    | packageDir => rfl
    | vendor => rfl
    | localPrefix => rfl
  · rw [candidate?, moduleDir?_of_uncovered hout]
    cases hp : longest (·.1) (covering (·.1) package l.replaces) with
    | some r =>
      left
      obtain ⟨hr, below, hb, hl⟩ := isLongest_of_longest hp
      exact ⟨r, hr, below, hl, by simp only [hb, Option.map_some]⟩
    | none =>
      right
      refine ⟨uncovered_of_longest hp, ?_⟩
      cases hq : longest (·.path) (covering (·.path) package l.requires) with
      | some r =>
        left
        obtain ⟨hr, below, hb, hl⟩ := isLongest_of_longest hq
        refine ⟨r, hr, below, hl, ?_⟩
        simp only [hb, Option.bind_some, Option.map_eq_bind]
        rfl
      | none => exact .inr ⟨uncovered_of_longest hq, rfl⟩

/-- A module that is replaced, and a longer one below it that is required. -/
def nestedModules : Layout :=
  .ofGoMod { goModCache := some "/cache" } ⟨"/w/app"⟩ <| .parse <| Text.join "\n"
    ["module m", "require (", "\ta.org/lib v1.0.0", "\ta.org/lib/models v1.2.0", ")",
      "replace a.org/lib => ../lib"]

/-- What is replaced comes first, even if what is required is longer. -/
theorem nestedModules_longest :
    (nestedModules.requires.map (·.path)).Nodup ∧ (nestedModules.replaces.map (·.1)).Nodup ∧
      candidate? { nestedModules with requires := nestedModules.requires.reverse } .moduleMapping
        "a.org/lib/models/user" = nestedModules.candidate? .moduleMapping "a.org/lib/models/user" ∧
      ∃ r ∈ nestedModules.replaces, ∃ below,
        IsLongest (nestedModules.replaces.map (·.1)) "a.org/lib/models/user" r.1 below ∧
        nestedModules.candidate? .moduleMapping "a.org/lib/models/user" =
          some (r.2.joinSegments below) := by
  have hq : (nestedModules.requires.map (·.path)).Nodup := by decide +kernel
  have hp : (nestedModules.replaces.map (·.1)).Nodup := by decide +kernel
  obtain ⟨hperm, hfound⟩ := candidate?_of_longest nestedModules hq hp
  have hmodule : nestedModules.module? = some "m" := by decide +kernel
  have hout : Uncovered nestedModules.module?.toList "a.org/lib/models/user" := by
    intro module hm below hc
    rw [hmodule, Option.toList_some, List.mem_singleton] at hm
    subst hm
    have hp := hc.toList_prefix
    revert hp
    decide
  refine ⟨hq, hp, hperm _ _ (List.reverse_perm _) (List.Perm.refl _) _ _, ?_⟩
  rcases hfound _ hout with h | ⟨hnone, -⟩
  · exact h
  · refine absurd (.inr (by decide)) (hnone "a.org/lib" ?_ "models/user")
    decide +kernel

example : nestedModules.candidate? .moduleMapping "a.org/lib/models/user" =
    some ⟨"/w/app/../lib/models/user"⟩ := by decide +kernel

end Layout

end GoOpenApi
