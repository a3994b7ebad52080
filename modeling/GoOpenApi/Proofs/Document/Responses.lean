import GoOpenApi.Proofs.Directive
import GoOpenApi.Proofs.Document.Calls
import GoOpenApi.Proofs.Document.Success
import GoOpenApi.Proofs.Service.Binding

/-!
For which status codes an operation over HTTP has responses. Several keys can be spellings of one
code; the last of them, in the order of keys, decides. The word `skip` takes the response of a code
away, but not the one for errors without a code of their own.
-/

namespace GoOpenApi

open GoOpenApi.Endpoint (statusCode?)

namespace Directives

variable {d base upper : Directives} {code : Nat} {key : String}

/-- The last of the keys that are spellings of the code. -/
def CountsFor (d : Directives) (code : Nat) (key : String) : Prop :=
  (key ∈ Dict.keys d ∧ statusCode? key = some code) ∧
    ∀ other ∈ Dict.keys d, statusCode? other = some code → other ≤ key

/-- The code has a known reason, and the value that counts for it is not `skip`. -/
def Announces (d : Directives) (code : Nat) : Prop :=
  (statusText? code).isSome ∧
    ∃ key value, d.CountsFor code key ∧ d.value? key = some value ∧ value ≠ "skip"

theorem CountsFor.unique {other : String} (h : d.CountsFor code key)
    (h' : d.CountsFor code other) : key = other :=
  le_antisymm (h'.2 _ h.1.1 h.1.2) (h.2 _ h'.1.1 h'.1.2)

theorem countsFor_concat_of_ne {e : String × List String} (he : statusCode? e.1 ≠ some code) :
    CountsFor (d ++ [e]) code key ↔ d.CountsFor code key := by
  have hm (other : String) (hc : statusCode? other = some code) :
      other ∈ Dict.keys (d ++ [e]) ↔ other ∈ Dict.keys d := by
    have hne : other ≠ e.1 := by
      rintro rfl
      exact he hc
    simp [Dict.keys, hne]
  refine and_congr (and_congr_left (hm key)) (forall_congr' fun other ↦ ?_)
  exact ⟨fun h ho hc ↦ h ((hm other hc).mpr ho) hc, fun h ho hc ↦ h ((hm other hc).mp ho) hc⟩

theorem countsFor_concat {e : String × List String} (hd : Dict.Ordered (d ++ [e]))
    (he : statusCode? e.1 = some code) : CountsFor (d ++ [e]) code key ↔ key = e.1 := by
  have hmem : e.1 ∈ Dict.keys (d ++ [e]) := by simp [Dict.keys]
  have hlast : CountsFor (d ++ [e]) code e.1 := by
    refine ⟨⟨hmem, he⟩, fun other ho _ ↦ ?_⟩
    rw [Dict.keys, List.map_append, List.mem_append] at ho
    rcases ho with ho | ho
    · obtain ⟨entry, hm, rfl⟩ := List.mem_map.mp ho
      exact ((List.pairwise_append.mp hd).2.2 _ hm _ (List.mem_singleton_self e)).le
    · exact (List.mem_singleton.mp ho).le
  exact ⟨fun h ↦ h.unique hlast, fun h ↦ h ▸ hlast⟩

theorem value?_merge (h : upper.Ordered) {value : String} (hv : upper.value? key = some value) :
    (base.merge upper).value? key = some value := by
  obtain ⟨values, hf, rfl⟩ := Option.map_eq_some_iff.mp hv
  rw [value?, find?_merge h, hf]
  rfl

end Directives

theorem ResponseOverride.parse_eq_skip_iff {text : String} :
    ResponseOverride.parse text = .skip ↔ Text.trim text = "skip" := by
  unfold ResponseOverride.parse
  dsimp only
  split
  · rename_i h
    exact iff_of_true rfl h
  · rename_i h
    refine iff_of_false ?_ h
    split
    · split <;> nofun
    · nofun

namespace Endpoint

variable {m : Endpoint} {code : Nat} {o : ResponseOverride}

theorem mem_insertCode_iff {os : List (Nat × ResponseOverride)} (h : Ordered os)
    {e : Nat × ResponseOverride} :
    e ∈ insertCode code o os ↔ e = (code, o) ∨ e ∈ os ∧ e.1 ≠ code := by
  induction os with
  | nil => simp [insertCode]
  | cons first os ih =>
    obtain ⟨hlt, hos⟩ := List.pairwise_cons.mp h
    have hlater (hc : code ≤ first.1) : ∀ e ∈ os, e.1 ≠ code := fun e he ↦
      (hc.trans_lt (hlt e he)).ne'
    rw [insertCode]
    split
    · rename_i hc
      rw [List.mem_cons, List.mem_cons]
      have := hlater hc.le
      grind
    · split
      · rename_i hne hc
        rw [List.mem_cons, List.mem_cons]
        have := hlater hc.le
        grind
      · rename_i hne _
        rw [List.mem_cons, ih hos, List.mem_cons]
        grind

/-- The response is that of the value that counts for the code. -/
def Gives (d : Directives) (code : Nat) (o : ResponseOverride) : Prop :=
  ∃ key values, d.CountsFor code key ∧ (key, values) ∈ d ∧ o = .parse (Text.join "," values)

theorem gives_concat_of_ne {d : Directives} {e : String × List String}
    (he : statusCode? e.1 ≠ some code) : Gives (d ++ [e]) code o ↔ Gives d code o := by
  refine exists_congr fun key ↦ exists_congr fun values ↦ ?_
  rw [Directives.countsFor_concat_of_ne he, List.mem_append, List.mem_singleton]
  refine and_congr_right fun hk ↦ and_congr_left fun _ ↦ or_iff_left ?_
  rintro rfl
  exact he hk.1.2

theorem gives_concat {d : Directives} {e : String × List String} (hd : Dict.Ordered (d ++ [e]))
    (he : statusCode? e.1 = some code) :
    Gives (d ++ [e]) code o ↔ o = .parse (Text.join "," e.2) := by
  constructor
  · rintro ⟨key, values, hk, hm, rfl⟩
    obtain rfl := (Directives.countsFor_concat hd he).mp hk
    have hv : Dict.find? e.1 (d ++ [e]) = some values := hd.find?_eq_some_iff.mpr hm
    have hv' : Dict.find? e.1 (d ++ [e]) = some e.2 := hd.find?_eq_some_iff.mpr (by simp)
    rw [Option.some.inj (hv.symm.trans hv')]
  · intro ho
    exact ⟨e.1, e.2, (Directives.countsFor_concat hd he).mpr rfl, by simp, ho⟩

theorem mem_responseOverrides (h : m.directives.Ordered) :
    (code, o) ∈ m.responseOverrides ↔ Gives m.directives code o := by
  unfold responseOverrides
  generalize m.directives = d at h
  induction d using List.reverseRecOn with
  | nil => exact iff_of_false (by simp) (by simp [Gives])
  | append_singleton d e ih =>
    have hd : Dict.Ordered d := h.sublist (List.sublist_append_left d [e])
    have hos := ordered_responseOverrides { m with directives := d }
    unfold responseOverrides at hos
    rw [List.foldl_append, List.foldl_cons, List.foldl_nil]
    cases hc : statusCode? e.1 with
    | none =>
      rw [gives_concat_of_ne (by simp [hc])]
      simpa only [hc] using ih hd
    | some c =>
      simp only [hc]
      rw [mem_insertCode_iff hos]
      by_cases hcode : code = c
      · obtain rfl := hcode
        rw [gives_concat h hc]
        simp
      · rw [gives_concat_of_ne (by simpa [hc] using Ne.symm hcode), ih hd]
        simp [hcode]

theorem mem_announced (h : m.directives.Ordered) (ht : m.directives.Tidy) :
    (∃ o, (code, o) ∈ m.responseOverrides ∧ (statusText? code).isSome ∧ o ≠ .skip) ↔
      m.directives.Announces code := by
  have hskip {key : String} {values : List String} (hm : (key, values) ∈ m.directives) :
      ResponseOverride.parse (Text.join "," values) = .skip ↔
        Text.join "," values = "skip" := by
    have hv : m.directives.value? key = some (Text.join "," values) := by
      rw [Directives.value?, h.find?_eq_some_iff.mpr hm]
      rfl
    rw [ResponseOverride.parse_eq_skip_iff, ht.trim_value? hv]
  constructor
  · rintro ⟨o, ho, hs, hne⟩
    obtain ⟨key, values, hk, hm, rfl⟩ := (mem_responseOverrides h).mp ho
    refine ⟨hs, key, _, hk, ?_, mt (hskip hm).mpr hne⟩
    rw [Directives.value?, h.find?_eq_some_iff.mpr hm]
    rfl
  · rintro ⟨hs, key, value, hk, hv, hne⟩
    obtain ⟨values, hf, rfl⟩ := Option.map_eq_some_iff.mp hv
    have hm := h.find?_eq_some_iff.mp hf
    exact ⟨_, (mem_responseOverrides h).mpr ⟨key, values, hk, hm, rfl⟩, hs, mt (hskip hm).mp hne⟩

end Endpoint

namespace Generator

variable {p : Project} {s : Service} {m : Endpoint} {o : Operation} {g g' : Generator}
  {d d' : Dict Response} {key : String}

theorem overridesOnto_keys {os : List (Nat × ResponseOverride)}
    (h : overridesOnto p d os g = (.ok d', g')) : key ∈ Dict.keys d' ↔ key ∈ Dict.keys d ∨
      ∃ code o, (code, o) ∈ os ∧ (statusText? code).isSome ∧ o ≠ .skip ∧ key = toString code := by
  induction os generalizing d g with
  | nil =>
    cases h
    simp
  | cons e os ih =>
    obtain ⟨code, o⟩ := e
    -- a directive that gives no response leaves the keys, any other adds that of its code
    have hkept (hn : ¬((statusText? code).isSome ∧ o ≠ .skip))
        (h : overridesOnto p d os g = (.ok d', g')) : key ∈ Dict.keys d' ↔ key ∈ Dict.keys d ∨
          ∃ c w, (c, w) ∈ (code, o) :: os ∧ (statusText? c).isSome ∧ w ≠ .skip ∧
            key = toString c := by
      rw [ih h]
      grind
    have hadded (hs : (statusText? code).isSome ∧ o ≠ .skip) {r : Response} {g₁ : Generator}
        (h : overridesOnto p (Dict.insert (toString code) r d) os g₁ = (.ok d', g')) :
        key ∈ Dict.keys d' ↔ key ∈ Dict.keys d ∨
          ∃ c w, (c, w) ∈ (code, o) :: os ∧ (statusText? c).isSome ∧ w ≠ .skip ∧
            key = toString c := by
      rw [ih h, Dict.mem_keys_insert]
      grind
    unfold overridesOnto at h
    cases ht : statusText? code with
    | none =>
      simp only [ht] at h
      exact hkept (by simp [ht]) h
    | some text =>
      simp only [ht] at h
      cases o with
      | skip => exact hkept (by simp) h
      | text description => exact hadded (by simp [ht]) h
      | payload q =>
        obtain ⟨content, g₁, -, h⟩ := Action.bind_ok h
        exact hadded (by simp [ht]) h

theorem withErrors_keys (h : withErrors p m d g = (.ok d', g')) :
    key ∈ Dict.keys d' ↔ key ∈ Dict.keys d ∨
      (∃ code o, (code, o) ∈ m.responseOverrides ∧ (statusText? code).isSome ∧ o ≠ .skip ∧
        key = toString code) ∨
      key = "default" ∧ m.defaultError.isSome := by
  obtain ⟨d₁, g₁, ho, h⟩ := Action.bind_ok h
  have hk : key ∈ Dict.keys d₁ ↔ key ∈ Dict.keys d ∨ ∃ code o, (code, o) ∈ m.responseOverrides ∧
      (statusText? code).isSome ∧ o ≠ .skip ∧ key = toString code := overridesOnto_keys ho
  cases he : m.defaultError with
  | none =>
    simp only [he] at h
    cases h
    rw [hk]
    simp
  | some w =>
    simp only [he] at h
    -- whatever the directive says, there is a response
    have hi (r : Response) : key ∈ Dict.keys (Dict.insert "default" r d₁) ↔
        key ∈ Dict.keys d ∨ (∃ code o, (code, o) ∈ m.responseOverrides ∧
          (statusText? code).isSome ∧ o ≠ .skip ∧ key = toString code) ∨
          key = "default" ∧ (some w).isSome := by
      rw [Dict.mem_keys_insert, hk, or_comm, or_assoc, Option.isSome_some, and_iff_left rfl]
    cases w with
    | skip | text description =>
      cases h
      exact hi _
    | payload q =>
      obtain ⟨content, g₂, -, h⟩ := Action.bind_ok h
      cases h
      exact hi _

theorem responses_keys (hh : m.isHttp) (hd : m.directives.Ordered) (ht : m.directives.Tidy)
    (h : operationOf p s m g = (.ok o, g')) : key ∈ Dict.keys o.responses ↔
      key = toString m.successCode ∨ (∃ code, key = toString code ∧ m.directives.Announces code) ∨
        key = "default" ∧ (m.directives.text? "defaultError").isSome := by
  obtain ⟨success, hb⟩ := builds_iff.mp h
  cases hb with
  | rpc hr _ _ => exact absurd hh hr
  | http _ _ _ he _ =>
    have hs : Dict.keys [(toString m.successCode, success)] = [toString m.successCode] := rfl
    have hcodes : (∃ code o, (code, o) ∈ m.responseOverrides ∧ (statusText? code).isSome ∧
        o ≠ .skip ∧ key = toString code) ↔
          ∃ code, key = toString code ∧ m.directives.Announces code := by
      refine exists_congr fun code ↦ ?_
      rw [← Endpoint.mem_announced hd ht]
      grind
    rw [withErrors_keys he, hs, List.mem_singleton, hcodes, Endpoint.defaultError,
      Option.isSome_map]

end Generator

section

variable {p : Project} {s : Service} {m : Endpoint} {o : Operation} {service package : String}
  {docs : List String} {sig : Method} {t t' : Tables} {g g' : Generator}

theorem Endpoint.directives_of_build {d : Directives}
    (h : build p service d package sig t = (.ok m, t')) :
    m.directives = d.merge (Directives.parse sig.docs) := by
  obtain ⟨bindings, resultBindings, rfl⟩ := (build_ok h).1
  rfl

/-- Over HTTP there are responses for the code of the success, for the codes that the directives
announce, and for other errors if a directive names any response for them, `skip` included. That
word takes away what a service declares for a code if the method writes it under the key that
counts. -/
theorem responses_iff
    (hm : Endpoint.build p service (Directives.parse docs) package sig t = (.ok m, t'))
    (hh : m.isHttp) (ho : Generator.operationOf p s m g = (.ok o, g')) :
    m.directives = (Directives.parse docs).merge (Directives.parse sig.docs) ∧
    (∀ key, key ∈ Dict.keys o.responses ↔
      key = toString m.successCode ∨ (∃ code, key = toString code ∧ m.directives.Announces code) ∨
        key = "default" ∧ (m.directives.text? "defaultError").isSome) ∧
    (("default" ∈ Dict.keys o.responses ↔
        ∃ text, m.directives.text? "defaultError" = some text ∧ text ≠ "skip") ↔
      m.directives.text? "defaultError" ≠ some "skip") ∧
    ∀ key code, (Directives.parse sig.docs).value? key = some "skip" →
      m.directives.CountsFor code key → toString code ≠ toString m.successCode →
      toString code ∉ Dict.keys o.responses := by
  have hd := Endpoint.directives_of_build hm
  have hordered : m.directives.Ordered :=
    hd ▸ Directives.ordered_merge (Directives.ordered_parse docs) _
  have htidy : m.directives.Tidy :=
    hd ▸ (Directives.tidy_parse docs).merge (Directives.tidy_parse sig.docs)
  have hkeys (key : String) : key ∈ Dict.keys o.responses ↔
      key = toString m.successCode ∨ (∃ code, key = toString code ∧ m.directives.Announces code) ∨
        key = "default" ∧ (m.directives.text? "defaultError").isSome :=
    Generator.responses_keys hh hordered htidy ho
  have hdefault : "default" ∈ Dict.keys o.responses ↔
      (m.directives.text? "defaultError").isSome := by
    rw [hkeys, or_iff_right (Generator.toString_ne_default m.successCode).symm, or_iff_right,
      and_iff_right rfl]
    rintro ⟨code, h, -⟩
    exact Generator.toString_ne_default code h.symm
  refine ⟨hd, hkeys, ?_, fun key code hown hcounts hsuccess hmem ↦ ?_⟩
  · rw [hdefault]
    cases m.directives.text? "defaultError" <;> simp
  · have hvalue : m.directives.value? key = some "skip" :=
      hd ▸ Directives.value?_merge (Directives.ordered_parse sig.docs) hown
    rcases (hkeys _).mp hmem with h | ⟨other, h, -, key', value, hk, hv, hne⟩ | ⟨h, -⟩
    · exact hsuccess h
    · obtain rfl := Registry.repr_injective h
      obtain rfl := hcounts.unique hk
      exact hne (Option.some.inj (hv.symm.trans hvalue))
    · exact Generator.toString_ne_default code h

/-- A method that leaves out what its service says for the codes 403 and 500. -/
def renameOf : Method where
  name := "Rename"
  docs := ["@tg http-method PUT", "@tg 500 skip", "@tg 0403 skip", "@tg 404 No user", "@tg 499 Odd"]
  args := [⟨"name", .plain "string", [], false⟩]
  results := [⟨"err", .plain "error", [], false⟩]

def sharedErrors : List String :=
  ["@tg server-http", "@tg 500 Broken", "@tg 403 Forbidden", "@tg defaultError Failure"]

theorem renameOf_responses : ∃ m t s g o g',
    Endpoint.build noFiles "Users" (Directives.parse sharedErrors) "m/service" renameOf .empty =
        (.ok m, t) ∧ m.isHttp ∧
      Generator.operationOf noFiles s m g = (.ok o, g') ∧
      (Directives.parse renameOf.docs).value? "500" = some "skip" ∧
      m.directives.CountsFor 500 "500" ∧ toString 500 ∉ Dict.keys o.responses ∧
      (m.directives.text? "defaultError" = some "Failure" ∧ "default" ∈ Dict.keys o.responses) := by
  let s : Service := ⟨"Users", "m/service", [], [], .ofDirectives [], []⟩
  obtain ⟨m, t, hr, hb⟩ := ok_of_map
    (a := Endpoint.build noFiles "Users" (Directives.parse sharedErrors) "m/service" renameOf)
    (t := .empty)
    (f := fun m ↦ (m.isHttp, toString m.successCode, m.directives.text? "defaultError",
      (Dict.keys m.directives).filter (statusCode? · == some 500),
      (Generator.operationOf noFiles s m .empty).1.isOk))
    (y := (true, "200", some "Failure", ["500"], true)) (by decide +kernel)
  simp only [Prod.mk.injEq] at hb
  obtain ⟨hh, hcode, hdefault, hkeys, hok⟩ := hb
  have hmem (key : String) : key ∈ Dict.keys m.directives ∧ statusCode? key = some 500 ↔
      key = "500" := by
    have hf : key ∈ (Dict.keys m.directives).filter (statusCode? · == some 500) ↔ _ :=
      List.mem_filter
    rw [hkeys, List.mem_singleton, beq_iff_eq] at hf
    exact hf.symm
  have hcounts : m.directives.CountsFor 500 "500" :=
    ⟨(hmem "500").mpr rfl, fun other ho hc ↦ ((hmem other).mp ⟨ho, hc⟩).le⟩
  have hskip : (Directives.parse renameOf.docs).value? "500" = some "skip" := by decide +kernel
  obtain ⟨o, g', ho⟩ := ok_of_isOk hok
  obtain ⟨-, hiff, -, hsuppressed⟩ := responses_iff hr hh ho
  refine ⟨m, t, s, _, o, g', hr, hh, ho, hskip, hcounts,
    hsuppressed "500" 500 hskip hcounts ?_, hdefault, ?_⟩
  · rw [hcode]
    decide
  · exact (hiff "default").mpr (.inr (.inr ⟨rfl, by rw [hdefault]; rfl⟩))

/-- The method leaves out the response that its service declares for other errors. -/
def silentOf : Method where
  name := "Find"
  docs := ["@tg http-method GET", "@tg defaultError skip"]
  args := []
  results := [⟨"name", .plain "string", [], false⟩, ⟨"err", .plain "error", [], false⟩]

/-- The response for other errors stays, although the value that counts is `skip`. -/
theorem silentOf_default_remains : ∃ m t s g o g',
    Endpoint.build noFiles "Users" (Directives.parse sharedErrors) "m/service" silentOf .empty =
        (.ok m, t) ∧ m.isHttp ∧
      Generator.operationOf noFiles s m g = (.ok o, g') ∧
      m.directives.text? "defaultError" = some "skip" ∧ "default" ∈ Dict.keys o.responses := by
  let s : Service := ⟨"Users", "m/service", [], [], .ofDirectives [], []⟩
  obtain ⟨m, t, hr, hb⟩ := ok_of_map
    (a := Endpoint.build noFiles "Users" (Directives.parse sharedErrors) "m/service" silentOf)
    (t := .empty)
    (f := fun m ↦ (m.isHttp, m.directives.text? "defaultError",
      (Generator.operationOf noFiles s m .empty).1.toOption.map fun o ↦
        (Dict.keys o.responses).contains "default"))
    (y := (true, some "skip", some true)) (by decide +kernel)
  simp only [Prod.mk.injEq] at hb
  obtain ⟨hh, hdefault, ho⟩ := hb
  obtain ⟨o, g', ho, hk⟩ := ok_of_map ho
  exact ⟨m, t, s, _, o, g', hr, hh, ho, hdefault, List.contains_iff_mem.mp hk⟩

end

end GoOpenApi
