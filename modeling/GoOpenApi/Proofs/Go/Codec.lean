import GoOpenApi.Proofs.Json.Parts
import GoOpenApi.Proofs.Json.Reading

/-!
Types, fields and methods are read back from the JSON values that they are written as.
-/

namespace GoOpenApi

open Json

mutual

/-- The struct tags in the type are dictionaries. -/
def GoType.WellTagged : GoType → Prop
  | .named _ _ => True
  | .pointer next | .slice next | .array _ next | .ellipsis next => next.WellTagged
  | .imported _ next => next.WellTagged
  | .map key value => key.WellTagged ∧ value.WellTagged
  | .interface methods => Method.AllWellTagged methods
  | .struct fields => Field.AllWellTagged fields

def Field.AllWellTagged : List Field → Prop
  | [] => True
  | ⟨_, type, tags, _⟩ :: fields =>
    (Dict.Ordered tags ∧ type.WellTagged) ∧ Field.AllWellTagged fields

def Method.AllWellTagged : List Method → Prop
  | [] => True
  | ⟨_, _, args, results⟩ :: methods =>
    (Field.AllWellTagged args ∧ Field.AllWellTagged results) ∧ Method.AllWellTagged methods

end

def Field.WellTagged (f : Field) : Prop := Dict.Ordered f.tags ∧ f.type.WellTagged

def Method.WellTagged (m : Method) : Prop :=
  Field.AllWellTagged m.args ∧ Field.AllWellTagged m.results

section

variable {type : Json → Option GoType}

theorem Field.ofJsonWith?_toJson (f : Field) (hf : Dict.Ordered f.tags)
    (ht : type f.type.toJson = some f.type) : Field.ofJsonWith? type f.toJson = some f := by
  obtain ⟨name, t, tags, embedded⟩ := f
  have hname : (toJson ⟨name, t, tags, embedded⟩).field? "name" str? = some name := by
    simp [field?, toJson, str?]
  have htype : (toJson ⟨name, t, tags, embedded⟩).field? "type" type = some t := by
    simpa [field?, toJson] using ht
  have htags : (toJson ⟨name, t, tags, embedded⟩).default? "tags" [] (dict? strings?) =
      some tags := by
    have hget : (toJson ⟨name, t, tags, embedded⟩).get? "tags" =
        if tags.isEmpty then none else some (stringLists tags) := by simp [toJson]
    refine default?_of_get? hget (fun h ↦ ?_) fun w h ↦ ?_
    · exact (show tags = [] by simpa using h).symm
    · obtain ⟨-, rfl⟩ : tags ≠ [] ∧ stringLists tags = w := by simpa using h
      exact dict?_dict fun e _ ↦ strings?_strings e.2
  have hembedded : (toJson ⟨name, t, tags, embedded⟩).default? "embedded" false bool? =
      some embedded := by
    have hget : (toJson ⟨name, t, tags, embedded⟩).get? "embedded" =
        if embedded then some (.bool true) else none := by simp [toJson]
    refine default?_of_get? hget (fun h ↦ ?_) fun w h ↦ ?_
    · exact (show embedded = false by simpa using h).symm
    · obtain ⟨rfl, rfl⟩ : embedded = true ∧ bool true = w := by simpa using h
      rfl
  simp [ofJsonWith?, hname, htype, htags, hembedded, hf.ofList_eq]

theorem Field.toJsons_eq (fs : List Field) : Field.toJsons fs = fs.map Field.toJson := by
  induction fs with
  | nil => rfl
  | cons f fs ih => rw [toJsons, ih, List.map_cons]

theorem Method.toJsons_eq (ms : List Method) : Method.toJsons ms = ms.map Method.toJson := by
  induction ms with
  | nil => rfl
  | cons m ms ih => rw [toJsons, ih, List.map_cons]

theorem Method.ofJsonWith?_toJson (m : Method)
    (ha : ∀ f ∈ m.args, Field.ofJsonWith? type f.toJson = some f)
    (hr : ∀ f ∈ m.results, Field.ofJsonWith? type f.toJson = some f) :
    Method.ofJsonWith? type m.toJson = some m := by
  obtain ⟨name, docs, args, results⟩ := m
  have hname : (toJson ⟨name, docs, args, results⟩).field? "name" str? = some name := by
    simp [field?, toJson, str?]
  have hdocs : (toJson ⟨name, docs, args, results⟩).default? "docs" [] strings? = some docs := by
    have hget : (toJson ⟨name, docs, args, results⟩).get? "docs" =
        if docs.isEmpty then none else some (strings docs) := by simp [toJson]
    refine default?_of_get? hget (fun h ↦ ?_) fun w h ↦ ?_
    · exact (show docs = [] by simpa using h).symm
    · obtain ⟨-, rfl⟩ : docs ≠ [] ∧ strings docs = w := by simpa using h
      exact strings?_strings docs
  have hargs : (toJson ⟨name, docs, args, results⟩).field? "args"
      (list? (Field.ofJsonWith? type)) = some args := by
    simpa [field?, toJson, Field.toJsons_eq] using list?_arr ha
  have hresults : (toJson ⟨name, docs, args, results⟩).field? "results"
      (list? (Field.ofJsonWith? type)) = some results := by
    simpa [field?, toJson, Field.toJsons_eq] using list?_arr hr
  simp [ofJsonWith?, hname, hdocs, hargs, hresults]

end

mutual

theorem GoType.ofJsonWithin?_toJson : ∀ (t : GoType) (n : Nat), t.WellTagged →
    t.toJson.depth ≤ n → GoType.ofJsonWithin? n t.toJson = some t
  | t, 0, _, hn => absurd hn (Nat.not_le.mpr t.toJson.depth_pos)
  | .named name package, n + 1, _, _ => by
    have hk : (GoType.named name package).toJson.field? "kind" str? = some "named" := by
      simp [GoType.toJson, field?, str?]
    have hname : (GoType.named name package).toJson.field? "name" str? = some name := by
      simp [GoType.toJson, field?, str?]
    have hget : (GoType.named name package).toJson.get? "package" = package.map .str := by
      simp [GoType.toJson]
    have hpackage := optional?_str hget
    simp [GoType.ofJsonWithin?, hk, hname, hpackage]
  | .pointer next, n + 1, h, hn => by
    have hget : (GoType.pointer next).toJson.get? "next" = some next.toJson := by
      simp [GoType.toJson]
    have ih := next.ofJsonWithin?_toJson n h (depth_le_of_get? hget hn)
    simp [GoType.toJson, GoType.ofJsonWithin?, field?, str?, ih]
  | .slice next, n + 1, h, hn => by
    have hget : (GoType.slice next).toJson.get? "next" = some next.toJson := by
      simp [GoType.toJson]
    have ih := next.ofJsonWithin?_toJson n h (depth_le_of_get? hget hn)
    simp [GoType.toJson, GoType.ofJsonWithin?, field?, str?, ih]
  | .array length next, n + 1, h, hn => by
    have hget : (GoType.array length next).toJson.get? "next" = some next.toJson := by
      simp [GoType.toJson]
    have ih := next.ofJsonWithin?_toJson n h (depth_le_of_get? hget hn)
    have hlt : length.toNat < UInt64.size := length.toNat_lt
    simp [GoType.toJson, GoType.ofJsonWithin?, field?, str?, ih, nat, nat?, hlt]
  | .map key value, n + 1, h, hn => by
    have hkey : (GoType.map key value).toJson.get? "key" = some key.toJson := by
      simp [GoType.toJson]
    have hvalue : (GoType.map key value).toJson.get? "value" = some value.toJson := by
      simp [GoType.toJson]
    have ihk := key.ofJsonWithin?_toJson n h.1 (depth_le_of_get? hkey hn)
    have ihv := value.ofJsonWithin?_toJson n h.2 (depth_le_of_get? hvalue hn)
    simp [GoType.toJson, GoType.ofJsonWithin?, field?, str?, ihk, ihv]
  | .interface methods, n + 1, h, hn => by
    have hget : (GoType.interface methods).toJson.get? "methods" =
        some (.arr (Method.toJsons methods)) := by simp [GoType.toJson]
    have ih := Method.ofJsonWith?_toJsons methods n h (depthItems_le (depth_le_of_get? hget hn))
    simp [GoType.toJson, GoType.ofJsonWithin?, field?, str?, Method.toJsons_eq, list?_arr ih]
  | .struct fields, n + 1, h, hn => by
    have hget : (GoType.struct fields).toJson.get? "fields" =
        some (.arr (Field.toJsons fields)) := by simp [GoType.toJson]
    have ih := Field.ofJsonWith?_toJsons fields n h (depthItems_le (depth_le_of_get? hget hn))
    simp [GoType.toJson, GoType.ofJsonWithin?, field?, str?, Field.toJsons_eq, list?_arr ih]
  | .ellipsis next, n + 1, h, hn => by
    have hget : (GoType.ellipsis next).toJson.get? "next" = some next.toJson := by
      simp [GoType.toJson]
    have ih := next.ofJsonWithin?_toJson n h (depth_le_of_get? hget hn)
    simp [GoType.toJson, GoType.ofJsonWithin?, field?, str?, ih]
  | .imported package next, n + 1, h, hn => by
    have hget : (GoType.imported package next).toJson.get? "next" = some next.toJson := by
      simp [GoType.toJson]
    have ih := next.ofJsonWithin?_toJson n h (depth_le_of_get? hget hn)
    simp [GoType.toJson, GoType.ofJsonWithin?, field?, str?, ih]

theorem Field.ofJsonWith?_toJsons : ∀ (fs : List Field) (n : Nat), Field.AllWellTagged fs →
    depthItems (Field.toJsons fs) ≤ n →
    ∀ f ∈ fs, Field.ofJsonWith? (GoType.ofJsonWithin? n) f.toJson = some f
  | [], _, _, _ => nofun
  | ⟨name, type, tags, embedded⟩ :: fs, n, h, hn => by
    obtain ⟨hf, hfs⟩ := Nat.max_le.mp hn
    have hget : (Field.toJson ⟨name, type, tags, embedded⟩).get? "type" = some type.toJson := by
      simp [Field.toJson]
    have ht := type.ofJsonWithin?_toJson n h.1.2 (by have := depth_lt_of_get? hget; omega)
    have ih := Field.ofJsonWith?_toJsons fs n h.2 hfs
    exact List.forall_mem_cons.mpr ⟨Field.ofJsonWith?_toJson _ h.1.1 ht, ih⟩

theorem Method.ofJsonWith?_toJsons : ∀ (ms : List Method) (n : Nat), Method.AllWellTagged ms →
    depthItems (Method.toJsons ms) ≤ n →
    ∀ m ∈ ms, Method.ofJsonWith? (GoType.ofJsonWithin? n) m.toJson = some m
  | [], _, _, _ => nofun
  | ⟨name, docs, args, results⟩ :: ms, n, h, hn => by
    obtain ⟨hm, hms⟩ := Nat.max_le.mp hn
    have hargs : (Method.toJson ⟨name, docs, args, results⟩).get? "args" =
        some (.arr (Field.toJsons args)) := by simp [Method.toJson]
    have hresults : (Method.toJson ⟨name, docs, args, results⟩).get? "results" =
        some (.arr (Field.toJsons results)) := by simp [Method.toJson]
    have ha := Field.ofJsonWith?_toJsons args n h.1.1
      (depthItems_le (by have := depth_lt_of_get? hargs; omega))
    have hr := Field.ofJsonWith?_toJsons results n h.1.2
      (depthItems_le (by have := depth_lt_of_get? hresults; omega))
    have ih := Method.ofJsonWith?_toJsons ms n h.2 hms
    exact List.forall_mem_cons.mpr ⟨Method.ofJsonWith?_toJson _ ha hr, ih⟩

end

theorem GoType.ofJson?_toJson {t : GoType} (h : t.WellTagged) : ofJson? t.toJson = some t :=
  t.ofJsonWithin?_toJson _ h Nat.le.refl

theorem Field.wellTagged_of_mem {fs : List Field} (h : Field.AllWellTagged fs) :
    ∀ f ∈ fs, f.WellTagged := by
  induction fs with
  | nil => exact nofun
  | cons f fs ih =>
    obtain ⟨name, type, tags, embedded⟩ := f
    exact List.forall_mem_cons.mpr ⟨h.1, ih h.2⟩

theorem Field.ofJson?_toJson {f : Field} (h : f.WellTagged) : ofJson? f.toJson = some f :=
  f.ofJsonWith?_toJson h.1 (GoType.ofJson?_toJson h.2)

theorem Method.ofJson?_toJson {m : Method} (h : m.WellTagged) : ofJson? m.toJson = some m :=
  m.ofJsonWith?_toJson (fun f hf ↦ Field.ofJson?_toJson (Field.wellTagged_of_mem h.1 f hf))
    fun f hf ↦ Field.ofJson?_toJson (Field.wellTagged_of_mem h.2 f hf)

/-- Types, fields and methods whose struct tags are dictionaries are read back as they were. -/
theorem signatures_read_back :
    (∀ t : GoType, t.WellTagged → ReadsBack GoType.toJson GoType.ofJson? t) ∧
    (∀ f : Field, f.WellTagged → ReadsBack Field.toJson Field.ofJson? f) ∧
    ∀ m : Method, m.WellTagged → ReadsBack Method.toJson Method.ofJson? m :=
  ⟨fun _ h ↦ readsBack_of_decode (GoType.ofJson?_toJson h),
    fun _ h ↦ readsBack_of_decode (Field.ofJson?_toJson h),
    fun _ h ↦ readsBack_of_decode (Method.ofJson?_toJson h)⟩

/-- The longest array of a struct with an embedded, tagged field. -/
def batchType : GoType :=
  .array 18446744073709551615 (.struct [⟨"Item", .imported "m/models" (.named "Item" "m/models"),
    [("db", []), ("json", ["item", "omitempty"])], true⟩])

def batchField : Field := ⟨"items", batchType, [("a\"b", [""])], false⟩

def batchMethod : Method :=
  ⟨"Put", ["Puts \"all\"."], [batchField], [⟨"err", .named "error" none, [], false⟩]⟩

theorem batch_reads_back :
    (batchType.WellTagged ∧ ReadsBack GoType.toJson GoType.ofJson? batchType) ∧
    (batchField.WellTagged ∧ ReadsBack Field.toJson Field.ofJson? batchField) ∧
    batchMethod.WellTagged ∧ ReadsBack Method.toJson Method.ofJson? batchMethod := by
  have ht : batchType.WellTagged := by
    have ho : Dict.Ordered [("db", []), ("json", ["item", "omitempty"])] := by
      unfold Dict.Ordered
      decide
    exact ⟨⟨ho, trivial⟩, trivial⟩
  have hf : batchField.WellTagged := ⟨by simp [batchField, Dict.Ordered], ht⟩
  have hm : batchMethod.WellTagged := ⟨⟨hf, trivial⟩, ⟨Dict.ordered_nil, trivial⟩, trivial⟩
  exact ⟨⟨ht, signatures_read_back.1 _ ht⟩, ⟨hf, signatures_read_back.2.1 _ hf⟩,
    hm, signatures_read_back.2.2 _ hm⟩

end GoOpenApi
