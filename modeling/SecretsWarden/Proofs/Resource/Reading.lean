import SecretsWarden.Proofs.Json.Decode
import SecretsWarden.Proofs.Resource.Condition
import SecretsWarden.Resource.Definition
import SecretsWarden.Resource.SecretsConfig

/-!
# Reading an object after a member changed

An object that reads still reads after one of its members was bound to something readable, and
only what that member stands for is different. What is looked up in an object is what was read of
it.
-/

namespace SecretsWarden.Resource

open Json

variable {members : List (String × Value)}

/-! ## What stands in an object -/

def version? (v : Value) : Option String :=
  (v.at? ["metadata", "resourceVersion"]).bind Value.string?

def name? (v : Value) : Option String := (v.at? ["metadata", "name"]).bind Value.string?

def hasEntryAt (v : Value) (field : String) (entry : String × String) : Bool :=
  (v.at? ["metadata", field, entry.1]).bind Value.string? = some entry.2

/-- Whether an object has the label of managed definitions. -/
def labelled (v : Value) : Bool := hasEntryAt v "labels" Definition.managedLabel

/-- Whether an object has the annotation that managed definitions shall carry. -/
def annotated (v : Value) : Bool := hasEntryAt v "annotations" Definition.injection

/-! ## Metadata -/

namespace Meta

theorem ofJson?_eq_some {v : Value} {m : Meta} :
    ofJson? v = some m ↔ ∃ members, v = .object members ∧
      Json.optional members "name" Value.string? = some m.name ∧
      Json.optional members "generateName" Value.string? = some m.generateName ∧
      Json.optional members "namespace" Value.string? = some m.namespaceName ∧
      Json.optional members "resourceVersion" Value.string? = some m.resourceVersion ∧
      Json.optional members "generation" Value.int64? = some m.generation ∧
      Json.optional members "labels" (Value.map? Value.string?) = some m.labels ∧
      Json.optional members "annotations" (Value.map? Value.string?) = some m.annotations ∧
      readRest? members = some m.rest := by
  cases v with
  | object members =>
      simp only [ofJson?, Option.bind_eq_bind, Option.bind_eq_some_iff, Option.some.injEq,
        Value.object.injEq, exists_eq_left']
      constructor
      · rintro ⟨name, h1, generateName, h2, space, h3, version, h4, generation, h5, labels, h6,
          annotations, h7, rest, h8, rfl⟩
        exact ⟨h1, h2, h3, h4, h5, h6, h7, h8⟩
      · rintro ⟨h1, h2, h3, h4, h5, h6, h7, h8⟩
        exact ⟨_, h1, _, h2, _, h3, _, h4, _, h5, _, h6, _, h7, _, h8, rfl⟩
  | _ => simp [ofJson?]

/-- The members that are not looked at do not depend on those that are. -/
theorem readRest?_bind {name : String} (h : name ∉ restFields.map Prod.fst) (v : Value) :
    readRest? (Value.bind name v members) = readRest? members := by
  have hne : ∀ field ∈ restFields, field.1 ≠ name := by
    intro field hfield heq
    exact h (heq ▸ List.mem_map_of_mem hfield)
  unfold readRest?
  congr 1
  revert hne
  generalize restFields = fields
  intro hne
  induction fields with
  | nil => rfl
  | cons field rest ih =>
      have hfield := hne field List.mem_cons_self
      simp only [List.mapM_cons, optional_bind_ne hfield,
        ih fun f hf => hne f (List.mem_cons_of_mem _ hf)]

theorem ofJson?_bind_resourceVersion {m : Meta} (h : ofJson? (.object members) = some m)
    (version : String) :
    ofJson? (.object (Value.bind "resourceVersion" (.string version) members)) =
      some { m with resourceVersion := some version } := by
  obtain ⟨_, hobject, h1, h2, h3, h4, h5, h6, h7, h8⟩ := ofJson?_eq_some.mp h
  cases hobject
  refine ofJson?_eq_some.mpr ⟨_, rfl, ?_⟩
  rw [optional_bind_ne (by decide), optional_bind_ne (by decide), optional_bind_ne (by decide),
    optional_bind_self (by simp), optional_bind_ne (by decide), optional_bind_ne (by decide),
    optional_bind_ne (by decide), readRest?_bind (by decide)]
  exact ⟨h1, h2, h3, rfl, h5, h6, h7, h8⟩

theorem ofJson?_bind_annotations {m : Meta} (h : ofJson? (.object members) = some m) {v : Value}
    {annotations : List (String × String)} (hv : v.map? Value.string? = some annotations) :
    ofJson? (.object (Value.bind "annotations" v members)) =
      some { m with annotations := some annotations } := by
  obtain ⟨_, hobject, h1, h2, h3, h4, h5, h6, h7, h8⟩ := ofJson?_eq_some.mp h
  cases hobject
  have hnull : v ≠ .null := by
    rintro rfl
    cases hv
  refine ofJson?_eq_some.mpr ⟨_, rfl, ?_⟩
  rw [optional_bind_ne (by decide), optional_bind_ne (by decide), optional_bind_ne (by decide),
    optional_bind_ne (by decide), optional_bind_ne (by decide), optional_bind_ne (by decide),
    optional_bind_self hnull, hv, readRest?_bind (by decide)]
  exact ⟨h1, h2, h3, h4, h5, h6, rfl, h8⟩

/-- The version that was read is the one that stands there. -/
theorem resourceVersion_eq {m : Meta} {version : String}
    (h : ofJson? (.object members) = some m)
    (hversion : members.lookup "resourceVersion" = some (.string version)) :
    m.resourceVersion = some version := by
  obtain ⟨_, hobject, _, _, _, h4, _⟩ := ofJson?_eq_some.mp h
  cases hobject
  rw [optional_of_lookup hversion (by simp)] at h4
  exact (Option.some.inj h4).symm

theorem anyName_eq {m : Meta} {name : String} (h : ofJson? (.object members) = some m)
    (hname : members.lookup "name" = some (.string name)) : m.anyName = name := by
  obtain ⟨_, hobject, h1, _⟩ := ofJson?_eq_some.mp h
  cases hobject
  rw [optional_of_lookup hname (by simp)] at h1
  simp [anyName, ← Option.some.inj h1]

/-- A text in the metadata of an object stands among its members. -/
theorem lookup_of_at? {v : Value} {field text : String}
    (h : (v.at? ["metadata", field]).bind Value.string? = some text) {ms : List (String × Value)}
    (hms : v.get? "metadata" = some (.object ms)) : ms.lookup field = some (.string text) := by
  rw [Value.at?_cons, hms, Option.bind_some, Value.at?_singleton] at h
  obtain ⟨w, hw, hstring⟩ := Option.bind_eq_some_iff.mp h
  cases w <;> cases hstring
  exact hw

end Meta

/-! ## The configuration object -/

namespace SecretsConfig

theorem ofJson?_object {c : SecretsConfig} :
    ofJson? (.object members) = some c ↔
      required members "metadata" Meta.ofJson? = some c.metadata ∧
      required members "spec" Spec.ofJson? = some c.spec ∧
      Json.optional members "status" Status.ofJson? = some c.status := by
  simp only [ofJson?, Value.record?, Option.bind_eq_bind, Option.bind_eq_some_iff,
    Option.some.injEq, exists_eq_left']
  constructor
  · rintro ⟨metadata, h1, spec, h2, status, h3, rfl⟩
    exact ⟨h1, h2, h3⟩
  · rintro ⟨h1, h2, h3⟩
    exact ⟨_, h1, _, h2, _, h3, rfl⟩

theorem ofJson?_bind_metadata {c : SecretsConfig} (h : ofJson? (.object members) = some c)
    {v : Value} {m : Meta} (hv : Meta.ofJson? v = some m) :
    ofJson? (.object (Value.bind "metadata" v members)) = some { c with metadata := m } := by
  obtain ⟨_, h2, h3⟩ := ofJson?_object.mp h
  rw [ofJson?_object, required_bind_self, required_bind_ne (by decide),
    optional_bind_ne (by decide)]
  exact ⟨hv, h2, h3⟩

theorem ofJson?_bind_status {c : SecretsConfig} (h : ofJson? (.object members) = some c)
    {v : Value} {s : Status} (hv : Status.ofJson? v = some s) :
    ofJson? (.object (Value.bind "status" v members)) = some { c with status := some s } := by
  obtain ⟨h1, h2, _⟩ := ofJson?_object.mp h
  have hnull : v ≠ .null := by
    rintro rfl
    cases hv
  rw [ofJson?_object, required_bind_ne (by decide), required_bind_ne (by decide),
    optional_bind_self hnull, hv]
  exact ⟨h1, h2, rfl⟩

/-- The metadata is that of an object. -/
theorem metadata_of_ofJson? {c : SecretsConfig} (h : ofJson? (.object members) = some c) :
    ∃ ms, members.lookup "metadata" = some (.object ms) ∧
      Meta.ofJson? (.object ms) = some c.metadata := by
  obtain ⟨hmetadata, _, _⟩ := ofJson?_object.mp h
  obtain ⟨m, hm, hread⟩ := Option.bind_eq_some_iff.mp hmetadata
  obtain ⟨ms, rfl, _⟩ := Meta.ofJson?_eq_some.mp hread
  exact ⟨ms, hm, hread⟩

/-- The name that was read is the one that stands there. -/
theorem name_eq {c : SecretsConfig} {v : Value} {name : String} (h : ofJson? v = some c)
    (hname : name? v = some name) : c.name = name := by
  cases v with
  | object members =>
      obtain ⟨ms, hms, hread⟩ := metadata_of_ofJson? h
      exact Meta.anyName_eq hread (Meta.lookup_of_at? hname hms)
  | _ => simp [name?, Value.at?_cons, Value.get?] at hname

/-- The condition that counts is equivalent to this one. -/
def Carries (config : SecretsConfig) (condition : Condition) : Prop :=
  ∃ c, config.condition? condition.type = some c ∧ c.equivalent condition = true

theorem carries_iff {config : SecretsConfig} {condition : Condition} :
    config.Carries condition ↔ condition.merge? config.conditions = none :=
  Condition.merge?_eq_none_iff.symm

theorem Status.ofJson?_bind_conditions (cs : List Condition) :
    Status.ofJson? (.object (Value.bind "conditions" (.array (cs.map Condition.toJson)) members)) =
      some ⟨cs⟩ := by
  simp only [Status.ofJson?, Value.record?, Option.bind_eq_bind, Option.bind_some,
    defaulted_bind_self, Value.list?, Condition.mapM_ofJson?_toJson]

end SecretsConfig

end SecretsWarden.Resource
