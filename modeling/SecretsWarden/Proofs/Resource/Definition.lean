import SecretsWarden.Injection
import SecretsWarden.Proofs.Json.MergePatch
import SecretsWarden.Proofs.Resource.Reading

/-!
# Definitions as they are stored

What the operator reads of a definition is what stands there: its name, its labels and its
annotations. A definition that was given the annotation still reads.
-/

namespace SecretsWarden.Resource

open Json

variable {members : List (String × Value)} {v w : Value} {key name field : String}

/-! ## Entries -/

theorem map?_cons {m : String × Value} {entries : List (String × String)} :
    (Value.object (m :: members)).map? Value.string? = some entries ↔
      ∃ text more, m.2.string? = some text ∧
        (Value.object members).map? Value.string? = some more ∧ entries = (m.1, text) :: more := by
  simp only [Value.map?, List.mapM_cons, Option.bind_eq_bind, Option.bind_eq_some_iff,
    Option.map_eq_some_iff, Option.pure_def, Option.some.injEq]
  constructor
  · rintro ⟨_, ⟨text, htext, rfl⟩, more, hmore, rfl⟩
    exact ⟨text, more, htext, hmore, rfl⟩
  · rintro ⟨text, more, htext, hmore, rfl⟩
    exact ⟨_, ⟨text, htext, rfl⟩, more, hmore, rfl⟩

theorem lookup_of_map? {entries : List (String × String)}
    (h : v.map? Value.string? = some entries) (key : String) :
    entries.lookup key = (v.get? key).bind Value.string? := by
  cases v with
  | object members =>
      induction members generalizing entries with
      | nil =>
          cases h
          rfl
      | cons m rest ih =>
          obtain ⟨name, w⟩ := m
          obtain ⟨text, more, htext, hmore, rfl⟩ := map?_cons.mp h
          rw [Value.get?, Value.lookup_cons_eq_ite, Value.lookup_cons_eq_ite, ih hmore]
          by_cases hkey : key = name
          · rw [if_pos hkey, if_pos hkey, Option.bind_some, htext]
          · rw [if_neg hkey, if_neg hkey, Value.get?]
  | _ => cases h

/-- Texts under names, one of them bound to another text, are still texts under names. -/
theorem exists_map?_bind {entries : List (String × String)}
    (h : (Value.object members).map? Value.string? = some entries) (key text : String) :
    ∃ entries', (Value.object (Value.bind key (.string text) members)).map? Value.string? =
      some entries' := by
  induction members generalizing entries with
  | nil => exact ⟨[(key, text)], rfl⟩
  | cons m rest ih =>
      obtain ⟨name, w⟩ := m
      obtain ⟨t, more, ht, hmore, rfl⟩ := map?_cons.mp h
      unfold Value.bind
      by_cases hname : name = key
      · rw [if_pos hname]
        exact ⟨_, map?_cons.mpr ⟨text, more, rfl, hmore, rfl⟩⟩
      · obtain ⟨entries', hentries'⟩ := ih hmore
        rw [if_neg hname]
        exact ⟨_, map?_cons.mpr ⟨t, entries', ht, hentries', rfl⟩⟩

/-- The entry that was read is the one that stands there. -/
theorem hasEntry_of_optional {entries : Option (List (String × String))}
    (h : Json.optional members field (Value.map? Value.string?) = some entries)
    (key value : String) :
    Meta.hasEntry entries key value =
      decide (((members.lookup field).bind (·.get? key)).bind Value.string? = some value) := by
  unfold Meta.hasEntry
  rcases optional_eq_some h with ⟨rfl, hnone | hnull⟩ | ⟨w, read, rfl, hw, _, hread⟩
  · simp [hnone]
  · simp [hnull, Value.get?]
  · rw [hw, Option.getD_some, lookup_of_map? hread key, Option.bind_some]
    exact Bool.beq_eq_decide_eq _ _

theorem hasEntryAt_eq {ms : List (String × Value)} (h : v.get? "metadata" = some (.object ms))
    {entries : Option (List (String × String))}
    (hread : Json.optional ms field (Value.map? Value.string?) = some entries)
    (entry : String × String) :
    Meta.hasEntry entries entry.1 entry.2 = hasEntryAt v field entry := by
  have hentry : (fun w : Value => w.at? [entry.1]) = (·.get? entry.1) :=
    funext fun w => Value.at?_singleton w entry.1
  rw [hasEntry_of_optional hread, hasEntryAt, Value.at?_cons, h, Option.bind_some, Value.at?_cons,
    hentry]
  rfl

/-! ## Definitions -/

namespace Definition

theorem ofJson?_eq_some {d : Definition} :
    ofJson? v = some d ↔ ∃ members, v = .object members ∧
      (Shape.fields.all fun (name, shape) => fits members name shape) = true ∧
      ∃ m, Json.optional members "metadata" Meta.ofJson? = some m ∧ d = ⟨m.getD {}⟩ := by
  cases v with
  | object members =>
      simp only [ofJson?, Value.object.injEq, exists_eq_left']
      split
      · rename_i hfits
        simp only [hfits, true_and, Option.map_eq_some_iff]
        constructor
        · rintro ⟨m, hm, rfl⟩
          exact ⟨m, hm, rfl⟩
        · rintro ⟨m, hm, rfl⟩
          exact ⟨m, hm, rfl⟩
      · rename_i hfits
        simp [hfits]
  | _ => simp [ofJson?]

/-- The metadata is that of an object, or there is none. -/
theorem metadata_of_ofJson? {d : Definition} (h : ofJson? v = some d) :
    (d.metadata = {} ∧ ∀ path, path ≠ [] → v.at? ("metadata" :: path) = none) ∨
      ∃ ms, v.get? "metadata" = some (.object ms) ∧
        Meta.ofJson? (.object ms) = some d.metadata := by
  obtain ⟨members, rfl, _, m, hm, rfl⟩ := ofJson?_eq_some.mp h
  rcases optional_eq_some hm with ⟨rfl, hnone | hnull⟩ | ⟨w, read, rfl, hw, _, hread⟩
  · exact Or.inl ⟨rfl, fun path _ => by simp [Value.at?_cons, Value.get?, hnone]⟩
  · refine Or.inl ⟨rfl, fun path hpath => ?_⟩
    rw [Value.at?_cons, Value.get?, hnull, Option.bind_some, Value.at?_null hpath]
  · obtain ⟨ms, rfl, _⟩ := Meta.ofJson?_eq_some.mp hread
    exact Or.inr ⟨ms, hw, hread⟩

theorem isManaged_eq {d : Definition} (h : ofJson? v = some d) :
    d.isManaged = labelled v := by
  unfold isManaged Meta.isLabelledWith labelled
  rcases metadata_of_ofJson? h with ⟨hmeta, hnone⟩ | ⟨ms, hms, hread⟩
  · rw [hmeta, hasEntryAt, hnone _ (by simp)]
    rfl
  · obtain ⟨_, hobject, _, _, _, _, _, hlabels, _⟩ := Meta.ofJson?_eq_some.mp hread
    cases hobject
    exact hasEntryAt_eq hms hlabels managedLabel

theorem isAnnotated_eq {d : Definition} (h : ofJson? v = some d) :
    d.isAnnotated = annotated v := by
  unfold isAnnotated Meta.isAnnotatedWith annotated
  rcases metadata_of_ofJson? h with ⟨hmeta, hnone⟩ | ⟨ms, hms, hread⟩
  · rw [hmeta, hasEntryAt, hnone _ (by simp)]
    rfl
  · obtain ⟨_, hobject, _, _, _, _, _, _, hannotations, _⟩ := Meta.ofJson?_eq_some.mp hread
    cases hobject
    exact hasEntryAt_eq hms hannotations injection

theorem name_eq {d : Definition} (h : ofJson? v = some d) (hname : name? v = some name) :
    d.name = name := by
  unfold name? at hname
  rcases metadata_of_ofJson? h with ⟨_, hnone⟩ | ⟨ms, hms, hread⟩
  · rw [hnone _ (by simp)] at hname
    cases hname
  · exact Meta.anyName_eq hread (Meta.lookup_of_at? hname hms)

/-! ## After the annotation was set -/

/-- Where the annotation stands in a definition. -/
def annotationPath : List String := ["metadata", "annotations", injection.1]

theorem patchBody_eq_along :
    Injection.patchBody = Value.along annotationPath (.string injection.2) :=
  rfl

theorem at?_patched (v : Value) :
    (v.mergePatch Injection.patchBody).at? annotationPath = some (.string injection.2) := by
  rw [patchBody_eq_along, Value.at?_mergePatch_along]

/-- Setting the annotation leaves everything else as it is. -/
theorem at?_patched_of_apart {path : List String} (h : Value.Apart path annotationPath)
    (v : Value) : (v.mergePatch Injection.patchBody).at? path = v.at? path := by
  rw [patchBody_eq_along, Value.at?_mergePatch (Value.touches_along h _)]

/-- One definition is another one that was given the annotation, and nothing else. -/
structure GainsAnnotation (v w : Value) : Prop where
  carries : w.at? annotationPath = some (.string injection.2)
  apart : ∀ path, Value.Apart path annotationPath → w.at? path = v.at? path
  kept : ∀ members, v.at? ["metadata", "annotations"] = some (.object members) →
    w.at? ["metadata", "annotations"] =
      some (.object (Value.bind injection.1 (.string injection.2) members))
  created : v.at? ["metadata", "annotations"] = none ∨
      v.at? ["metadata", "annotations"] = some .null →
    w.at? ["metadata", "annotations"] = some (.object [(injection.1, .string injection.2)])

theorem gainsAnnotation_patched (v : Value) :
    GainsAnnotation v (v.mergePatch Injection.patchBody) := by
  have hannotations : (v.mergePatch Injection.patchBody).at? ["metadata", "annotations"] =
      some (((v.at? ["metadata", "annotations"]).getD .null).mergePatch
        (.object [(injection.1, .string injection.2)])) :=
    Value.at?_mergePatch_along_end ["metadata", "annotations"] (by simp) v
  refine ⟨at?_patched v, fun _ hpath => at?_patched_of_apart hpath v, ?_, ?_⟩
  · intro members hmembers
    rw [hannotations, hmembers, Option.getD_some, Value.mergePatch_singleton _ _ (by simp),
      Value.mergePatch]
    rfl
  · intro hnone
    have hnull : (v.at? ["metadata", "annotations"]).getD .null = .null := by
      rcases hnone with hnone | hnone <;> rw [hnone] <;> rfl
    rw [hannotations, hnull, Value.mergePatch_singleton _ _ (by simp), Value.mergePatch]
    rfl

/-- Whether a definition is annotated depends on the annotation only. -/
theorem annotated_congr (h : v.at? annotationPath = w.at? annotationPath) :
    annotated v = annotated w := by
  unfold annotationPath at h
  rw [annotated, annotated, hasEntryAt, hasEntryAt, h]

theorem annotated_patched (v : Value) :
    annotated (v.mergePatch Injection.patchBody) = true := by
  have hentry := at?_patched v
  unfold annotationPath at hentry
  rw [annotated, hasEntryAt, hentry]
  rfl

theorem name?_patched (v : Value) : name? (v.mergePatch Injection.patchBody) = name? v := by
  rw [name?, name?, at?_patched_of_apart (by decide)]

theorem labelled_patched (v : Value) :
    labelled (v.mergePatch Injection.patchBody) = labelled v := by
  rw [labelled, labelled, hasEntryAt, hasEntryAt, at?_patched_of_apart (by decide)]

theorem fits_bind_ne {key : String} (h : key ≠ name) (shape : Json.Shape) :
    fits (Value.bind name v members) key shape = fits members key shape := by
  unfold fits
  rw [Value.lookup_bind_ne h]

/-- A definition with a name still reads after it was annotated. -/
theorem exists_ofJson?_patched {d : Definition} (h : ofJson? v = some d)
    (hname : name? v = some name) :
    ∃ d', ofJson? (v.mergePatch Injection.patchBody) = some d' := by
  rcases metadata_of_ofJson? h with ⟨_, hnone⟩ | ⟨ms, hms, hread⟩
  · rw [name?, hnone _ (by simp)] at hname
    cases hname
  · obtain ⟨members, rfl, hfits, _⟩ := ofJson?_eq_some.mp h
    obtain ⟨_, hobject, _, _, _, _, _, _, hannotations, _⟩ := Meta.ofJson?_eq_some.mp hread
    cases hobject
    have hempty : (Value.object []).map? Value.string? = some [] := rfl
    -- The annotations were texts under names, or there were none.
    obtain ⟨entries, hentries⟩ : ∃ entries, (Value.object (Value.bind injection.1
        (.string injection.2) ((ms.lookup "annotations").getD .null).membersOrNone)).map?
          Value.string? = some entries := by
      rcases optional_eq_some hannotations with ⟨_, hnone | hnull⟩ | ⟨w, read, _, hw, _, hmap⟩
      · rw [hnone]
        exact exists_map?_bind hempty _ _
      · rw [hnull]
        exact exists_map?_bind hempty _ _
      · rw [hw]
        cases w with
        | object ws => exact exists_map?_bind hmap _ _
        | _ => cases hmap
    have hmetadata := Meta.ofJson?_bind_annotations hread hentries
    have hbound : ∀ field ∈ Shape.fields, field.1 ≠ "metadata" := by decide
    have hlookup : members.lookup "metadata" = some (.object ms) := hms
    refine ⟨⟨_⟩, ofJson?_eq_some.mpr ⟨_, Value.mergePatch_singleton _ _ (by simp), ?_,
      some { d.metadata with annotations := some entries }, ?_, rfl⟩⟩
    · rw [List.all_eq_true] at hfits ⊢
      intro field hfield
      show fits _ field.1 field.2 = true
      rw [fits_bind_ne (hbound field hfield)]
      exact hfits field hfield
    · rw [Value.membersOrNone, hlookup, Option.getD_some,
        Value.mergePatch_singleton _ _ (by simp), Value.mergePatch_singleton _ _ (by simp),
        optional_bind_self (by simp)]
      simp only [Value.mergePatch, Value.membersOrNone]
      simp only [Value.membersOrNone] at hmetadata
      rw [hmetadata]
      rfl

end Definition

end SecretsWarden.Resource
