import SecretsWarden.Proofs.Cluster.ApiServer
import SecretsWarden.StatusRecord

/-!
# What the patch of a status does

The patch replaces the list of conditions and nothing else, its version aside, and the patched
object reads as the old one with the new conditions.
-/

namespace SecretsWarden.StatusRecord

open Cluster Json Resource ApiServer

variable {v : Value} {version : String} {conditions : List Condition} {c : SecretsConfig}

/-- The patch of the version, followed by that of the conditions. -/
theorem patchBody_eq (resourceVersion : Option String) (hconditions : conditions ≠ []) :
    patchBody resourceVersion conditions = .object (
      [("metadata", .object [("resourceVersion", (resourceVersion.map .string).getD .null)])] ++
        [("status", .object [("conditions", .array (conditions.map Condition.toJson))])]) := by
  simp [patchBody, SecretsConfig.Status.toJson, hconditions]

theorem touches_patchBody {path : List String} (resourceVersion : Option String)
    (hconditions : conditions ≠ []) (hversion : Value.Apart path ["metadata", "resourceVersion"])
    (hstatus : Value.Apart path ["status", "conditions"]) :
    (patchBody resourceVersion conditions).touches path = false := by
  rw [patchBody_eq resourceVersion hconditions]
  exact Value.touches_append (Value.touches_along hversion _) (Value.touches_along hstatus _)

theorem version?_patchBody (version : String) (conditions : List Condition) :
    version? (patchBody (some version) conditions) = some version :=
  rfl

/-! ## Reading what was patched -/

theorem ofJson?_stamped {members : List (String × Value)}
    (h : SecretsConfig.ofJson? (.object members) = some c) (version : String) :
    SecretsConfig.ofJson? (stamped version (.object members)) =
      some { c with metadata := { c.metadata with resourceVersion := some version } } := by
  obtain ⟨ms, hm, hread⟩ := SecretsConfig.metadata_of_ofJson? h
  unfold stamped
  rw [Value.mergePatch_singleton _ _ (by simp), Value.mergePatch_singleton _ _ (by simp)]
  refine SecretsConfig.ofJson?_bind_metadata h ?_
  simp only [Value.membersOrNone, hm, Option.getD_some, Value.mergePatch]
  exact Meta.ofJson?_bind_resourceVersion hread version

theorem ofJson?_mergePatch_status {members : List (String × Value)}
    (h : SecretsConfig.ofJson? (.object members) = some c) (conditions : List Condition) :
    SecretsConfig.ofJson? ((Value.object members).mergePatch (.object
      [("status", .object [("conditions", .array (conditions.map Condition.toJson))])])) =
      some { c with status := some ⟨conditions⟩ } := by
  rw [Value.mergePatch_singleton _ _ (by simp), Value.mergePatch_singleton _ _ (by simp)]
  refine SecretsConfig.ofJson?_bind_status h ?_
  simp only [Value.mergePatch]
  exact SecretsConfig.Status.ofJson?_bind_conditions conditions

/-- An object that was patched with its version or another one, and then stamped, reads as before
but for the new conditions and the stamp. -/
theorem ofJson?_patched {members : List (String × Value)}
    (h : SecretsConfig.ofJson? (.object members) = some c) (hconditions : conditions ≠ [])
    (version stamp : String) :
    SecretsConfig.ofJson? (stamped stamp
        ((Value.object members).mergePatch (patchBody (some version) conditions))) =
      some {
        metadata := { c.metadata with resourceVersion := some stamp }
        spec := c.spec
        status := some ⟨conditions⟩ } := by
  rw [patchBody_eq _ hconditions, Value.mergePatch_append]
  have hversion := ofJson?_stamped h version
  unfold stamped at hversion
  rw [Value.mergePatch_object] at hversion
  have hstatus := ofJson?_mergePatch_status hversion conditions
  rw [Value.mergePatch_object] at hstatus
  have hstamp := ofJson?_stamped hstatus stamp
  rw [← Value.mergePatch_object] at hstamp
  exact hstamp

/-- The version that was read is the one that the object has. -/
theorem resourceVersion_of_version? (hversion : version? v = some version)
    (h : SecretsConfig.ofJson? v = some c) :
    (∃ members, v = .object members) ∧ c.metadata.resourceVersion = some version := by
  cases v with
  | object members =>
      refine ⟨⟨members, rfl⟩, ?_⟩
      obtain ⟨ms, hm, hread⟩ := SecretsConfig.metadata_of_ofJson? h
      exact Meta.resourceVersion_eq hread (Meta.lookup_of_at? hversion hm)
  | _ => cases hversion

theorem at?_stamped {path : List String} (h : Value.Apart path ["metadata", "resourceVersion"])
    (version : String) (v : Value) : (stamped version v).at? path = v.at? path :=
  Value.at?_mergePatch (Value.touches_along h _) v

/-- What a write over the current object stores reads as before but for the new conditions and the
new version. -/
theorem ofJson?_written {p : Policy} {s : ApiServer} (hobject : s.object? p = some v)
    (hconfig : SecretsConfig.ofJson? v = some c) (hconditions : conditions ≠ []) (stamp : String) :
    SecretsConfig.ofJson? (stamped stamp
        (v.mergePatch (patchBody c.metadata.resourceVersion conditions))) =
      some {
        metadata := { c.metadata with resourceVersion := some stamp }
        spec := c.spec
        status := some ⟨conditions⟩ } := by
  obtain ⟨⟨members, rfl⟩, hversion⟩ :=
    resourceVersion_of_version? (version?_object? hobject) hconfig
  rw [hversion]
  exact ofJson?_patched hconfig hconditions _ _

/-- A write over the current object stores the new conditions and a new version, and leaves
everything else as it is. -/
theorem exists_written {p : Policy} {s : ApiServer} (hobject : s.object? p = some v)
    (hconfig : SecretsConfig.ofJson? v = some c) (hconditions : conditions ≠ []) :
    ∃ v' c', (s.write (some (v.mergePatch
        (patchBody c.metadata.resourceVersion conditions)))).object? p = some v' ∧
      SecretsConfig.ofJson? v' = some c' ∧ c'.conditions = conditions ∧
      version? v' = some (p.version (s.writes + 1)) ∧
      ∀ path, Value.Apart path ["metadata", "resourceVersion"] →
        Value.Apart path ["status", "conditions"] → v'.at? path = v.at? path := by
  refine ⟨_, _, object?_write p s _, ofJson?_written hobject hconfig hconditions _, rfl,
    version?_stamped _ _, ?_⟩
  intro path hpath hstatus
  rw [at?_stamped hpath, Value.at?_mergePatch (touches_patchBody _ hconditions hpath hstatus)]

end SecretsWarden.StatusRecord
