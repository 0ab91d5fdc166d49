import SecretsWarden.Proofs.Resource.Written
import SecretsWarden.Proofs.StatusRecord.Patch

/-!
# What is written reads back

Writing and reading a spec, a status or a condition follow their fields one by one, and what one
leaves out is what the other takes for absent. So a configuration object whose conditions were read,
merged with a new one and written back has the conditions that it had, field by field, but for the
one entry that the new condition replaced.
-/

namespace SecretsWarden.StatusRecord

open Cluster Json Resource ApiServer

/-- The status that a patch carries reads as the conditions that were to be written. -/
theorem takes_patchBody (resourceVersion : Option String) (conditions : List Condition) :
    ∃ v, (patchBody resourceVersion conditions).get? "status" = some v ∧
      SecretsConfig.Status.reader.Takes v ⟨conditions⟩ :=
  ⟨_, rfl, SecretsConfig.Status.takes_written (SecretsConfig.Status.written_toJson _)⟩

/-- **The configuration reads back.** Whatever is written of a spec, a status or a condition is
read as it was, also among members of unknown names, and for a spec and a condition as an array of
all fields. A configuration object to which a condition was written keeps its spec, and of its
conditions only the first one of that type is another. -/
theorem configuration_reads_back :
    SecretsConfig.Spec.reader.ReadsBack SecretsConfig.Spec.toJson SecretsConfig.Spec.Written ∧
    SecretsConfig.Status.reader.ReadsBack SecretsConfig.Status.toJson
      SecretsConfig.Status.Written ∧
    Condition.reader.ReadsBack Condition.toJson Condition.Written ∧
    ∀ (members : List (String × Value)) (config : SecretsConfig) (new : Condition)
      (conditions : List Condition), SecretsConfig.ofJson? (.object members) = some config →
        new.merge? config.conditions = some conditions →
          new.Exchanged config.conditions conditions ∧
          (∀ resourceVersion, ∃ v,
            (patchBody resourceVersion conditions).get? "status" = some v ∧
              SecretsConfig.Status.reader.Takes v ⟨conditions⟩) ∧
          ∀ version stamp, SecretsConfig.ofJson? (stamped stamp ((Value.object members).mergePatch
              (patchBody (some version) conditions))) =
            some {
              metadata := { config.metadata with resourceVersion := some stamp }
              spec := config.spec
              status := some ⟨conditions⟩ } := by
  refine ⟨SecretsConfig.Spec.readsBack, SecretsConfig.Status.readsBack, Condition.readsBack, ?_⟩
  intro members config new conditions hconfig hmerge
  exact ⟨Condition.exchanged_merge? hmerge,
    fun resourceVersion => takes_patchBody resourceVersion conditions,
    fun version stamp => ofJson?_patched hconfig (Condition.ne_nil_of_merge? hmerge) version stamp⟩

end SecretsWarden.StatusRecord
