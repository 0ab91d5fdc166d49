import SecretsWarden.Proofs.Cluster.Serving
import SecretsWarden.Proofs.Dialogue.Calls
import SecretsWarden.Proofs.StatusRecord.Patch

/-!
# Recording on a reference server

Undisturbed, a recording needs one try: what it reads is what is stored, so its write is accepted
and the stored conditions are then those with the condition merged in.
-/

namespace SecretsWarden

open Cluster Dialogue Json Resource ApiServer

namespace StatusRecord

variable {p : Policy} {s : ApiServer} {v : Value} {config : SecretsConfig} {clock : Nat}

/-- The server after a condition was merged into the status, if that made a difference. -/
def recorded (s : ApiServer) (v : Value) (config : SecretsConfig) (condition : Condition) :
    ApiServer :=
  match condition.merge? config.conditions with
  | none => s
  | some conditions =>
    s.write (some (v.mergePatch (patchBody config.metadata.resourceVersion conditions)))

theorem answer_read_config (hobject : s.object? p = some v) :
    s.answer p ⟨.get, configAddress, none, none⟩ = (found? (some v), s) := by
  rw [answer_get p s rfl, ApiServer.read, if_pos rfl, hobject]

theorem receive_config (hconfig : SecretsConfig.ofJson? v = some config) :
    (found? (some v)).receive SecretsConfig.reader = .ok config :=
  receive_of_ofJson? hconfig

/-- A write over the current object is accepted. -/
theorem answer_write (hobject : s.object? p = some v)
    (hconfig : SecretsConfig.ofJson? v = some config) (query : Option String)
    (conditions : List Condition) :
    s.answer p ⟨.patch, statusAddress, query,
        some (patchBody config.metadata.resourceVersion conditions)⟩ =
      (found? ((s.write (some (v.mergePatch
          (patchBody config.metadata.resourceVersion conditions)))).object? p),
        s.write (some (v.mergePatch
          (patchBody config.metadata.resourceVersion conditions)))) := by
  have hversion := version?_object? hobject
  obtain ⟨_, hread⟩ := resourceVersion_of_version? hversion hconfig
  have hcurrent : version? (patchBody config.metadata.resourceVersion conditions) = none ∨
      version? (patchBody config.metadata.resourceVersion conditions) = version? v := by
    rw [hread, version?_patchBody, hversion]
    exact Or.inr rfl
  simp only [answer, if_true, ApiServer.patchStatus, hobject, if_pos hcurrent]

variable (clock) in
/-- A try at recording on the server. -/
theorem run_update (hobject : s.object? p = some v)
    (hconfig : SecretsConfig.ofJson? v = some config) (condition : Condition) :
    ∃ wrote, (update SecretsConfig.singleton condition).run (serve p) clock s =
      ⟨.ok (.ok wrote), clock, recorded s v config condition⟩ := by
  have hread : Request.read SecretsConfig.path SecretsConfig.singleton =
      .ok ⟨.get, configAddress, none, none⟩ := rfl
  rw [update, Cluster.get, hread, sendBuilt, send, Dialogue.bind, run_serve,
    answer_read_config hobject]
  simp only [Dialogue.bind, receive_config hconfig]
  unfold recorded
  cases hmerge : condition.merge? config.conditions with
  | none => exact ⟨false, rfl⟩
  | some conditions =>
      refine ⟨true, ?_⟩
      have hwriting : Request.named .patch SecretsConfig.path SecretsConfig.singleton
          ("/status?&fieldManager=" ++ fieldManager)
          (some (patchBody config.metadata.resourceVersion conditions)) =
            .ok ⟨.patch, statusAddress, some ("&fieldManager=" ++ fieldManager),
              some (patchBody config.metadata.resourceVersion conditions)⟩ := rfl
      obtain ⟨v', config', hwritten, hconfig', _⟩ :=
        exists_written hobject hconfig (Condition.ne_nil_of_merge? hmerge)
      simp only [Cluster.patchStatus, hwriting, sendBuilt, send, Dialogue.bind, run_serve]
      rw [answer_write hobject hconfig, hwritten, receive_config hconfig']
      rfl

/-- What was recorded is merged into what was stored, and nothing else is different. -/
theorem exists_recorded (hobject : s.object? p = some v)
    (hconfig : SecretsConfig.ofJson? v = some config) (condition : Condition) :
    ∃ v' config', (recorded s v config condition).object? p = some v' ∧
      SecretsConfig.ofJson? v' = some config' ∧
      config'.conditions = condition.merge config.conditions ∧
      ∀ path, Value.Apart path ["metadata", "resourceVersion"] →
        Value.Apart path ["status", "conditions"] → v'.at? path = v.at? path := by
  unfold recorded Condition.merge
  cases hmerge : condition.merge? config.conditions with
  | none => exact ⟨v, config, hobject, hconfig, rfl, fun _ _ _ => rfl⟩
  | some conditions =>
      obtain ⟨v', config', hwritten, hconfig', hconditions, _, hkept⟩ :=
        exists_written hobject hconfig (Condition.ne_nil_of_merge? hmerge)
      exact ⟨v', config', hwritten, hconfig', hconditions, hkept⟩

theorem definitions_recorded (s : ApiServer) (v : Value) (config : SecretsConfig)
    (condition : Condition) : (recorded s v config condition).definitions = s.definitions := by
  unfold recorded
  split <;> rfl

variable (clock) in
/-- A recording on the server, whatever its retries are. -/
theorem run_record (hobject : s.object? p = some v)
    (hconfig : SecretsConfig.ofJson? v = some config)
    (hname : config.name = SecretsConfig.singleton)
    (backoff : Backoff) (now type upToDate : String) (outcome : Except Failure Unit) :
    ∃ wrote, (record backoff now config type outcome upToDate).run (serve p) clock s =
      ⟨.ok (.ok wrote), clock,
        recorded s v config (outcomeCondition now config type outcome upToDate)⟩ := by
  unfold record
  simp only
  cases hmerge : (outcomeCondition now config type outcome upToDate).merge? config.conditions with
  | none =>
      refine ⟨false, ?_⟩
      rw [recorded, hmerge]
      rfl
  | some conditions =>
      obtain ⟨wrote, hrun⟩ := run_update clock hobject hconfig
        (outcomeCondition now config type outcome upToDate)
      rw [hname]
      refine ⟨wrote, (Backoff.retry_settled hrun ?_ backoff).1⟩
      intro e he
      cases he

end StatusRecord

end SecretsWarden
