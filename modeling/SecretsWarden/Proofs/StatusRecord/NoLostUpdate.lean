import SecretsWarden.Proofs.Cluster.Concurrent
import SecretsWarden.Proofs.StatusRecord.Cycle
import SecretsWarden.Proofs.StatusRecord.Patch

/-!
# No update of the status is lost

Any number of recordings and other writers share one configuration object. Whatever the order of
their requests, a write of a recording that the server accepts merges the condition into the list
that is stored at that moment, although the list was computed from an earlier reading: the version
that the write carries is that of the reading, so if it is still current, then so is the list.
-/

namespace SecretsWarden.StatusRecord

open Cluster Dialogue Json Resource ApiServer

/-- What a recording is called with. -/
structure Recording where
  backoff : Backoff
  now : String
  config : SecretsConfig
  type : String
  outcome : Except Failure Unit
  upToDate : String

namespace Recording

def session (r : Recording) : Session (Except Failure Bool) :=
  record r.backoff r.now r.config r.type r.outcome r.upToDate

def condition (r : Recording) : Condition :=
  outcomeCondition r.now r.config r.type r.outcome r.upToDate

end Recording

/-- The recordings and their server after a schedule. -/
def recordingSystem (p : Policy) (server : ApiServer) (recordings : List Recording)
    (schedule : List Action) : System (Except Failure Bool) :=
  System.run p ⟨server, recordings.map Recording.session⟩ schedule

variable {p : Policy} {s : ApiServer}

theorem recordingSystem_append (server : ApiServer) (recordings : List Recording)
    (schedule : List Action) (action : Action) :
    recordingSystem p server recordings (schedule ++ [action]) =
      (recordingSystem p server recordings schedule).step p action := by
  simp [recordingSystem, System.run]

/-- A turn that changes the server is a request that the server acts on. -/
theorem asks_of_turn_ne {α : Type} {session : Session α} {passage : Passage}
    (h : (System.turn p passage s session).1 ≠ s) :
    ∃ request next, session = .ask request next ∧ (s.answer p request).2 ≠ s ∧
      (System.turn p passage s session).1 = (s.answer p request).2 := by
  cases session with
  | done a => exact absurd rfl h
  | abort fault => exact absurd rfl h
  | pause time next => exact absurd rfl h
  | ask request next =>
      cases passage with
      | clear => exact ⟨request, next, rfl, h, rfl⟩
      | broken heard reply hreply =>
          cases heard with
          | true => exact ⟨request, next, rfl, h, rfl⟩
          | false => exact absurd rfl h

/-- A recording that asks for a change asks for the merged list over something it was told. -/
theorem writing_of_leads {r : Recording} {c : Course Request Reply} {request : Request}
    {next : Reply → Session (Except Failure Bool)} (hleads : Leads r.session c (.ask request next))
    (hmethod : request.method = .patch) (htold : s.Told p c) :
    ∃ v latest conditions, Known p s v ∧ SecretsConfig.ofJson? v = some latest ∧
      r.condition.merge? latest.conditions = some conditions ∧
      writing r.config.name latest conditions = .ok request := by
  -- Whatever comes back, the course goes on to some end, and there the write has its reading.
  obtain ⟨after, out, hends, _⟩ := (hleads.answered (.failed "")).exists_ends
  rw [List.append_assoc] at hends
  obtain ⟨earlier, read, answer, latest, conditions, rfl, hread, hlatest, hmerge, hwriting⟩ :=
    writesFollowReads_of_ends_record hends c after request _ rfl hmethod
  obtain ⟨v, hknown, hv⟩ := htold read answer latest (by simp) (method_of_named hread)
    (prefix_of_named hread isPathText_path) hlatest
  exact ⟨v, latest, conditions, hknown, hv, hmerge, hwriting⟩

/-- A write that is accepted over a reading merges into what is stored: the reading is current. -/
theorem config?_written {v current body : Value} {latest : SecretsConfig} {name : String}
    {condition : Condition} {conditions : List Condition} {request : Request}
    (hknown : Known p s v) (hv : SecretsConfig.ofJson? v = some latest)
    (hmerge : condition.merge? latest.conditions = some conditions)
    (hwriting : writing name latest conditions = .ok request) (hbody : request.body = some body)
    (hcurrent : s.object? p = some current)
    (hversion : version? body = none ∨ version? body = version? current) :
    s.config? p = some latest ∧ ∃ after,
      (s.write (some (current.mergePatch body))).config? p = some after ∧
      after.metadata.generation = latest.metadata.generation ∧ after.conditions = conditions := by
  have hpatch := (body_of_named hwriting).symm.trans hbody
  cases hpatch
  obtain ⟨k, _, hvk, _⟩ := id hknown
  obtain ⟨_, hlatest⟩ := resourceVersion_of_version? hvk hv
  rw [hlatest, version?_patchBody] at hversion
  have hsame := hknown.current hcurrent
    (hvk.trans (hversion.resolve_left (Option.some_ne_none _)))
  subst hsame
  exact ⟨config?_eq_some.mpr ⟨v, hcurrent, hv⟩, _, config?_eq_some.mpr ⟨_, object?_write p s _,
    ofJson?_written hcurrent hv (Condition.ne_nil_of_merge? hmerge) _⟩, rfl, rfl⟩

/-- **No lost update.** A turn of a recording that changes the server at all merges the condition
of that recording into the conditions as they are stored at that moment. The object gets a new
version, and nothing else is different, neither in it nor in the definitions. -/
theorem accepted_write_merges_stored (p : Policy) (server : ApiServer)
    (recordings : List Recording) (schedule : List Action) (i : Nat) (passage : Passage)
    (hchanged : (recordingSystem p server recordings (schedule ++ [.turn i passage])).server ≠
      (recordingSystem p server recordings schedule).server) :
    ∃ recording v v' before after, recordings[i]? = some recording ∧
      (recordingSystem p server recordings schedule).server.object? p = some v ∧
      (recordingSystem p server recordings (schedule ++ [.turn i passage])).server.object? p
        = some v' ∧
      SecretsConfig.ofJson? v = some before ∧ SecretsConfig.ofJson? v' = some after ∧
      after.conditions = recording.condition.merge before.conditions ∧
      after.conditions.filter (·.type ≠ recording.type) =
        before.conditions.filter (·.type ≠ recording.type) ∧
      version? v' =
        some (p.version ((recordingSystem p server recordings schedule).server.writes + 1)) ∧
      (∀ path, Value.Apart path ["metadata", "resourceVersion"] →
        Value.Apart path ["status", "conditions"] → v'.at? path = v.at? path) ∧
      (recordingSystem p server recordings (schedule ++ [.turn i passage])).server.definitions =
        (recordingSystem p server recordings schedule).server.definitions := by
  rw [recordingSystem_append] at hchanged ⊢
  have hinformed : System.Informed p (recordings.map Recording.session)
      (recordingSystem p server recordings schedule) :=
    System.informed_run (System.informed_start p server _) schedule
  generalize recordingSystem p server recordings schedule = S at hinformed hchanged ⊢
  cases hsession : S.sessions[i]? with
  | none =>
      rw [System.step_turn_none passage hsession] at hchanged
      exact absurd rfl hchanged
  | some session =>
      rw [System.step_turn passage hsession] at hchanged ⊢
      obtain ⟨request, next, rfl, hne, hturn⟩ := asks_of_turn_ne hchanged
      simp only [hturn]
      obtain ⟨_, c, hfirst, hleads, htold⟩ := hinformed i _ hsession
      rw [List.getElem?_map] at hfirst
      obtain ⟨r, hr, rfl⟩ := Option.map_eq_some_iff.mp hfirst
      have hmethod : request.method = .patch := by
        cases hm : request.method with
        | get =>
            rw [answer_get p _ hm] at hne
            exact absurd rfl hne
        | patch => rfl
      obtain ⟨v, latest, conditions, hknown, hv, hmerge, hwriting⟩ :=
        writing_of_leads hleads hmethod htold
      obtain ⟨body, current, _, hbody, hcurrent, hversion, hafter⟩ :=
        written_of_answer_ne (prefix_of_named hwriting isPathText_path) hne
      -- The write carries the version of its reading, so that reading is still current.
      have hbody := (body_of_named hwriting).symm.trans hbody
      cases hbody
      obtain ⟨k, _, hvk, _⟩ := id hknown
      obtain ⟨_, hlatest⟩ := resourceVersion_of_version? hvk hv
      rw [hlatest, version?_patchBody] at hversion
      have hsame := hknown.current hcurrent
        (hvk.trans (hversion.resolve_left (Option.some_ne_none _)))
      subst hsame
      have hmerged : r.condition.merge latest.conditions = conditions := by
        rw [Condition.merge, hmerge, Option.getD_some]
      obtain ⟨v', after, hwritten, hread, hconditions, hnew, hkept⟩ :=
        exists_written hcurrent hv (Condition.ne_nil_of_merge? hmerge)
      rw [hafter]
      refine ⟨r, v, v', latest, after, hr, hcurrent, hwritten, hv, hread, ?_, ?_, hnew, hkept, rfl⟩
      · rw [hconditions, hmerged]
      · rw [hconditions]
        exact Condition.filter_merge? hmerge

/-- A recording of a success, at once and with no condition known before. -/
def firstSuccess (type : String) : Recording where
  backoff := .withoutDelay 2
  now := "2024-05-01T10:00:00Z"
  config := { metadata := { name := some "cluster" }, spec := {}, status := none }
  type
  outcome := .ok ()
  upToDate := "done"

/-- Two recordings have read the object, which has a condition of a third writer, and the first of
them writes. -/
theorem write_between_two_recordings :
    ∃ recording v v' before after,
      [firstSuccess "A", firstSuccess "B"][0]? = some recording ∧
      SecretsConfig.ofJson? v = some before ∧ SecretsConfig.ofJson? v' = some after ∧
      after.conditions = recording.condition.merge before.conditions := by
  have hchanged : ∀ S S' : System (Except Failure Bool),
      S'.server.writes = S.server.writes + 1 → S'.server ≠ S.server := by
    intro S S' hwrites heq
    rw [heq] at hwrites
    omega
  obtain ⟨recording, v, v', before, after, hr, _, _, hbefore, hafter, hmerge, _⟩ :=
    accepted_write_merges_stored (.counting fun _ => none)
      { config := some (.object [("metadata", .object [("name", .string "cluster")]),
          ("spec", .object []), ("status", .object [("conditions", .array [
            .object [("type", .string "C"), ("status", .string "True")]])])]) }
      [firstSuccess "A", firstSuccess "B"] [.turn 0 .clear, .turn 1 .clear] 0 .clear
      (hchanged _ _ (by decide +kernel))
  exact ⟨recording, v, v', before, after, hr, hbefore, hafter, hmerge⟩

end SecretsWarden.StatusRecord
