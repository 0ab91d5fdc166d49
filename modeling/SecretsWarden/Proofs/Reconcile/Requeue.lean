import SecretsWarden.Proofs.Reconcile.Absence
import SecretsWarden.Proofs.StatusRecord.Protocol

/-!
# When a failed pass comes back

A pass that failed comes back after the delay for failures, and sooner than that for one reason
only: all it had to do was done, and other writers were in the way of its recording as often as it
could try. Which one it is can be read off the requests. A conflict anywhere else, or beside another
failure, does not count.
-/

namespace SecretsWarden

theorem Cluster.Error.isConflict_iff {e : Cluster.Error} :
    e.isConflict = true ↔ ∃ s, e = .api s ∧ s.code = 409 := by
  cases e <;> simp [Cluster.Error.isConflict]

namespace Duration

theorem min_le_right (a b : Duration) : (a.min b).nanoseconds ≤ b.nanoseconds := by
  unfold min
  split
  · assumption
  · exact Nat.le_refl _

theorem eq_min_iff {a b : Duration} : b = a.min b ↔ b.nanoseconds ≤ a.nanoseconds := by
  unfold min
  constructor
  · intro h
    split at h
    · rw [h]
    · omega
  · intro h
    split
    · obtain ⟨n⟩ := a
      obtain ⟨m⟩ := b
      exact congrArg Duration.mk (Nat.le_antisymm h ‹n ≤ m›)
    · rfl

end Duration

/-! ## Recordings that conflicts used up -/

namespace StatusRecord

open Cluster Dialogue Resource Reconcile

variable {name : String} {condition : Condition} {c : Course Request Reply}

/-- The requests of a recording are this many cycles, and a conflict was the end of each. -/
def OnlyConflicts (name : String) (condition : Condition) (number : Nat) (trace : Trace) : Prop :=
  ∃ cycles : List Trace, trace = cycles.flatten ∧ cycles.length = number ∧
    ∀ cycle ∈ cycles, RecordingCycle name condition cycle ∧ EndsInConflict cycle

/-- The last answer to such a recording is a conflict. -/
theorem OnlyConflicts.last {number : Nat} {trace : Trace}
    (h : OnlyConflicts name condition (number + 1) trace) : EndsInConflict trace := by
  obtain ⟨cycles, rfl, hlength, hcycles⟩ := h
  rcases List.eq_nil_or_concat cycles with rfl | ⟨earlier, cycle, rfl⟩
  · cases hlength
  · obtain ⟨before, request, reply, e, hcycle, hreply, he⟩ := (hcycles cycle (by simp)).2
    refine ⟨earlier.flatten ++ before, request, reply, e, ?_, hreply, he⟩
    rw [List.concat_eq_append, List.flatten_append, List.flatten_singleton, hcycle,
      List.append_assoc]

/-- Tries whose result is a conflict are as many as there may be, and each of them met one. -/
theorem onlyConflicts_of_tries {b : Backoff} {further : Nat} {attempt : UInt32}
    {failure : Failure} {out : Except Duration.Fault (Except Failure Bool)}
    (h : b.Tries (Cycle name condition) further attempt c out) (hout : out = .ok (.error failure))
    (hfailure : failure.isConflict = true) :
    OnlyConflicts name condition (further + 1) (exchanges c) := by
  induction h with
  | @last further _ c _ h hlast =>
      cases hout
      obtain rfl := hlast failure rfl hfailure
      exact ⟨[exchanges c], List.flatten_singleton.symm, rfl,
        List.forall_mem_singleton.mpr (recordingCycle_of_conflict h hfailure)⟩
  | stuck h hconflict hdelay => cases hout
  | @again _ _ c rest _ _ _ h hconflict hdelay hrest ih =>
      obtain ⟨cycles, hcycles, hlength, hall⟩ := ih hout
      refine ⟨exchanges c :: cycles, ?_, congrArg (· + 1) hlength,
        List.forall_mem_cons.mpr ⟨recordingCycle_of_conflict h hconflict, hall⟩⟩
      rw [exchanges_append, List.flatten_cons, ← hcycles]
      rfl

/-- The last request of all tries decides their result. -/
theorem concludes_of_ends_retry {b : Backoff} {result : Except Failure Bool}
    (h : Ends (b.retry (update name condition)) c (.ok result)) :
    Concludes name condition (exchanges c).getLast? result := by
  obtain ⟨earlier, c', hsent, hlength, hearlier, hlast⟩ :=
    cycles_of_tries (Backoff.tries_of_ends_retryFrom gives_update h) rfl
  obtain ⟨cycles, hflatten, hprotocol⟩ :=
    protocol_of_cycles (Nat.lt_succ_of_le hlength) hearlier hlast
  rw [hsent, hflatten]
  exact hprotocol.concludes

/-- If the last answer is a conflict, then so is the result. -/
theorem Concludes.of_conflict {request : Request} {reply : Reply} {e : Error}
    {result : Except Failure Bool} (h : Concludes name condition (some (request, reply)) result)
    (hreply : reply.receive SecretsConfig.reader = .error e) (he : e.isConflict = true) :
    ∃ failure, result = .error failure ∧ failure.isConflict = true := by
  cases h with
  | written h =>
      obtain ⟨_, after, hafter⟩ := h
      cases hafter.symm.trans hreply
  | settled h =>
      rcases h with ⟨_, ⟨s, hs, hcode⟩ | ⟨latest, hlatest, _⟩⟩
      · cases hs.symm.trans hreply
        obtain ⟨s', heq, hcode'⟩ := Error.isConflict_iff.mp he
        cases heq
        omega
      · cases hlatest.symm.trans hreply
  | failed h _ _ =>
      cases h with
      | answered h =>
          cases h.symm.trans hreply
          exact ⟨_, rfl, he⟩
      | unwritable _ hlatest _ _ => cases hlatest.symm.trans hreply

/-- A recording ends in a conflict exactly if conflicts are all that it met, as often as it could
try. -/
theorem conflict_iff_onlyConflicts {b : Backoff} {now type upToDate : String}
    {config : SecretsConfig} {outcome : Except Failure Unit} {result : Except Failure Bool}
    (h : Ends (record b now config type outcome upToDate) c (.ok result)) :
    (∃ failure, result = .error failure ∧ failure.isConflict = true) ↔
      OnlyConflicts config.name (outcomeCondition now config type outcome upToDate)
        (max 1 b.attempts.toNat) (exchanges c) := by
  have hmost : max 1 b.attempts.toNat = b.attempts.toNat - 1 + 1 := by omega
  rw [hmost]
  unfold record at h
  simp only at h
  split at h
  · obtain ⟨rfl, hresult⟩ := ends_done.mp h
    cases hresult
    constructor
    · rintro ⟨failure, ⟨⟩, _⟩
    · intro hconflicts
      obtain ⟨earlier, _, _, _, hlast, _⟩ := hconflicts.last
      cases earlier <;> cases hlast
  · constructor
    · rintro ⟨failure, rfl, hfailure⟩
      exact onlyConflicts_of_tries (Backoff.tries_of_ends_retryFrom gives_update h) rfl hfailure
    · intro hconflicts
      obtain ⟨earlier, request, reply, e, hlast, hreply, he⟩ := hconflicts.last
      have hconcludes := concludes_of_ends_retry h
      rw [hlast, List.getLast?_concat] at hconcludes
      exact hconcludes.of_conflict hreply he

end StatusRecord

namespace Reconcile

open Cluster Dialogue Injection Resource StatusRecord

variable {σ : Type} {answer : Answerer σ Request Reply} {clock clock' : Nat} {state state' : σ}
  {backoff : Backoff} {now : String} {target : Target} {config : SecretsConfig}
  {outcome : Except Failure Unit} {failure : Failure}

/-! ## Failures before the recording -/

theorem not_transient_of_sweeps {definitions : List Definition} {c : Course Request Reply}
    {result : Except Failure Nat} (h : Sweeps definitions c result)
    (hresult : result = .error failure) : failure.isTransient = false := by
  induction h with
  | done => cases hresult
  | failed h =>
      cases hresult
      obtain ⟨_, e, rfl, _⟩ := h.of_error
      rfl
  | @went _ _ _ _ _ result _ _ ih =>
      cases result with
      | ok count => cases hresult
      | error f =>
          cases hresult
          exact ih rfl

/-- That definitions could not be read or patched does not pass by itself, whatever the error. -/
theorem not_transient_of_synchronizes {c : Course Request Reply}
    (h : Synchronizes target c outcome) (houtcome : outcome = .error failure) :
    failure.isTransient = false := by
  cases h with
  | @all result _ h =>
      cases result with
      | ok count => cases houtcome
      | error f =>
          cases houtcome
          cases h with
          | unlisted _ => rfl
          | listed _ hsweeps => exact not_transient_of_sweeps hsweeps rfl
  | named _ h =>
      cases h with
      | unread _ _ =>
          cases houtcome
          rfl
      | absent _ _ => cases houtcome
      | unmanaged _ _ => cases houtcome
      | @managed _ _ _ result _ _ hannotates =>
          cases result with
          | ok patched => cases houtcome
          | error f =>
              cases houtcome
              obtain ⟨_, e, rfl, _⟩ := hannotates.of_error
              rfl

/-! ## The parts of a pass -/

/-- A pass comes as far as recording this outcome, at this time and in this state. -/
structure ComesToRecord (answer : Answerer σ Request Reply) (clock : Nat) (state : σ)
    (target : Target) (config : SecretsConfig) (outcome : Except Failure Unit) (clock' : Nat)
    (state' : σ) : Prop where
  read : (answer clock state firstRequest).1.receive SecretsConfig.reader = .ok config
  enabled : config.spec.injectAnnotations = true
  synchronized : (synchronize target).run answer clock (answer clock state firstRequest).2 =
    ⟨.ok outcome, clock', state'⟩

/-- The annotation step of a pass succeeded, and its recording met conflicts only, as often as it
could try. -/
def UsedUpByConflicts (answer : Answerer σ Request Reply) (clock : Nat) (state : σ)
    (backoff : Backoff) (now : String) (target : Target) : Prop :=
  ∃ config clock' state', ComesToRecord answer clock state target config (.ok ()) clock' state' ∧
    OnlyConflicts config.name (outcomeCondition now config conditionType (.ok ()) upToDate)
      (max 1 backoff.attempts.toNat)
      (exchanges ((record backoff now config conditionType (.ok ()) upToDate).course answer clock'
        state'))

/-- A pass that fails cannot read the configuration object, or comes as far as recording. -/
theorem unread_or_comesToRecord
    (h : ((pass backoff now target).run answer clock state).result = .ok (.error failure)) :
    (∃ e, (answer clock state firstRequest).1.receive SecretsConfig.reader = .error e ∧
        failure = .readConfig SecretsConfig.singleton e) ∨
      ∃ config outcome clock' state',
        ComesToRecord answer clock state target config outcome clock' state' ∧
          ∃ status,
            ((record backoff now config conditionType outcome upToDate).run answer clock'
              state').result = .ok status ∧
            Failure.combine outcome (status.map fun _ => ()) = .error failure := by
  cases hread : (answer clock state firstRequest).1.receive SecretsConfig.reader with
  | error e =>
      rw [(pass_unread hread backoff now target).1] at h
      split at h <;> cases h
      exact Or.inl ⟨e, rfl, rfl⟩
  | ok config =>
      rw [pass_eq, Dialogue.run] at h
      simp only [hread, absent?, afterReading, passOn] at h
      cases henabled : config.spec.injectAnnotations with
      | false =>
          rw [henabled, if_neg Bool.false_ne_true] at h
          cases h
      | true =>
          obtain ⟨outcome, clock', state', hsynchronized⟩ :=
            (gives_synchronize target).completes.exists_run answer clock
              (answer clock state firstRequest).2
          rw [henabled, if_pos rfl, run_bind, hsynchronized] at h
          simp only [conclude, result_bind_done] at h
          refine Or.inr ⟨config, outcome, clock', state', ⟨hread, henabled, hsynchronized⟩, ?_⟩
          cases hrecord : ((record backoff now config conditionType outcome upToDate).run answer
              clock' state').result with
          | error fault =>
              rw [hrecord] at h
              cases h
          | ok status =>
              rw [hrecord] at h
              exact ⟨status, rfl, Except.ok.inj h⟩

/-- What a pass comes to record does not depend on how it was found. -/
theorem ComesToRecord.unique {config' : SecretsConfig} {outcome' : Except Failure Unit}
    {clock'' : Nat} {state'' : σ}
    (h : ComesToRecord answer clock state target config outcome clock' state')
    (h' : ComesToRecord answer clock state target config' outcome' clock'' state'') :
    config = config' ∧ outcome = outcome' ∧ clock' = clock'' ∧ state' = state'' := by
  have hconfig := h.read.symm.trans h'.read
  have hending := h.synchronized.symm.trans h'.synchronized
  cases hconfig
  cases hending
  exact ⟨rfl, rfl, rfl, rfl⟩

/-- A failed pass is to come back soon exactly if conflicts used up its recording. -/
theorem isTransient_iff_usedUpByConflicts
    (h : ((pass backoff now target).run answer clock state).result = .ok (.error failure)) :
    failure.isTransient = true ↔ UsedUpByConflicts answer clock state backoff now target := by
  rcases unread_or_comesToRecord h with
    ⟨e, hread, rfl⟩ | ⟨config, outcome, clock', state', hcomes, status, hstatus, hcombine⟩
  · constructor
    · rintro ⟨⟩
    · rintro ⟨config, _, _, hcomes, _⟩
      cases hcomes.read.symm.trans hread
  · have hrecord := ends_run answer
      (record backoff now config conditionType outcome upToDate) clock' state'
    rw [hstatus] at hrecord
    cases outcome with
    | error operation =>
        have hoperation : operation.isTransient = false := by
          obtain ⟨_, hok, hsynchronizes⟩ := gives_synchronize target
            (ends_run answer (synchronize target) clock (answer clock state firstRequest).2)
          rw [hcomes.synchronized] at hok
          cases hok
          exact not_transient_of_synchronizes hsynchronizes rfl
        -- The failure is that of the operation, alone or in front.
        have hfailure : failure.isTransient = false := by
          cases status <;> cases hcombine
          · rfl
          · exact hoperation
        rw [hfailure]
        constructor
        · rintro ⟨⟩
        · rintro ⟨_, _, _, hcomes', _⟩
          cases (hcomes.unique hcomes').2.1
    | ok u =>
        cases status with
        | ok written => cases hcombine
        | error f =>
            obtain rfl : f = failure := Except.error.inj hcombine
            obtain ⟨e, rfl⟩ := writeStatus_of_ends_record hrecord
            have hconflicts := conflict_iff_onlyConflicts hrecord
            constructor
            · intro htransient
              exact ⟨config, clock', state', hcomes, hconflicts.mp ⟨_, rfl, htransient⟩⟩
            · rintro ⟨_, _, _, hcomes', honly⟩
              obtain ⟨rfl, _, rfl, rfl⟩ := hcomes.unique hcomes'
              obtain ⟨f, hf, htransient⟩ := hconflicts.mpr honly
              cases hf
              exact htransient

/-- **A failed pass comes back soon only after conflicts.** Whatever is answered to a pass, if it
fails, then it comes back after five seconds, or the delay for failures if that is less, exactly if
its annotation step succeeded and its recording made as many cycles as it could, each of which ended
in a conflict. After any other failure it comes back after the delay for failures. Unless that delay
is five seconds at most, one can tell the two cases apart; and it never comes back later. -/
theorem requeued_soon_iff_used_up
    (h : ((pass backoff now target).run answer clock state).result = .ok (.error failure))
    (failureDelay : Duration) :
    (UsedUpByConflicts answer clock state backoff now target →
        delayAfter failure failureDelay = (Duration.ofSeconds 5).min failureDelay) ∧
      (¬ UsedUpByConflicts answer clock state backoff now target →
        delayAfter failure failureDelay = failureDelay) ∧
      (delayAfter failure failureDelay = (Duration.ofSeconds 5).min failureDelay ↔
        UsedUpByConflicts answer clock state backoff now target ∨
          failureDelay.nanoseconds ≤ (Duration.ofSeconds 5).nanoseconds) ∧
      (delayAfter failure failureDelay).nanoseconds ≤ failureDelay.nanoseconds := by
  rw [← isTransient_iff_usedUpByConflicts h]
  unfold delayAfter transientDelay
  by_cases htransient : failure.isTransient = true
  · rw [if_pos htransient]
    exact ⟨fun _ => rfl, fun hnot => absurd htransient hnot, iff_of_true rfl (Or.inl htransient),
      Duration.min_le_right _ _⟩
  · rw [if_neg htransient, Duration.eq_min_iff]
    exact ⟨fun hyes => absurd hyes htransient, fun _ => rfl, (or_iff_right htransient).symm,
      Nat.le_refl _⟩

/-- A config that asks for annotations and reports nothing. -/
def unreported : Reply :=
  .answered 200 (.json (.object [
    ("metadata", .object [("name", .string "cluster"), ("resourceVersion", .string "7")]),
    ("spec", .object [("injectAnnotations", .bool true)])]))

/-- There is no definition to annotate, and both writes of the status are overtaken. -/
def bothOvertaken : List Reply :=
  [unreported, ApiServer.absence, unreported, conflict, unreported, conflict]

/-- After two conflicts in two attempts the pass comes back in five seconds instead of thirty. -/
theorem soon_after_two_conflicts :
    ((pass (.withoutDelay 2) "2024-05-01T10:00:00Z" (.definition "a.example")).run inTurn 0
        bothOvertaken).result =
      .ok (.error (.writeStatus "cluster" (.api ⟨"Failure", "", "", 409⟩))) ∧
    delayAfter (.writeStatus "cluster" (.api ⟨"Failure", "", "", 409⟩)) (.ofSeconds 30) =
      .ofSeconds 5 ∧
    UsedUpByConflicts inTurn 0 bothOvertaken (.withoutDelay 2) "2024-05-01T10:00:00Z"
      (.definition "a.example") := by
  have hresult : ((pass (.withoutDelay 2) "2024-05-01T10:00:00Z" (.definition "a.example")).run
      inTurn 0 bothOvertaken).result =
        .ok (.error (.writeStatus "cluster" (.api ⟨"Failure", "", "", 409⟩))) := by
    decide +kernel
  have hlonger : ¬ (Duration.ofSeconds 30).nanoseconds ≤ (Duration.ofSeconds 5).nanoseconds := by
    decide
  obtain ⟨_, _, hsoon, _⟩ := requeued_soon_iff_used_up hresult (.ofSeconds 30)
  exact ⟨hresult, rfl, (hsoon.mp rfl).resolve_right hlonger⟩

/-- A conflict in patching a definition is a failure like any other. -/
example :
    delayAfter (.patchDefinition "a.example" (.api ⟨"Failure", "", "Conflict", 409⟩))
      (.ofSeconds 30) = .ofSeconds 30 :=
  rfl

end Reconcile

end SecretsWarden
