import Mathlib.Data.List.Basic
import SecretsWarden.Proofs.Reconcile.Phases
import SecretsWarden.Proofs.StatusRecord.NoLostUpdate

/-!
# The protocol of a recording

A recording asks in cycles, and only conflicts make more than one of them. The last cycle decides
what the recording says: that it wrote, that there was nothing to write, or which error its last
request met. That request may be one that could not be built, and then it is not among those that
were sent.
-/

namespace SecretsWarden.StatusRecord

open Cluster Dialogue Json Resource Reconcile

/-! ## What the last request says -/

/-- The request is a write, and it succeeds. -/
def Succeeds (x : Request × Reply) : Prop :=
  x.1.method = .patch ∧ ∃ after, x.2.receive SecretsConfig.reader = .ok after

/-- The request is a reading, and it finds no object or one that carries the condition. -/
def FindsSettled (condition : Condition) (x : Request × Reply) : Prop :=
  x.1.method = .get ∧
    ((∃ s, x.2.receive SecretsConfig.reader = .error (.api s) ∧ s.code = 404) ∨
      ∃ latest, x.2.receive SecretsConfig.reader = .ok latest ∧ latest.Carries condition)

/-- The error of the last request that was attempted. It is in the last answer, or it kept a
request from being sent: the first one, or the write after a reading. -/
inductive LastError (name : String) (condition : Condition) :
    Option (Request × Reply) → Error → Prop where
  | answered {request : Request} {reply : Reply} {e : Error}
      (h : reply.receive SecretsConfig.reader = .error e) :
      LastError name condition (some (request, reply)) e
  | unreadable {e : Error} (h : Request.read SecretsConfig.path name = .error e) :
      LastError name condition none e
  | unwritable {read : Request} {reply : Reply} {latest : SecretsConfig}
      {conditions : List Condition} {e : Error}
      (hread : Request.read SecretsConfig.path name = .ok read)
      (hlatest : reply.receive SecretsConfig.reader = .ok latest)
      (hmerge : condition.merge? latest.conditions = some conditions)
      (h : writing name latest conditions = .error e) :
      LastError name condition (some (read, reply)) e

/-- The result that goes with a last request. -/
inductive Concludes (name : String) (condition : Condition) :
    Option (Request × Reply) → Except Failure Bool → Prop where
  | written {x : Request × Reply} (h : Succeeds x) : Concludes name condition (some x) (.ok true)
  | settled {x : Request × Reply} (h : FindsSettled condition x) :
      Concludes name condition (some x) (.ok false)
  | failed {last : Option (Request × Reply)} {e : Error} (h : LastError name condition last e)
      (hwritten : ∀ x, last = some x → ¬ Succeeds x)
      (hsettled : ∀ x, last = some x → ¬ FindsSettled condition x) :
      Concludes name condition last (.error (.writeStatus name e))

variable {name : String} {condition : Condition} {last : Option (Request × Reply)}
  {result : Except Failure Bool} {c : Course Request Reply}

theorem not_findsSettled_of_patch {x : Request × Reply} (h : x.1.method = .patch) :
    ¬ FindsSettled condition x := by
  rintro ⟨hget, _⟩
  rw [h] at hget
  cases hget

theorem not_succeeds_of_get {x : Request × Reply} (h : x.1.method = .get) : ¬ Succeeds x := by
  rintro ⟨hpatch, _⟩
  rw [h] at hpatch
  cases hpatch

theorem Concludes.ok_true_iff (h : Concludes name condition last result) :
    result = .ok true ↔ ∃ x, last = some x ∧ Succeeds x := by
  constructor
  · rintro rfl
    cases h with
    | written h => exact ⟨_, rfl, h⟩
  · rintro ⟨x, rfl, hx⟩
    cases h with
    | written h => rfl
    | settled h => exact absurd hx (not_succeeds_of_get h.1)
    | failed h hwritten hsettled => exact absurd hx (hwritten x rfl)

theorem Concludes.ok_false_iff (h : Concludes name condition last result) :
    result = .ok false ↔ ∃ x, last = some x ∧ FindsSettled condition x := by
  constructor
  · rintro rfl
    cases h with
    | settled h => exact ⟨_, rfl, h⟩
  · rintro ⟨x, rfl, hx⟩
    cases h with
    | written h => exact absurd hx (not_findsSettled_of_patch h.1)
    | settled h => rfl
    | failed h hwritten hsettled => exact absurd hx (hsettled x rfl)

theorem Concludes.of_error {failure : Failure}
    (h : Concludes name condition last (.error failure)) :
    ∃ e, failure = .writeStatus name e ∧ LastError name condition last e := by
  cases h with
  | failed h hwritten hsettled => exact ⟨_, rfl, h⟩

/-- Nothing is asked only if the first request cannot be built. -/
theorem Concludes.unreadable (h : Concludes name condition none result) :
    ∃ e, Request.read SecretsConfig.path name = .error e := by
  cases h with
  | failed h hwritten hsettled =>
      cases h with
      | unreadable h => exact ⟨_, h⟩

/-! ## The last cycle -/

theorem concludes_unread {e : Error}
    (h : Exchanged SecretsConfig.reader (Request.read SecretsConfig.path name) c (.error e)) :
    Concludes name condition (exchanges c).getLast?
      (if e.isNotFound then .ok false else .error (.writeStatus name e)) := by
  rcases h.of_error with hbuilt | ⟨request, reply, hbuilt, rfl, he⟩
  · obtain ⟨rfl, _⟩ := h.of_unbuilt hbuilt
    obtain ⟨fault, rfl⟩ := unbuildable_of_named hbuilt
    refine .failed (.unreadable hbuilt) ?_ ?_ <;> rintro x ⟨⟩
  · have hget : request.method = .get := method_of_named hbuilt
    by_cases hgone : e.isNotFound = true
    · obtain ⟨s, rfl, hcode⟩ := Error.isNotFound_iff.mp hgone
      rw [if_pos hgone]
      exact .settled ⟨hget, Or.inl ⟨s, he, hcode⟩⟩
    · rw [if_neg hgone]
      refine .failed (.answered he) ?_ ?_
      · rintro x ⟨⟩
        exact not_succeeds_of_get hget
      · rintro x ⟨⟩ ⟨_, ⟨s, hs, hcode⟩ | ⟨latest, hlatest, _⟩⟩
        · cases he.symm.trans hs
          exact hgone (Error.isNotFound_iff.mpr ⟨s, rfl, hcode⟩)
        · cases he.symm.trans hlatest

theorem concludes_written {latest : SecretsConfig} {conditions : List Condition}
    {request : Request} {reply : Reply} {written : Except Error SecretsConfig}
    (hread : Request.read SecretsConfig.path name = .ok request)
    (hlatest : reply.receive SecretsConfig.reader = .ok latest)
    (hmerge : condition.merge? latest.conditions = some conditions)
    (hwrite : Exchanged SecretsConfig.reader (writing name latest conditions) c written) :
    Concludes name condition (exchanges (.asked request reply :: c)).getLast?
      ((written.map fun _ => true).mapError (.writeStatus name)) := by
  cases written with
  | ok after =>
      obtain ⟨write, answer, hwriting, rfl, hafter⟩ := hwrite.of_ok
      exact .written ⟨method_of_named hwriting, after, hafter⟩
  | error e =>
      rcases hwrite.of_error with hbuilt | ⟨write, answer, hbuilt, rfl, he⟩
      · obtain ⟨rfl, _⟩ := hwrite.of_unbuilt hbuilt
        refine .failed (.unwritable hread hlatest hmerge hbuilt) ?_ ?_
        · rintro x ⟨⟩
          exact not_succeeds_of_get (method_of_named hread)
        · rintro x ⟨⟩ ⟨_, ⟨s, hs, _⟩ | ⟨latest', hlatest', hcarries⟩⟩
          · cases hlatest.symm.trans hs
          · cases hlatest.symm.trans hlatest'
            rw [SecretsConfig.carries_iff.mp hcarries] at hmerge
            cases hmerge
      · refine .failed (.answered he) ?_ ?_
        · rintro x ⟨⟩ ⟨_, after, hafter⟩
          cases he.symm.trans hafter
        · rintro x ⟨⟩
          exact not_findsSettled_of_patch (method_of_named hbuilt)

/-- The last request of a try decides its result. -/
theorem concludes_of_cycle (h : Cycle name condition c result) :
    Concludes name condition (exchanges c).getLast? result := by
  cases h with
  | unread h => exact concludes_unread h
  | settled h hmerge =>
      obtain ⟨request, reply, hread, rfl, hlatest⟩ := h.of_ok
      exact .settled ⟨method_of_named hread,
        Or.inr ⟨_, hlatest, SecretsConfig.carries_iff.mpr hmerge⟩⟩
  | written h hmerge hwrite =>
      obtain ⟨request, reply, hread, rfl, hlatest⟩ := h.of_ok
      exact concludes_written hread hlatest hmerge hwrite

/-! ## All cycles -/

/-- A try that met a conflict is a cycle that ends in one. -/
theorem recordingCycle_of_conflict {failure : Failure} (h : Cycle name condition c (.error failure))
    (hconflict : failure.isConflict = true) :
    RecordingCycle name condition (exchanges c) ∧ EndsInConflict (exchanges c) := by
  have hended := endsInConflict_of_cycle h rfl hconflict
  refine ⟨(recordingCycle_of_cycle h).resolve_left fun hnothing => ?_, hended⟩
  obtain ⟨_, _, _, _, hlast, _⟩ := hended
  rw [hnothing] at hlast
  exact absurd hlast.symm (List.append_ne_nil_of_right_ne_nil _ (List.cons_ne_nil _ _))

/-- The tries of a recording are cycles that end in conflicts, and a last try. -/
theorem cycles_of_tries {b : Backoff} {further : Nat} {attempt : UInt32}
    {out : Except Duration.Fault (Except Failure Bool)}
    (h : b.Tries (Cycle name condition) further attempt c out) (hout : out = .ok result) :
    ∃ (earlier : List Trace) (c' : Course Request Reply),
      exchanges c = earlier.flatten ++ exchanges c' ∧ earlier.length ≤ further ∧
      (∀ cycle ∈ earlier, RecordingCycle name condition cycle ∧ EndsInConflict cycle) ∧
      Cycle name condition c' result := by
  induction h with
  | @last _ _ c _ h hlast =>
      cases hout
      exact ⟨[], c, rfl, Nat.zero_le _, List.forall_mem_nil _, h⟩
  | stuck h hconflict hdelay => cases hout
  | @again _ _ c _ _ _ _ h hconflict hdelay hrest ih =>
      obtain ⟨earlier, c', hsent, hlength, hearlier, hlast⟩ := ih hout
      refine ⟨exchanges c :: earlier, c', ?_, Nat.succ_le_succ hlength,
        List.forall_mem_cons.mpr ⟨recordingCycle_of_conflict h hconflict, hearlier⟩, hlast⟩
      rw [exchanges_append, List.flatten_cons, List.append_assoc, ← hsent]
      rfl

/-! ## What holds of a cycle -/

variable {cycle : Trace}

/-- A write in the cycle carries the version that was read in it, or null if there was none. -/
def CarriesVersion (cycle : Trace) : Prop :=
  ∀ read reply write answer, cycle = [(read, reply), (write, answer)] →
    ∃ latest body, reply.receive SecretsConfig.reader = .ok latest ∧ write.body = some body ∧
      body.at? ["metadata", "resourceVersion"] =
        some ((latest.metadata.resourceVersion.map .string).getD .null)

theorem ne_nil_of_recordingCycle (h : RecordingCycle name condition cycle) : cycle ≠ [] := by
  cases h with
  | read hread => exact List.cons_ne_nil _ _
  | written hread hlatest hmerge hwrite => exact List.cons_ne_nil _ _

theorem read_of_recordingCycle (h : RecordingCycle name condition cycle) :
    ∃ request, Request.read SecretsConfig.path name = .ok request := by
  cases h with
  | read hread => exact ⟨_, hread⟩
  | written hread hlatest hmerge hwrite => exact ⟨_, hread⟩

theorem carriesVersion_of_recordingCycle (h : RecordingCycle name condition cycle) :
    CarriesVersion cycle := by
  intro read reply write answer heq
  cases h with
  | read hread => cases heq
  | written hread hlatest hmerge hwrite =>
      cases heq
      exact ⟨_, _, hlatest, body_of_named hwrite, rfl⟩

/-- Only the last request of a cycle can be a write that succeeds. -/
theorem not_succeeds_of_mem_dropLast (h : RecordingCycle name condition cycle) :
    ∀ x ∈ cycle.dropLast, ¬ Succeeds x := by
  intro x hx
  cases h with
  | read hread => cases hx
  | written hread hlatest hmerge hwrite =>
      rw [List.mem_singleton.mp hx]
      exact not_succeeds_of_get (method_of_named hread)

/-- In a cycle that ends in a conflict no write succeeds. -/
theorem not_succeeds_of_conflict (h : RecordingCycle name condition cycle)
    (hconflict : EndsInConflict cycle) : ∀ x ∈ cycle, ¬ Succeeds x := by
  obtain ⟨earlier, request, reply, e, rfl, he, _⟩ := hconflict
  intro x hx
  rcases List.mem_append.mp hx with hx | hx
  · refine not_succeeds_of_mem_dropLast h x ?_
    rwa [List.dropLast_concat]
  · rw [List.mem_singleton.mp hx]
    rintro ⟨_, after, hafter⟩
    cases he.symm.trans hafter

/-! ## The whole recording -/

/-- The cycles of a recording, with the result that its last request decides. -/
structure Protocol (name : String) (condition : Condition) (most : Nat) (cycles : List Trace)
    (result : Except Failure Bool) : Prop where
  length_le : cycles.length ≤ most
  cycle : ∀ cycle ∈ cycles, RecordingCycle name condition cycle
  conflict : ∀ cycle ∈ cycles.dropLast, EndsInConflict cycle
  concludes : Concludes name condition cycles.flatten.getLast? result

/-- If a reading can be built, then the last try is a cycle. -/
theorem protocol_of_cycles {earlier : List Trace} {most : Nat} (hlength : earlier.length < most)
    (hearlier : ∀ cycle ∈ earlier, RecordingCycle name condition cycle ∧ EndsInConflict cycle)
    (hlast : Cycle name condition c result) :
    ∃ cycles, earlier.flatten ++ exchanges c = cycles.flatten ∧
      Protocol name condition most cycles result := by
  have hconcludes := concludes_of_cycle hlast
  rcases recordingCycle_of_cycle hlast with hnothing | hcycle
  · -- The reading was not sent, so it never was: there is no cycle at all.
    have hnone : earlier = [] := by
      rw [hnothing] at hconcludes
      obtain ⟨e, hunbuilt⟩ := hconcludes.unreadable
      refine List.eq_nil_iff_forall_not_mem.mpr fun cycle hcycle => ?_
      obtain ⟨request, hread⟩ := read_of_recordingCycle (hearlier cycle hcycle).1
      cases hread.symm.trans hunbuilt
    subst hnone
    rw [hnothing] at hconcludes ⊢
    exact ⟨[], rfl, Nat.zero_le _, List.forall_mem_nil _, List.forall_mem_nil _, hconcludes⟩
  · refine ⟨earlier ++ [exchanges c], ?_, ?_, ?_, ?_, ?_⟩
    · rw [List.flatten_append, List.flatten_singleton]
    · rw [List.length_append, List.length_singleton]
      exact hlength
    · rw [List.forall_mem_append, List.forall_mem_singleton]
      exact ⟨fun cycle hmem => (hearlier cycle hmem).1, hcycle⟩
    · rw [List.dropLast_concat]
      exact fun cycle hmem => (hearlier cycle hmem).2
    · rw [List.flatten_append, List.flatten_singleton,
        List.getLast?_append_of_ne_nil _ (ne_nil_of_recordingCycle hcycle)]
      exact hconcludes

theorem protocol_of_retry {b : Backoff} (hb : b.Unfailing)
    {out : Except Duration.Fault (Except Failure Bool)}
    (h : Ends (b.retry (update name condition)) c out) :
    ∃ (result : Except Failure Bool) (cycles : List Trace), out = .ok result ∧
      exchanges c = cycles.flatten ∧
      Protocol name condition (max 1 b.attempts.toNat) cycles result := by
  have htries := Backoff.tries_of_ends_retryFrom gives_update h
  obtain ⟨result, rfl⟩ := htries.exists_ok hb (by decide) rfl
  obtain ⟨earlier, c', hsent, hlength, hearlier, hlast⟩ := cycles_of_tries htries rfl
  have hmost : earlier.length < max 1 b.attempts.toNat := by omega
  obtain ⟨cycles, hflatten, hprotocol⟩ := protocol_of_cycles hmost hearlier hlast
  exact ⟨result, cycles, rfl, hsent.trans hflatten, hprotocol⟩

/-- Only the very last request can be a write that succeeds. -/
theorem Protocol.not_succeeds {most : Nat} {cycles : List Trace}
    (h : Protocol name condition most cycles result) :
    ∀ x ∈ cycles.flatten.dropLast, ¬ Succeeds x := by
  intro x hx
  rcases List.eq_nil_or_concat cycles with rfl | ⟨earlier, cycle, rfl⟩
  · cases hx
  · have hcycle : RecordingCycle name condition cycle := h.cycle _ (by simp)
    rw [List.concat_eq_append, List.flatten_append, List.flatten_singleton,
      List.dropLast_append_of_ne_nil (ne_nil_of_recordingCycle hcycle)] at hx
    rcases List.mem_append.mp hx with hx | hx
    · obtain ⟨before, hbefore, hx⟩ := List.mem_flatten.mp hx
      refine not_succeeds_of_conflict (h.cycle before ?_) (h.conflict before ?_) x hx
      · rw [List.concat_eq_append]
        exact List.mem_append_left _ hbefore
      · rwa [List.concat_eq_append, List.dropLast_concat]
    · exact not_succeeds_of_mem_dropLast hcycle x hx

variable {r : Recording}

/-- Nothing is asked if the condition stands already in the object at hand. -/
theorem session_of_carries (h : r.config.Carries r.condition) : r.session = .done (.ok false) := by
  have hmerge := SecretsConfig.carries_iff.mp h
  show record r.backoff r.now r.config r.type r.outcome r.upToDate = _
  unfold record
  simp only
  split
  · rfl
  · exact absurd hmerge (Option.ne_none_iff_exists'.mpr ⟨_, ‹_›⟩)

theorem session_of_not_carries (h : ¬ r.config.Carries r.condition) :
    r.session = r.backoff.retry (update r.config.name r.condition) := by
  have hmerge := mt SecretsConfig.carries_iff.mpr h
  show record r.backoff r.now r.config r.type r.outcome r.upToDate = _
  unfold record
  simp only
  split
  · exact absurd ‹_› hmerge
  · rfl

/-- **The protocol of a recording.** Whatever is answered, the requests come in cycles, as many as
there are attempts at most. A cycle is a reading and maybe a write that carries the version that was
read, and the next cycle comes only after a conflict. Only the very last request can be a write that
succeeds, and the result says whether it was: nothing was written if the condition stood already in
the object at hand or in the one that was read last, or if there was no object; and otherwise the
last request that was attempted is to blame. -/
theorem recording_follows_protocol {σ : Type} (answer : Answerer σ Request Reply) (clock : Nat)
    (state : σ) (r : Recording) (hbackoff : r.backoff.Unfailing) :
    ∃ (result : Except Failure Bool) (cycles : List Trace),
      (r.session.run answer clock state).result = .ok result ∧
      exchanges (r.session.course answer clock state) = cycles.flatten ∧
      cycles.length ≤ max 1 r.backoff.attempts.toNat ∧
      (∀ cycle ∈ cycles, RecordingCycle r.config.name r.condition cycle ∧ CarriesVersion cycle) ∧
      (∀ cycle ∈ cycles.dropLast, EndsInConflict cycle) ∧
      (∀ x ∈ cycles.flatten.dropLast, ¬ Succeeds x) ∧
      (r.config.Carries r.condition → cycles = []) ∧
      (result = .ok true ↔ ∃ x, cycles.flatten.getLast? = some x ∧ Succeeds x) ∧
      (result = .ok false ↔ r.config.Carries r.condition ∨
        ∃ x, cycles.flatten.getLast? = some x ∧ FindsSettled r.condition x) ∧
      ∀ failure, result = .error failure → ∃ e, failure = .writeStatus r.config.name e ∧
        LastError r.config.name r.condition cycles.flatten.getLast? e := by
  by_cases hcarries : r.config.Carries r.condition
  · rw [session_of_carries hcarries]
    refine ⟨.ok false, [], rfl, rfl, Nat.zero_le _, List.forall_mem_nil _, List.forall_mem_nil _,
      List.forall_mem_nil _, fun _ => rfl, ?_, ?_, ?_⟩
    · constructor
      · rintro ⟨⟩
      · rintro ⟨x, ⟨⟩, _⟩
    · exact ⟨fun _ => Or.inl hcarries, fun _ => rfl⟩
    · rintro failure ⟨⟩
  · rw [session_of_not_carries hcarries]
    obtain ⟨result, cycles, hresult, hsent, h⟩ :=
      protocol_of_retry hbackoff (ends_run answer _ clock state)
    refine ⟨result, cycles, hresult, hsent, h.length_le, ?_, h.conflict, h.not_succeeds,
      fun hnot => absurd hnot hcarries, h.concludes.ok_true_iff, ?_, ?_⟩
    · intro cycle hmem
      exact ⟨h.cycle cycle hmem, carriesVersion_of_recordingCycle (h.cycle cycle hmem)⟩
    · rw [or_iff_right hcarries]
      exact h.concludes.ok_false_iff
    · rintro failure rfl
      exact h.concludes.of_error

/-- Answers in a row, whatever is asked. -/
def inTurn : Answerer (List Reply) Request Reply :=
  fun _ replies _ => (replies.headD (.failed "no more answers"), replies.tail)

/-- A config without conditions. -/
def untouched : Reply :=
  .answered 200 (.json (.object [("metadata", .object [("resourceVersion", .string "7")]),
    ("spec", .object [])]))

def conflict : Reply :=
  .answered 409 (.json (.object [("status", .string "Failure"), ("code", .number (.integer 409))]))

/-- The write of the first cycle is overtaken, that of the second one is accepted. -/
theorem second_cycle_writes :
    (firstSuccess "A").backoff.Unfailing ∧ ∃ cycles : List Trace,
      exchanges ((firstSuccess "A").session.course inTurn 0
        [untouched, conflict, untouched, untouched]) = cycles.flatten ∧
      cycles.length ≤ 2 ∧ ∃ x, cycles.flatten.getLast? = some x ∧ Succeeds x := by
  have hunfailing : (firstSuccess "A").backoff.Unfailing := by
    intro attempt hpos hlt
    have hfirst : attempt = 1 := by
      rw [UInt32.lt_iff_toNat_lt] at hpos hlt
      refine UInt32.toNat_inj.mp ?_
      change 0 < attempt.toNat at hpos
      change attempt.toNat < 2 at hlt
      change attempt.toNat = 1
      omega
    subst hfirst
    exact ⟨.zero, Backoff.eq_ok_of_toOption (by decide +kernel)⟩
  obtain ⟨result, cycles, hresult, hsent, hlength, _, _, _, _, htrue, _⟩ :=
    recording_follows_protocol inTurn 0 [untouched, conflict, untouched, untouched]
      (firstSuccess "A") hunfailing
  have hwrote : ((firstSuccess "A").session.run inTurn 0
      [untouched, conflict, untouched, untouched]).result.toOption.bind Except.toOption =
        some true := by decide +kernel
  rw [hresult] at hwrote
  exact ⟨hunfailing, cycles, hsent, hlength, htrue.mp (Backoff.eq_ok_of_toOption hwrote)⟩

end SecretsWarden.StatusRecord
