import SecretsWarden.Proofs.Cluster.Address
import SecretsWarden.Proofs.Cluster.Exchange
import SecretsWarden.Proofs.Dialogue.Tries
import SecretsWarden.StatusRecord

/-!
# The cycles of a recording

One try at recording a condition reads the configuration object and, if that does not have an
equivalent condition, writes the merged list over what was read. So in a recording each write comes
right after the reading that it was computed from.
-/

namespace SecretsWarden

open Cluster Dialogue Resource

namespace StatusRecord

variable {name : String} {condition : Condition} {c : Course Request Reply}

/-- The request that writes conditions over what was read. -/
def writing (name : String) (latest : SecretsConfig) (conditions : List Condition) :
    Except Error Request :=
  Request.named .patch SecretsConfig.path name ("/status?&fieldManager=" ++ fieldManager)
    (some (patchBody latest.metadata.resourceVersion conditions))

/-- One try at recording a condition. -/
inductive Cycle (name : String) (condition : Condition) :
    Course Request Reply → Except Failure Bool → Prop where
  | unread {c : Course Request Reply} {e : Error}
      (h : Exchanged SecretsConfig.reader (Request.read SecretsConfig.path name) c (.error e)) :
      Cycle name condition c (if e.isNotFound then .ok false else .error (.writeStatus name e))
  | settled {c : Course Request Reply} {latest : SecretsConfig}
      (h : Exchanged SecretsConfig.reader (Request.read SecretsConfig.path name) c (.ok latest))
      (hmerge : condition.merge? latest.conditions = none) :
      Cycle name condition c (.ok false)
  | written {c₁ c₂ : Course Request Reply} {latest : SecretsConfig} {conditions : List Condition}
      {result : Except Error SecretsConfig}
      (h : Exchanged SecretsConfig.reader (Request.read SecretsConfig.path name) c₁ (.ok latest))
      (hmerge : condition.merge? latest.conditions = some conditions)
      (hwrite : Exchanged SecretsConfig.reader (writing name latest conditions) c₂ result) :
      Cycle name condition (c₁ ++ c₂) ((result.map fun _ => true).mapError (.writeStatus name))

theorem gives_update : (update name condition).Gives (Cycle name condition) := by
  refine (gives_get _ _ _).bind fun read c₁ hread => ?_
  cases read with
  | error e => exact gives_done_append (.unread hread)
  | ok latest =>
      cases hmerge : condition.merge? latest.conditions with
      | none =>
          simp only [hmerge]
          exact gives_done_append (.settled hread hmerge)
      | some conditions =>
          simp only [hmerge]
          refine (gives_sendBuilt _ _).bind fun result c₂ hwrite => ?_
          have hcycle := Cycle.written hread hmerge hwrite
          cases result <;> exact gives_done (by rwa [List.append_nil])

/-! ## Writes follow readings -/

/-- Each write comes right after the reading that it was computed from. -/
def WritesFollowReads (name : String) (condition : Condition) (c : Course Request Reply) : Prop :=
  ∀ before after request reply, c = before ++ .asked request reply :: after →
    request.method = .patch →
    ∃ earlier read answer latest conditions, before = earlier ++ [.asked read answer] ∧
      Request.read SecretsConfig.path name = .ok read ∧
      answer.receive SecretsConfig.reader = .ok latest ∧
      condition.merge? latest.conditions = some conditions ∧
      writing name latest conditions = .ok request

theorem writesFollowReads_nil : WritesFollowReads name condition [] := by
  intro before after request reply h
  cases before <;> cases h

theorem WritesFollowReads.append {c₁ c₂ : Course Request Reply}
    (h₁ : WritesFollowReads name condition c₁) (h₂ : WritesFollowReads name condition c₂) :
    WritesFollowReads name condition (c₁ ++ c₂) := by
  intro before after request reply heq hmethod
  rcases List.append_eq_append_iff.mp heq with ⟨more, rfl, hmore⟩ | ⟨more, hfirst, hmore⟩
  · obtain ⟨earlier, read, answer, latest, conditions, rfl, h⟩ :=
      h₂ more after request reply hmore hmethod
    exact ⟨c₁ ++ earlier, read, answer, latest, conditions, by rw [List.append_assoc], h⟩
  · cases more with
    | nil =>
        -- The write would be the first thing of the second part, with nothing before it.
        rw [List.nil_append] at hmore
        obtain ⟨earlier, _, _, _, _, hempty, _⟩ := h₂ [] after request reply hmore.symm hmethod
        cases earlier <;> cases hempty
    | cons e more =>
        cases hmore
        exact h₁ before more request reply hfirst hmethod

theorem writesFollowReads_paused (delay : Duration) :
    WritesFollowReads name condition [.paused delay] := by
  intro before after request reply heq
  cases before with
  | nil => cases heq
  | cons e before => cases before <;> cases heq

theorem writesFollowReads_read {result : Except Error SecretsConfig}
    (h : Exchanged SecretsConfig.reader (Request.read SecretsConfig.path name) c result) :
    WritesFollowReads name condition c := by
  cases h with
  | unbuilt hbuilt => exact writesFollowReads_nil
  | sent hbuilt reply =>
      intro before after request reply heq hmethod
      cases before with
      | nil =>
          cases heq
          rw [method_of_named hbuilt] at hmethod
          cases hmethod
      | cons e before => cases before <;> cases heq

theorem Cycle.writesFollowReads {result : Except Failure Bool}
    (h : Cycle name condition c result) : WritesFollowReads name condition c := by
  cases h with
  | unread h => exact writesFollowReads_read h
  | settled h hmerge => exact writesFollowReads_read h
  | written h hmerge hwrite =>
      cases hwrite with
      | unbuilt hbuilt =>
          rw [List.append_nil]
          exact writesFollowReads_read h
      | sent hwriting reply =>
          obtain ⟨read, answer, hread, rfl, hlatest⟩ := h.of_ok
          intro before after request reply heq hmethod
          cases before with
          | nil =>
              cases heq
              rw [method_of_named hread] at hmethod
              cases hmethod
          | cons e before =>
              cases before with
              | nil =>
                  cases heq
                  exact ⟨[], read, answer, _, _, rfl, hread, hlatest, hmerge, hwriting⟩
              | cons e' before => cases before <;> cases heq

theorem writesFollowReads_of_tries {b : Backoff} {further : Nat} {attempt : UInt32}
    {out : Except Duration.Fault (Except Failure Bool)}
    (h : b.Tries (Cycle name condition) further attempt c out) :
    WritesFollowReads name condition c := by
  induction h with
  | last h hlast => exact h.writesFollowReads
  | stuck h hconflict hdelay => exact h.writesFollowReads
  | @again _ _ c rest _ delay _ h hconflict hdelay hrest ih =>
      rw [show c ++ .paused delay :: rest = c ++ ([.paused delay] ++ rest) from rfl]
      exact h.writesFollowReads.append ((writesFollowReads_paused delay).append ih)

/-- Whatever is answered to a recording, it writes only over what it read just before. -/
theorem writesFollowReads_of_ends_record {b : Backoff} {now type upToDate : String}
    {config : SecretsConfig} {outcome : Except Failure Unit}
    {out : Except Duration.Fault (Except Failure Bool)}
    (h : Ends (record b now config type outcome upToDate) c out) :
    WritesFollowReads config.name (outcomeCondition now config type outcome upToDate) c := by
  unfold record at h
  simp only at h
  split at h
  · obtain ⟨rfl, _⟩ := ends_done.mp h
    exact writesFollowReads_nil
  · exact writesFollowReads_of_tries (Backoff.tries_of_ends_retryFrom gives_update h)

/-! ## The last word of a recording -/

/-- The exchange with which a recording comes to a good end, after others. -/
inductive LastWord (name : String) (condition : Condition) :
    (before : Course Request Reply) → Request → Reply → Prop where
  | gone {before : Course Request Reply} {request : Request} {reply : Reply} {e : Error}
      (hread : Request.read SecretsConfig.path name = .ok request)
      (he : reply.receive SecretsConfig.reader = .error e) (hgone : e.isNotFound = true) :
      LastWord name condition before request reply
  | settled {before : Course Request Reply} {request : Request} {reply : Reply}
      {latest : SecretsConfig} (hread : Request.read SecretsConfig.path name = .ok request)
      (hlatest : reply.receive SecretsConfig.reader = .ok latest)
      (hmerge : condition.merge? latest.conditions = none) :
      LastWord name condition before request reply
  | written {earlier : Course Request Reply} {read request : Request} {answer reply : Reply}
      {latest after : SecretsConfig} {conditions : List Condition}
      (hread : Request.read SecretsConfig.path name = .ok read)
      (hlatest : answer.receive SecretsConfig.reader = .ok latest)
      (hmerge : condition.merge? latest.conditions = some conditions)
      (hwriting : writing name latest conditions = .ok request)
      (hreply : reply.receive SecretsConfig.reader = .ok after) :
      LastWord name condition (earlier ++ [.asked read answer]) request reply

theorem LastWord.prepend {before : Course Request Reply} {request : Request} {reply : Reply}
    (h : LastWord name condition before request reply) (earlier : Course Request Reply) :
    LastWord name condition (earlier ++ before) request reply := by
  cases h with
  | gone hread he hgone => exact .gone hread he hgone
  | settled hread hlatest hmerge => exact .settled hread hlatest hmerge
  | written hread hlatest hmerge hwriting hreply =>
      rw [← List.append_assoc]
      exact .written hread hlatest hmerge hwriting hreply

/-- A try that succeeds ends with the last word, if there is anything to ask by this name. -/
theorem lastWord_of_cycle {request : Request} {result : Except Failure Bool} {wrote : Bool}
    (hbuilt : Request.read SecretsConfig.path name = .ok request)
    (h : Cycle name condition c result) (hresult : result = .ok wrote) :
    ∃ before request reply, c = before ++ [.asked request reply] ∧
      LastWord name condition before request reply := by
  cases h with
  | @unread _ e h =>
      obtain ⟨reply, rfl, he⟩ := h.of_built hbuilt
      by_cases hgone : e.isNotFound = true
      · exact ⟨[], request, reply, rfl, .gone hbuilt he.symm hgone⟩
      · rw [if_neg hgone] at hresult
        cases hresult
  | settled h hmerge =>
      obtain ⟨read, reply, hread, rfl, hlatest⟩ := h.of_ok
      exact ⟨[], read, reply, rfl, .settled hread hlatest hmerge⟩
  | @written _ _ _ _ written h hmerge hwrite =>
      cases written with
      | error e => cases hresult
      | ok after =>
          obtain ⟨read, answer, hread, rfl, hlatest⟩ := h.of_ok
          obtain ⟨write, reply, hwriting, rfl, hreply⟩ := hwrite.of_ok
          have hlast : LastWord name condition ([] ++ [.asked read answer]) write reply :=
            .written hread hlatest hmerge hwriting hreply
          exact ⟨_, write, reply, rfl, hlast⟩

/-- A recording that succeeds, and not at once, ends with the last word. -/
theorem lastWord_of_ends_record {b : Backoff} {now type upToDate : String}
    {config : SecretsConfig} {outcome : Except Failure Unit} {wrote : Bool} {request : Request}
    (hbuilt : Request.read SecretsConfig.path config.name = .ok request)
    (hmerge : (outcomeCondition now config type outcome upToDate).merge? config.conditions ≠ none)
    (h : Ends (record b now config type outcome upToDate) c (.ok (.ok wrote))) :
    ∃ before request reply, c = before ++ [.asked request reply] ∧
      LastWord config.name (outcomeCondition now config type outcome upToDate) before request
        reply := by
  unfold record at h
  simp only at h
  split at h
  · exact absurd ‹_› hmerge
  · obtain ⟨earlier, c', rfl, hcycle⟩ :=
      (Backoff.tries_of_ends_retryFrom gives_update h).last_try
    obtain ⟨before, request, reply, rfl, hlast⟩ := lastWord_of_cycle hbuilt hcycle rfl
    exact ⟨earlier ++ before, request, reply, (List.append_assoc _ _ _).symm, hlast.prepend earlier⟩

/-- A recording that fails does so in reading or writing the status. -/
theorem writeStatus_of_ends_record {b : Backoff} {now type upToDate : String}
    {config : SecretsConfig} {outcome : Except Failure Unit} {failure : Failure}
    (h : Ends (record b now config type outcome upToDate) c (.ok (.error failure))) :
    ∃ e, failure = .writeStatus config.name e := by
  unfold record at h
  simp only at h
  split at h
  · obtain ⟨_, hresult⟩ := ends_done.mp h
    cases hresult
  · obtain ⟨_, c', _, hcycle⟩ := (Backoff.tries_of_ends_retryFrom gives_update h).last_try
    generalize hresult : Except.error failure = result at hcycle
    cases hcycle with
    | settled h hmerge => cases hresult
    | @unread _ e h =>
        split at hresult <;> cases hresult
        exact ⟨e, rfl⟩
    | @written _ _ _ _ written h hmerge hwrite =>
        cases written with
        | ok after => cases hresult
        | error e =>
            cases hresult
            exact ⟨e, rfl⟩

end StatusRecord

end SecretsWarden
