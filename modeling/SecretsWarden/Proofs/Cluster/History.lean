import SecretsWarden.Proofs.Cluster.Concurrent

/-!
# The history of a session

Each of the sessions that take turns has a history: what it asked and was answered, and where it
paused. The history leads from where the session stood at first to where it stands in the end, and
whatever was answered in it was answered in a turn of that session.
-/

namespace SecretsWarden.Cluster

open Dialogue

variable {α β : Type} {p : Policy} {i : Nat} {s : ApiServer} {session : Session α}
  {request : Request} {reply : Reply} {passage : Passage}

/-- An answer that reads well came through. -/
theorem clear_of_receive {reader : Json.Reader β} {b : β}
    (h : (passage.exchange p s request).1.receive reader = .ok b) : passage = .clear := by
  cases passage with
  | clear => rfl
  | broken heard reply hrefusal =>
      obtain ⟨e, he⟩ := ApiServer.receive_refusal reader hrefusal
      rw [Passage.exchange, he] at h
      cases h

namespace System

/-! ## One action -/

/-- What happens in a session that has its turn. -/
def moment (p : Policy) (passage : Passage) (s : ApiServer) : Session α → Course Request Reply
  | .ask request _ => [.asked request (passage.exchange p s request).1]
  | .pause time _ => [.paused time]
  | .done _ | .abort _ => []

/-- What an action means for a session: only its own turn is something that happens in it. -/
def happens (p : Policy) (i : Nat) (S : System α) : Action → Course Request Reply
  | .turn j passage =>
    match S.sessions[i]? with
    | some session => if j = i then moment p passage S.server session else []
    | none => []
  | .edit _ _ => []

theorem leads_moment (p : Policy) (passage : Passage) (s : ApiServer) (session : Session α) :
    Leads session (moment p passage s session) (turn p passage s session).2 := by
  cases session with
  | done a => exact .stay _
  | abort fault => exact .stay _
  | ask request next => exact .ask (.stay _)
  | pause time next => exact .pause (.stay _)

theorem leads_happens {S : System α} (hsession : S.sessions[i]? = some session)
    (action : Action) :
    ∃ left, (S.step p action).sessions[i]? = some left ∧
      Leads session (S.happens p i action) left := by
  cases action with
  | edit config definitions => exact ⟨session, hsession, .stay session⟩
  | turn j passage =>
      by_cases hj : j = i
      · subst hj
        refine ⟨_, sessions_step_turn passage hsession, ?_⟩
        simp only [happens, hsession, if_true]
        exact leads_moment p passage S.server session
      · refine ⟨session, ?_, ?_⟩
        · rw [sessions_step, hsession]
          rintro passage' ⟨⟩
          exact hj rfl
        · simp only [happens, hsession, if_neg hj]
          exact .stay session

/-- What was asked in an action was asked in a turn of the session. -/
theorem turn_of_mem_happens {S : System α} {action : Action}
    (h : .asked request reply ∈ S.happens p i action) :
    ∃ passage next, action = .turn i passage ∧ S.sessions[i]? = some (.ask request next) ∧
      reply = (passage.exchange p S.server request).1 := by
  cases action with
  | edit config definitions => cases h
  | turn j passage =>
      cases hsession : S.sessions[i]? with
      | none =>
          simp only [happens, hsession] at h
          cases h
      | some session =>
          simp only [happens, hsession] at h
          split at h
          · subst j
            cases session with
            | ask asked next =>
                obtain ⟨rfl, rfl⟩ := Event.asked.inj (List.mem_singleton.mp h)
                exact ⟨passage, next, rfl, rfl, rfl⟩
            | pause time next => cases List.mem_singleton.mp h
            | done a => cases h
            | abort fault => cases h
          · cases h

/-! ## A schedule -/

/-- What happens in a session in the course of a schedule. -/
def history (p : Policy) (i : Nat) (S : System α) : List Action → Course Request Reply
  | [] => []
  | action :: rest => S.happens p i action ++ (S.step p action).history p i rest

/-- Its history leads a session to where it stands. -/
theorem leads_history {S : System α} (hsession : S.sessions[i]? = some session)
    (schedule : List Action) :
    ∃ left, (S.run p schedule).sessions[i]? = some left ∧
      Leads session (S.history p i schedule) left := by
  induction schedule generalizing S session with
  | nil => exact ⟨session, hsession, .stay session⟩
  | cons action rest ih =>
      obtain ⟨next, hnext, hfirst⟩ := leads_happens (p := p) hsession action
      obtain ⟨left, hleft, hrest⟩ := ih hnext
      exact ⟨left, hleft, hfirst.trans hrest⟩

/-- Each exchange in a history took place in a turn of the session. -/
theorem exists_turn_of_mem_history {S : System α} {schedule : List Action}
    (h : .asked request reply ∈ S.history p i schedule) :
    ∃ earlier passage later next, schedule = earlier ++ .turn i passage :: later ∧
      (S.run p earlier).sessions[i]? = some (.ask request next) ∧
      reply = (passage.exchange p (S.run p earlier).server request).1 := by
  induction schedule generalizing S with
  | nil => cases h
  | cons action rest ih =>
      rcases List.mem_append.mp h with hnow | hlater
      · obtain ⟨passage, next, rfl, hsession, hreply⟩ := turn_of_mem_happens hnow
        exact ⟨[], passage, rest, next, rfl, hsession, hreply⟩
      · obtain ⟨earlier, passage, later, next, rfl, hsession, hreply⟩ := ih hlater
        exact ⟨action :: earlier, passage, later, next, rfl, hsession, hreply⟩

end System

end SecretsWarden.Cluster
