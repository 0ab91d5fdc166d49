import SecretsWarden.Proofs.Cluster.ApiServer
import SecretsWarden.Proofs.Dialogue.Course

/-!
# Sessions that take turns

Any number of sessions with one API server go on in turns, one request a turn, while others write
whatever they like. On its way a request or its answer may get lost; then some error comes back,
whether or not the server heard of the request.

A reading of the configuration object may be old by the time it is used. What stays true of it is
`Known`: its version was given out before, and if that version is still the current one, then so
is the object.
-/

namespace SecretsWarden.Cluster

open Dialogue Json Resource

/-- How a request and its answer get through. -/
inductive Passage where
  | clear
  | broken (heard : Bool) (reply : Reply) (h : reply.isRefusal = true)

/-- What happens next: a session takes its turn, or someone else writes. -/
inductive Action where
  | turn (index : Nat) (passage : Passage)
  | edit (config : Option Value) (definitions : List Value)

/-- Whether it is the turn of this session. -/
def Action.isTurnOf (index : Nat) : Action → Bool
  | turn i _ => i = index
  | edit _ _ => false

structure System (α : Type) where
  server : ApiServer
  sessions : List (Session α)

variable {α : Type} {p : Policy} {s s' : ApiServer}

/-- The answer that comes back, and the server then. -/
def Passage.exchange (p : Policy) (s : ApiServer) (request : Request) :
    Passage → Reply × ApiServer
  | clear => s.answer p request
  | broken heard reply _ => (reply, if heard then (s.answer p request).2 else s)

/-- A lost answer does not pretend that there is no such object. -/
def Passage.Honest : Passage → Prop
  | clear => True
  | broken _ reply _ => ∀ e, reply.receive SecretsConfig.reader = .error e → e.isNotFound = false

namespace System

/-- One turn of a session. -/
def turn (p : Policy) (passage : Passage) (s : ApiServer) : Session α → ApiServer × Session α
  | .ask request next =>
    let (reply, after) := passage.exchange p s request
    (after, next reply)
  | .pause _ next => (s, next)
  | .done a => (s, .done a)
  | .abort fault => (s, .abort fault)

def step (p : Policy) (S : System α) : Action → System α
  | .turn index passage =>
    match S.sessions[index]? with
    | none => S
    | some session =>
      let (server, left) := turn p passage S.server session
      ⟨server, S.sessions.set index left⟩
  | .edit config definitions => ⟨{ S.server.write config with definitions }, S.sessions⟩

def run (p : Policy) (S : System α) (schedule : List Action) : System α :=
  schedule.foldl (step p) S

/-- The value of a session that is done. -/
def value? (S : System α) (index : Nat) : Option α := S.sessions[index]?.bind Dialogue.value?

theorem run_append (S : System α) (earlier later : List Action) :
    S.run p (earlier ++ later) = (S.run p earlier).run p later :=
  List.foldl_append

theorem step_turn {S : System α} {index : Nat} {session : Session α} (passage : Passage)
    (h : S.sessions[index]? = some session) :
    S.step p (.turn index passage) =
      ⟨(turn p passage S.server session).1,
        S.sessions.set index (turn p passage S.server session).2⟩ := by
  simp only [step, h]

theorem step_turn_none {S : System α} {index : Nat} (passage : Passage)
    (h : S.sessions[index]? = none) : S.step p (.turn index passage) = S := by
  simp only [step, h]

/-- What a session is after a turn of its own. -/
theorem sessions_step_turn {S : System α} {index : Nat} {session : Session α} (passage : Passage)
    (h : S.sessions[index]? = some session) :
    (S.step p (.turn index passage)).sessions[index]? =
      some (turn p passage S.server session).2 := by
  rw [step_turn passage h, List.getElem?_set_self (List.getElem?_eq_some_iff.mp h).1]

/-- Only a turn of its own moves a session. -/
theorem sessions_step {S : System α} {action : Action} {index : Nat}
    (h : ∀ passage, action ≠ .turn index passage) :
    (S.step p action).sessions[index]? = S.sessions[index]? := by
  cases action with
  | edit config definitions => rfl
  | turn i passage =>
      cases hi : S.sessions[i]? with
      | none => rw [step_turn_none passage hi]
      | some session =>
          rw [step_turn passage hi, List.getElem?_set_ne]
          rintro rfl
          exact h passage rfl

theorem sessions_run {S : System α} {schedule : List Action} {index : Nat}
    (h : ∀ passage, .turn index passage ∉ schedule) :
    (S.run p schedule).sessions[index]? = S.sessions[index]? := by
  induction schedule generalizing S with
  | nil => rfl
  | cons action rest ih =>
      refine (ih fun passage hmem => h passage (List.mem_cons_of_mem _ hmem)).trans
        (sessions_step fun passage haction => h passage ?_)
      rw [haction]
      exact List.mem_cons_self

/-- A session comes to its value in a turn of its own. -/
theorem turn_of_value? {S : System α} {action : Action} {index : Nat} {a : α}
    (hopen : S.value? index = none) (hvalue : (S.step p action).value? index = some a) :
    ∃ passage session, action = .turn index passage ∧ S.sessions[index]? = some session ∧
      (turn p passage S.server session).2 = .done a := by
  have hne : (S.step p action).sessions[index]? ≠ S.sessions[index]? := by
    intro h
    rw [value?, h] at hvalue
    rw [value?, hvalue] at hopen
    cases hopen
  obtain ⟨passage, rfl⟩ : ∃ passage, action = .turn index passage := by
    by_contra h
    exact hne (sessions_step fun passage haction => h ⟨passage, haction⟩)
  cases hsession : S.sessions[index]? with
  | none =>
      rw [step_turn_none passage hsession] at hne
      exact absurd rfl hne
  | some session =>
      refine ⟨passage, session, rfl, rfl, ?_⟩
      rw [value?, sessions_step_turn passage hsession] at hvalue
      exact eq_done_of_value? hvalue

end System

/-! ## The server evolves -/

/-- The configuration object was written again, or is the same as before. -/
structure ApiServer.Evolves (s s' : ApiServer) : Prop where
  le : s.writes ≤ s'.writes
  same : s'.writes = s.writes → s'.config = s.config

namespace ApiServer

theorem Evolves.refl (s : ApiServer) : Evolves s s := ⟨Nat.le_refl _, fun _ => rfl⟩

theorem Evolves.trans {s'' : ApiServer} (h : Evolves s s') (h' : Evolves s' s'') :
    Evolves s s'' := by
  refine ⟨Nat.le_trans h.le h'.le, fun hwrites => ?_⟩
  -- Nothing was written in all, so nothing was written on either way.
  have hfirst : s'.writes = s.writes := Nat.le_antisymm (hwrites ▸ h'.le) h.le
  exact (h'.same (hwrites.trans hfirst.symm)).trans (h.same hfirst)

theorem Evolves.config? (h : Evolves s s') (p : Policy) (hwrites : s'.writes = s.writes) :
    s'.config? p = s.config? p := by
  rw [ApiServer.config?, ApiServer.config?, object?, object?, h.same hwrites, hwrites]

theorem evolves_write (s : ApiServer) (config : Option Value) (definitions : List Value) :
    Evolves s { s.write config with definitions } := by
  refine ⟨Nat.le_succ _, fun h => ?_⟩
  have hwrites : s.writes + 1 = s.writes := h
  omega

theorem evolves_answer (p : Policy) (s : ApiServer) (request : Request) :
    Evolves s (s.answer p request).2 := by
  unfold answer
  split
  · exact .refl s
  · exact .refl s
  · split
    · unfold patchStatus
      split
      · exact .refl s
      · split
        · exact evolves_write s _ s.definitions
        · exact .refl s
    · unfold patchDefinition
      split
      · exact .refl s
      · exact .refl s
      · exact ⟨Nat.le_refl _, fun _ => rfl⟩

theorem evolves_exchange (p : Policy) (s : ApiServer) (request : Request) (passage : Passage) :
    Evolves s (passage.exchange p s request).2 := by
  cases passage with
  | clear => exact evolves_answer p s request
  | broken heard reply h =>
      cases heard with
      | true => exact evolves_answer p s request
      | false => exact .refl s

/-- A configuration object that was given out, and is current if its version is. -/
def Known (p : Policy) (s : ApiServer) (v : Value) : Prop :=
  ∃ k, k ≤ s.writes ∧ version? v = some (p.version k) ∧ (k = s.writes → s.object? p = some v)

theorem known_object? {v : Value} (h : s.object? p = some v) : Known p s v :=
  ⟨s.writes, Nat.le_refl _, version?_object? h, fun _ => h⟩

theorem Known.evolves {v : Value} (h : Known p s v) (hs : Evolves s s') : Known p s' v := by
  obtain ⟨k, hle, hversion, hcurrent⟩ := h
  refine ⟨k, Nat.le_trans hle hs.le, hversion, fun hk => ?_⟩
  -- The version is still the last one, so nothing was written since.
  have hwrites : s'.writes = s.writes := Nat.le_antisymm (hk ▸ hle) hs.le
  rw [← hcurrent (hk.trans hwrites), object?, object?, hs.same hwrites, hwrites]

/-- Whoever knows the current version knows the current object. -/
theorem Known.current {v w : Value} (h : Known p s v) (hw : s.object? p = some w)
    (hversion : version? v = version? w) : v = w := by
  obtain ⟨k, _, hv, hcurrent⟩ := h
  have hk : p.version k = p.version s.writes := by
    rw [← Option.some.injEq, ← hv, hversion, version?_object? hw]
  have hobject := hcurrent (p.version_injective hk)
  rw [hw] at hobject
  exact (Option.some.inj hobject).symm

/-- All configuration objects that were read on a course are known. -/
def Told (p : Policy) (s : ApiServer) (c : Course Request Reply) : Prop :=
  ∀ request reply latest, Event.asked request reply ∈ c → request.method = .get →
    SecretsConfig.path.toList <+: request.path.toList →
    reply.receive SecretsConfig.reader = .ok latest →
    ∃ v, Known p s v ∧ SecretsConfig.ofJson? v = some latest

theorem Told.evolves {c : Course Request Reply} (h : Told p s c) (hs : Evolves s s') :
    Told p s' c := by
  intro request reply latest hmem hmethod hpath hread
  obtain ⟨v, hv, hlatest⟩ := h request reply latest hmem hmethod hpath hread
  exact ⟨v, hv.evolves hs, hlatest⟩

/-- What is read as the configuration object came through, and is the object that is stored. -/
theorem clear_of_read {request : Request} {passage : Passage} {latest : SecretsConfig}
    (hmethod : request.method = .get)
    (hpath : SecretsConfig.path.toList <+: request.path.toList)
    (hread : (passage.exchange p s request).1.receive SecretsConfig.reader = .ok latest) :
    passage = .clear ∧ s.config? p = some latest := by
  cases passage with
  | broken heard reply h =>
      obtain ⟨e, he⟩ := receive_refusal SecretsConfig.reader h
      rw [Passage.exchange, he] at hread
      cases hread
  | clear =>
      rw [Passage.exchange, answer_get p s hmethod] at hread
      exact ⟨rfl, config?_eq_some.mpr (object?_of_read hpath hread)⟩

/-- To read changes nothing. -/
theorem exchange_get {request : Request} (h : request.method = .get) (passage : Passage) :
    (passage.exchange p s request).2 = s := by
  cases passage with
  | clear => rw [Passage.exchange, answer_get p s h]
  | broken heard reply _ => cases heard <;> simp [Passage.exchange, answer_get p s h]

/-- One more exchange tells of the object as it is. -/
theorem Told.exchange {c : Course Request Reply} (h : Told p s c) (request : Request)
    (passage : Passage) :
    Told p (passage.exchange p s request).2
      (c ++ [.asked request (passage.exchange p s request).1]) := by
  intro request' reply latest hmem hmethod hpath hread
  rcases List.mem_append.mp hmem with hmem | hmem
  · exact h.evolves (evolves_exchange p s request passage) _ _ _ hmem hmethod hpath hread
  · obtain ⟨rfl, rfl⟩ := Event.asked.inj (List.mem_singleton.mp hmem)
    obtain ⟨rfl, hconfig⟩ := clear_of_read hmethod hpath hread
    rw [Passage.exchange, answer_get p s hmethod]
    obtain ⟨v, hv, hlatest⟩ := config?_eq_some.mp hconfig
    exact ⟨v, known_object? hv, hlatest⟩

end ApiServer

/-! ## What the sessions know -/

namespace System

/-- Every session is on a course from its start and was told the truth on it. -/
def Informed (p : Policy) (starts : List (Session α)) (S : System α) : Prop :=
  ∀ (i : Nat) (session : Session α), S.sessions[i]? = some session →
    ∃ first c, starts[i]? = some first ∧ Leads first c session ∧ S.server.Told p c

theorem informed_start (p : Policy) (s : ApiServer) (starts : List (Session α)) :
    Informed p starts ⟨s, starts⟩ := by
  intro i session hsession
  refine ⟨session, [], hsession, .stay session, ?_⟩
  intro _ _ _ hmem
  cases hmem

theorem evolves_turn (session : Session α) (passage : Passage) :
    s.Evolves (turn p passage s session).1 := by
  cases session with
  | ask request next => exact ApiServer.evolves_exchange p s request passage
  | done a => exact .refl s
  | pause time next => exact .refl s
  | abort fault => exact .refl s

theorem evolves_step (S : System α) (action : Action) :
    S.server.Evolves (S.step p action).server := by
  cases action with
  | edit config definitions => exact ApiServer.evolves_write _ _ _
  | turn index passage =>
      cases hindex : S.sessions[index]? with
      | none =>
          rw [step_turn_none passage hindex]
          exact .refl _
      | some session =>
          rw [step_turn passage hindex]
          exact evolves_turn session passage

theorem evolves_run (S : System α) (schedule : List Action) :
    S.server.Evolves (S.run p schedule).server := by
  induction schedule generalizing S with
  | nil => exact .refl _
  | cons action rest ih => exact (evolves_step S action).trans (ih (S.step p action))

/-- What a turn leaves of a session was told the truth, too. -/
theorem told_turn {first session : Session α} {c : Course Request Reply}
    (hleads : Leads first c session) (htold : s.Told p c) (passage : Passage) :
    ∃ c', Leads first c' (turn p passage s session).2 ∧
      (turn p passage s session).1.Told p c' := by
  cases session with
  | done a => exact ⟨c, hleads, htold⟩
  | abort fault => exact ⟨c, hleads, htold⟩
  | pause time next =>
      refine ⟨_, hleads.waited, ?_⟩
      intro request reply latest hmem
      refine htold request reply latest ?_
      simpa using hmem
  | ask request next => exact ⟨_, hleads.answered _, htold.exchange request passage⟩

theorem informed_step {starts : List (Session α)} {S : System α} (h : Informed p starts S)
    (action : Action) : Informed p starts (S.step p action) := by
  cases action with
  | edit config definitions =>
      intro i session hsession
      obtain ⟨first, c, hfirst, hleads, htold⟩ := h i session hsession
      exact ⟨first, c, hfirst, hleads, htold.evolves (ApiServer.evolves_write _ _ _)⟩
  | turn index passage =>
      cases hindex : S.sessions[index]? with
      | none =>
          rw [step_turn_none passage hindex]
          exact h
      | some session =>
          rw [step_turn passage hindex]
          obtain ⟨first, c, hfirst, hleads, htold⟩ := h index session hindex
          obtain ⟨c', hleads', htold'⟩ := told_turn hleads htold passage
          intro i session' hsession'
          -- The other sessions stay where they are, and what they were told stays true.
          by_cases hi : index = i
          · subst hi
            have hbound := (List.getElem?_eq_some_iff.mp hindex).1
            simp only [List.getElem?_set_self hbound] at hsession'
            cases hsession'
            exact ⟨first, c', hfirst, hleads', htold'⟩
          · simp only [List.getElem?_set_ne hi] at hsession'
            obtain ⟨first, c, hfirst, hleads, htold⟩ := h i session' hsession'
            exact ⟨first, c, hfirst, hleads, htold.evolves (evolves_turn session passage)⟩

theorem informed_run {starts : List (Session α)} {S : System α} (h : Informed p starts S)
    (schedule : List Action) : Informed p starts (S.run p schedule) := by
  induction schedule generalizing S with
  | nil => exact h
  | cons action rest ih => exact ih (informed_step h action)

end System

end SecretsWarden.Cluster
