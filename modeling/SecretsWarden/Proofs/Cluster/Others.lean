import SecretsWarden.Proofs.Cluster.Concurrent
import SecretsWarden.Resource.Definition

/-!
# An API server that others write to

The operator is not alone with its API server. Others write between two requests, and what they may
write is a relation to what is stored. Whoever answers the operator stands for such a server if the
requests of passes are answered from what is stored by then. What watchers and the search for kinds
are told may be anything: a watch may be late or silent, and may tell of what is not there.
-/

namespace SecretsWarden.Cluster

open Dialogue Json Resource

/-! ## Edits of others -/

/-- What others may write instead of the stored objects. -/
abbrev Others := ApiServer → Option Value → List Value → Prop

/-- Others have written to a server, any number of times. -/
inductive Edited (others : Others) : ApiServer → ApiServer → Prop where
  | none (s : ApiServer) : Edited others s s
  | more {s s' : ApiServer} {config : Option Value} {definitions : List Value}
      (h : others s config definitions)
      (hrest : Edited others { s.write config with definitions } s') : Edited others s s'

/-- All edits in a schedule are such as others may make. -/
def EditedBy {α : Type} (others : Others) (p : Policy) : System α → List Action → Prop
  | _, [] => True
  | S, .turn i passage :: rest => EditedBy others p (S.step p (.turn i passage)) rest
  | S, .edit config definitions :: rest =>
    others S.server config definitions ∧
      EditedBy others p (S.step p (.edit config definitions)) rest

/-- The action is no turn of a session beyond the first ones. -/
def Action.Within (count : Nat) : Action → Prop
  | .turn i _ => i < count
  | .edit _ _ => True

variable {α σ : Type} {p : Policy} {others : Others} {s s' s'' : ApiServer}
  {sessions : List (Session α)} {S : System α} {earlier later schedule : List Action}

theorem Edited.trans (h : Edited others s s') (h' : Edited others s' s'') :
    Edited others s s'' := by
  induction h with
  | none => exact h'
  | more h _ ih => exact .more h (ih h')

theorem editedBy_append :
    EditedBy others p S (earlier ++ later) ↔
      EditedBy others p S earlier ∧ EditedBy others p (S.run p earlier) later := by
  induction earlier generalizing S with
  | nil => simp [EditedBy, System.run]
  | cons action rest ih =>
      cases action with
      | turn i passage => exact ih
      | edit config definitions =>
          simp only [List.cons_append, EditedBy, and_assoc]
          exact and_congr_right fun _ => ih

/-- Edits of others are a schedule in which no session has a turn. -/
theorem Edited.exists_schedule (h : Edited others s s') (p : Policy)
    (sessions : List (Session α)) :
    ∃ edits, (∀ i passage, Action.turn i passage ∉ edits) ∧
      EditedBy others p ⟨s, sessions⟩ edits ∧
      System.run p ⟨s, sessions⟩ edits = ⟨s', sessions⟩ := by
  induction h with
  | none s => exact ⟨[], fun _ _ => List.not_mem_nil, trivial, rfl⟩
  | @more s s' config definitions h _ ih =>
      obtain ⟨edits, hturns, hedited, hrun⟩ := ih
      refine ⟨.edit config definitions :: edits, ?_, ⟨h, hedited⟩, hrun⟩
      intro i passage hmem
      rcases List.mem_cons.mp hmem with hedit | hmem
      · cases hedit
      · exact hturns i passage hmem

namespace System

theorem length_step (S : System α) (action : Action) :
    (S.step p action).sessions.length = S.sessions.length := by
  cases action with
  | edit config definitions => rfl
  | turn i passage =>
      cases hsession : S.sessions[i]? with
      | none => rw [step_turn_none passage hsession]
      | some session => rw [step_turn passage hsession, List.length_set]

theorem length_run (S : System α) (schedule : List Action) :
    (S.run p schedule).sessions.length = S.sessions.length := by
  induction schedule generalizing S with
  | nil => rfl
  | cons action rest ih => exact (ih (S.step p action)).trans (length_step S action)

/-- An action of the first sessions does not touch those that come after them. -/
theorem step_extend {action : Action} (h : action.Within S.sessions.length)
    (more : List (Session α)) :
    System.step p ⟨S.server, S.sessions ++ more⟩ action =
      ⟨(S.step p action).server, (S.step p action).sessions ++ more⟩ := by
  cases action with
  | edit config definitions => rfl
  | turn i passage =>
      have hi : i < S.sessions.length := h
      have hsession := List.getElem?_eq_getElem hi
      have hextended : (S.sessions ++ more)[i]? = some S.sessions[i] := by
        rw [List.getElem?_append_left hi, hsession]
      rw [step_turn (S := ⟨S.server, S.sessions ++ more⟩) passage hextended,
        step_turn passage hsession, List.set_append_left i _ hi]

theorem run_extend (h : ∀ action ∈ schedule, action.Within S.sessions.length)
    (more : List (Session α)) :
    System.run p ⟨S.server, S.sessions ++ more⟩ schedule =
      ⟨(S.run p schedule).server, (S.run p schedule).sessions ++ more⟩ := by
  induction schedule generalizing S with
  | nil => rfl
  | cons action rest ih =>
      have hnext := ih (S := S.step p action) fun action' hmem =>
        length_step (p := p) S action ▸ h action' (List.mem_cons_of_mem _ hmem)
      rw [← step_extend (h action List.mem_cons_self)] at hnext
      exact hnext

end System

theorem editedBy_extend (h : ∀ action ∈ schedule, action.Within S.sessions.length)
    (more : List (Session α)) :
    EditedBy others p ⟨S.server, S.sessions ++ more⟩ schedule ↔ EditedBy others p S schedule := by
  induction schedule generalizing S with
  | nil => exact Iff.rfl
  | cons action rest ih =>
      have hnext := ih (S := S.step p action) fun action' hmem =>
        System.length_step (p := p) S action ▸ h action' (List.mem_cons_of_mem _ hmem)
      rw [← System.step_extend (h action List.mem_cons_self)] at hnext
      cases action with
      | turn i passage => exact hnext
      | edit config definitions => exact and_congr_right fun _ => hnext

/-! ## Those who answer -/

/-- The request is about an object of that name, or asks for the list of the managed definitions.
This is answered from what is stored. -/
inductive AsksStored : Request → Prop where
  | list : AsksStored (.list Definition.path Definition.selectorQuery)
  | named {method : Method} {path name rest : String} {body : Option Value} {request : Request}
      (hpath : path = SecretsConfig.path ∨ path = Definition.path)
      (h : Request.named method path name rest body = .ok request) : AsksStored request

/-- Whoever answers stands for an API server that others write to. They write before a request is
heard; then a request for what is stored is answered as it gets through, and no request that only
reads changes anything. -/
def StandsFor (p : Policy) (others : Others) (answer : Answerer σ Request Reply)
    (view : σ → ApiServer) : Prop :=
  ∀ clock state request, ∃ heard, Edited others (view state) heard ∧
    (AsksStored request → ∃ passage : Passage, passage.exchange p heard request =
      ((answer clock state request).1, view (answer clock state request).2)) ∧
    (request.method = .get → view (answer clock state request).2 = heard)

/-- Asks nothing but questions that read. -/
def Reads (d : Session α) : Prop := d.AsksOnly fun request => request.method = .get

/-- A dialogue that only reads leaves the writing to others. -/
theorem StandsFor.edited_of_reads {answer : Answerer σ Request Reply} {view : σ → ApiServer}
    (hstands : StandsFor p others answer view) {d : Session α} (h : Reads d) (clock : Nat)
    (state : σ) : Edited others (view state) (view (d.run answer clock state).state) := by
  induction d generalizing clock state with
  | done a => exact .none _
  | abort fault => exact .none _
  | pause time next ih => exact ih h _ _
  | ask request next ih =>
      obtain ⟨heard, hedited, _, hget⟩ := hstands clock state request
      rw [← hget h.1] at hedited
      exact hedited.trans (ih _ (h.2 _) clock _)

/-- A server that nobody else writes to. It answers from what is stored, except for what it tells
otherwise. -/
def ApiServer.telling (p : Policy) (told : Nat → Request → Option Reply) :
    Answerer ApiServer Request Reply := fun clock s request =>
  match told clock request with
  | some reply => (reply, s)
  | none => s.answer p request

theorem standsFor_telling {told : Nat → Request → Option Reply}
    (h : ∀ clock request, (told clock request).isSome → ¬ AsksStored request) :
    StandsFor p (fun _ _ _ => False) (ApiServer.telling p told) id := by
  intro clock s request
  refine ⟨s, .none s, ?_, ?_⟩
  · intro hstored
    refine ⟨.clear, ?_⟩
    have hnone : told clock request = none := by
      rw [← Option.not_isSome_iff_eq_none]
      exact fun hsome => h clock request hsome hstored
    rw [ApiServer.telling, hnone]
    rfl
  · intro hget
    show (ApiServer.telling p told clock s request).2 = s
    unfold ApiServer.telling
    split
    · rfl
    · rw [ApiServer.answer_get p s hget]

end SecretsWarden.Cluster
