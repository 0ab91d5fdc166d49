import SecretsWarden.Proofs.StatusRecord.Cycle
import SecretsWarden.Proofs.StatusRecord.Serving

/-!
# Recording the same outcome again

Undisturbed, a recording that does not fail leaves nothing to write for a later one with the same
outcome. What is stored decides that, not what the configuration object is called: the name that it
carries may lead elsewhere, and then there is nothing to write over in the first place.
-/

namespace SecretsWarden.StatusRecord

open Cluster Dialogue Json Resource ApiServer

variable {p : Policy} {s : ApiServer} {v : Value} {config : SecretsConfig} {clock : Nat}
  {name : String} {request : Request} {condition : Condition}

/-! ## Requests by some name -/

theorem read_elsewhere (hread : Request.read SecretsConfig.path name = .ok request)
    (hpath : request.path ≠ configAddress) : s.answer p request = (absence, s) := by
  have hprefix := prefix_of_named hread isPathText_path
  have hdefinitions : request.path ≠ Definition.path := by
    intro h
    rw [h, ← String.append_empty (s := Definition.path)] at hprefix
    exact path_not_prefix hprefix
  rw [answer_get p s (method_of_named hread), ApiServer.read, if_neg hpath,
    if_neg hdefinitions, definition?_eq_none hprefix]
  rfl

theorem read_config (hobject : s.object? p = some v)
    (hread : Request.read SecretsConfig.path name = .ok request)
    (hpath : request.path = configAddress) : s.answer p request = (found? (some v), s) := by
  rw [answer_get p s (method_of_named hread), ApiServer.read, if_pos hpath, hobject]

/-- A write by some name is accepted, or there is nothing to write over. -/
theorem answer_writing {conditions : List Condition} (hobject : s.object? p = some v)
    (hconfig : SecretsConfig.ofJson? v = some config)
    (hwriting : writing name config conditions = .ok request) :
    s.answer p request = (absence, s) ∨
      s.answer p request =
        (found? ((s.write (some (v.mergePatch
            (patchBody config.metadata.resourceVersion conditions)))).object? p),
          s.write (some (v.mergePatch
            (patchBody config.metadata.resourceVersion conditions)))) := by
  have hprefix := prefix_of_named hwriting isPathText_path
  obtain ⟨_, hmethod, hbody⟩ := splitAddress_of_named hwriting
  obtain ⟨method, path, query, body⟩ := request
  cases hmethod
  cases hbody
  by_cases hstatus : path = statusAddress
  · subst hstatus
    exact Or.inr (answer_write hobject hconfig query conditions)
  · left
    simp only [answer, if_neg hstatus, patchDefinition, definition?_eq_none hprefix]

/-! ## One recording -/

/-- How a recording ends on a server that nobody else writes to. -/
inductive Settles (p : Policy) (s : ApiServer) (v : Value) (config : SecretsConfig)
    (condition : Condition) : Except Failure Bool → ApiServer → Prop where
  | already (h : condition.merge? config.conditions = none) :
      Settles p s v config condition (.ok false) s
  /-- The name of the object leads to where no object is. -/
  | elsewhere {request : Request}
      (hread : Request.read SecretsConfig.path config.name = .ok request)
      (hpath : request.path ≠ configAddress) : Settles p s v config condition (.ok false) s
  | written {conditions : List Condition}
      (h : condition.merge? config.conditions = some conditions) :
      Settles p s v config condition (.ok true)
        (s.write (some (v.mergePatch (patchBody config.metadata.resourceVersion conditions))))
  | failed (e : Error) :
      Settles p s v config condition (.error (.writeStatus config.name e)) s

variable (clock) in
/-- What a try by a name that leads elsewhere comes to. -/
theorem run_update_elsewhere (hread : Request.read SecretsConfig.path name = .ok request)
    (hpath : request.path ≠ configAddress) (condition : Condition) :
    (update name condition).run (serve p) clock s = ⟨.ok (.ok false), clock, s⟩ := by
  rw [update, Cluster.get, hread, sendBuilt, send, Dialogue.bind, run_serve,
    read_elsewhere hread hpath]
  rfl

theorem course_update_elsewhere (hread : Request.read SecretsConfig.path name = .ok request)
    (hpath : request.path ≠ configAddress) (condition : Condition) :
    (update name condition).course (serve p) clock s = [.asked request absence] := by
  have hanswer : serve p clock s request = (absence, s) := read_elsewhere hread hpath
  rw [update, Cluster.get, hread, sendBuilt, send]
  simp only [Dialogue.bind, Dialogue.course, hanswer]
  rfl

/-- What comes of the answer to a write. -/
def concluding (name : String) : Except Cluster.Error SecretsConfig → Session (Except Failure Bool)
  | .ok _ => .done (.ok true)
  | .error e => .done (.error (.writeStatus name e))

variable (clock) in
/-- A try for which there is something to write settles, and never in a conflict. -/
theorem run_update_settles (hobject : s.object? p = some v)
    (hconfig : SecretsConfig.ofJson? v = some config) {conditions : List Condition}
    (hmerge : condition.merge? config.conditions = some conditions) :
    ∃ status s', Settles p s v config condition status s' ∧
      (∀ e, status = .error e → e.isConflict = false) ∧
      (update config.name condition).run (serve p) clock s = ⟨.ok status, clock, s'⟩ := by
  cases hread : Request.read SecretsConfig.path config.name with
  | error e =>
      obtain ⟨fault, rfl⟩ := unbuildable_of_named hread
      refine ⟨_, s, .failed (.unbuildable fault), fun e' he' => ?_, ?_⟩
      · cases he'
        rfl
      · rw [update, Cluster.get, hread]
        rfl
  | ok request =>
      by_cases hpath : request.path = configAddress
      · have hrun : (update config.name condition).run (serve p) clock s =
            Dialogue.run (serve p) clock s ((sendBuilt SecretsConfig.reader
              (writing config.name config conditions)).bind (concluding config.name)) := by
          rw [update, Cluster.get, hread, sendBuilt, send, Dialogue.bind, run_serve,
            read_config hobject hread hpath]
          simp only [Dialogue.bind, receive_config hconfig, hmerge]
          rfl
        rw [hrun]
        cases hwriting : writing config.name config conditions with
        | error e =>
            refine ⟨_, s, .failed e, fun e' he' => ?_, rfl⟩
            cases he'
            exact isConflict_of_named hwriting
        | ok write =>
            rw [sendBuilt, send, Dialogue.bind, run_serve]
            rcases answer_writing hobject hconfig hwriting with habsent | haccepted
            · rw [habsent]
              refine ⟨_, s, .failed _, fun e' he' => ?_, rfl⟩
              cases he'
              rfl
            · rw [haccepted, object?_write]
              have hread' := receive_config (ofJson?_written hobject hconfig
                (Condition.ne_nil_of_merge? hmerge) (p.version (s.writes + 1)))
              refine ⟨_, _, .written hmerge, fun e' he' => ?_, ?_⟩
              · cases he'
              · simp only [Dialogue.bind, hread', concluding, Dialogue.run]
      · refine ⟨_, s, .elsewhere hread hpath, fun e he => ?_,
          run_update_elsewhere clock hread hpath condition⟩
        cases he

variable (clock) in
/-- Every recording settles, whatever its retries are. -/
theorem run_record_settles (hobject : s.object? p = some v)
    (hconfig : SecretsConfig.ofJson? v = some config) (backoff : Backoff)
    (now type upToDate : String) (outcome : Except Failure Unit) :
    ∃ status s',
      Settles p s v config (outcomeCondition now config type outcome upToDate) status s' ∧
      (record backoff now config type outcome upToDate).run (serve p) clock s =
        ⟨.ok status, clock, s'⟩ := by
  unfold record
  simp only
  cases hmerge : (outcomeCondition now config type outcome upToDate).merge? config.conditions with
  | none => exact ⟨_, s, .already hmerge, rfl⟩
  | some conditions =>
      obtain ⟨status, s', hsettles, hlast, hrun⟩ := run_update_settles clock hobject hconfig hmerge
      exact ⟨status, s', hsettles, (Backoff.retry_settled hrun hlast backoff).1⟩

/-! ## The same outcome again -/

/-- The condition of an outcome is the same at any time and for any object of one generation. -/
theorem equivalent_outcomeCondition {now now' type upToDate : String} {config' : SecretsConfig}
    {outcome : Except Failure Unit}
    (h : config'.metadata.generation = config.metadata.generation) :
    (outcomeCondition now config type outcome upToDate).equivalent
      (outcomeCondition now' config' type outcome upToDate) = true := by
  simp [outcomeCondition, Condition.equivalent, h]

/-- A recording that has nothing to do for an object, or nowhere to do it. -/
theorem record_idle (backoff : Backoff) {now type upToDate : String}
    {outcome : Except Failure Unit}
    (h : (outcomeCondition now config type outcome upToDate).merge? config.conditions = none ∨
      ∃ request, Request.read SecretsConfig.path config.name = .ok request ∧
        request.path ≠ configAddress) (s : ApiServer) (clock : Nat) :
    (record backoff now config type outcome upToDate).run (serve p) clock s =
        ⟨.ok (.ok false), clock, s⟩ ∧
      ∀ x ∈ exchanges ((record backoff now config type outcome upToDate).course (serve p) clock s),
        x.1.method = .get := by
  unfold record
  simp only
  cases hmerge : (outcomeCondition now config type outcome upToDate).merge? config.conditions with
  | none => exact ⟨rfl, fun x hx => by cases hx⟩
  | some conditions =>
      obtain ⟨request, hread, hpath⟩ := h.resolve_left (by simp [hmerge])
      have hrun := run_update_elsewhere (p := p) (s := s) clock hread hpath
        (outcomeCondition now config type outcome upToDate)
      have hlast : ∀ e, (Except.ok false : Except Failure Bool) = .error e →
          e.isConflict = false := by
        intro e he
        cases he
      obtain ⟨hretried, hcourse⟩ := Backoff.retry_settled hrun hlast backoff
      refine ⟨hretried, ?_⟩
      rw [hcourse, course_update_elsewhere hread hpath]
      intro x hx
      rw [List.mem_singleton.mp hx]
      exact method_of_named hread

/-- After a recording that did not fail, the object reads as before but for its version and
conditions, and recording the same outcome at another time is idle. -/
theorem Settles.again {now type upToDate : String} {outcome : Except Failure Unit} {wrote : Bool}
    {s' : ApiServer} (hobject : s.object? p = some v)
    (hconfig : SecretsConfig.ofJson? v = some config)
    (h : Settles p s v config (outcomeCondition now config type outcome upToDate) (.ok wrote) s') :
    s'.definitions = s.definitions ∧ ∃ v' config', s'.object? p = some v' ∧
      SecretsConfig.ofJson? v' = some config' ∧ config'.spec = config.spec ∧
      ∀ now', (outcomeCondition now' config' type outcome upToDate).merge? config'.conditions =
          none ∨
        ∃ request, Request.read SecretsConfig.path config'.name = .ok request ∧
          request.path ≠ configAddress := by
  generalize hstatus : Except.ok wrote = status at h
  cases h with
  | failed e => cases hstatus
  | already hmerge =>
      refine ⟨rfl, v, config, hobject, hconfig, rfl, fun now' => Or.inl ?_⟩
      exact (Condition.merge?_eq_none_congr (equivalent_outcomeCondition rfl)).mp hmerge
  | elsewhere hread hpath =>
      exact ⟨rfl, v, config, hobject, hconfig, rfl, fun now' => Or.inr ⟨_, hread, hpath⟩⟩
  | written hmerge =>
      refine ⟨rfl, _, _, object?_write p s _, ofJson?_written hobject hconfig
        (Condition.ne_nil_of_merge? hmerge) _, rfl, fun now' => Or.inl ?_⟩
      refine (Condition.merge?_eq_none_congr (equivalent_outcomeCondition ?_)).mp
        (Condition.merge?_merge? hmerge)
      rfl

end SecretsWarden.StatusRecord
