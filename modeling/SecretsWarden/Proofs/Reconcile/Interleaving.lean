import SecretsWarden.Proofs.Reconcile.Phases
import SecretsWarden.Proofs.StatusRecord.NoLostUpdate

/-!
# Passes that take turns

Any number of passes share one configuration object with each other and with whoever else writes
it. The first turn of a pass reads the object; whatever the pass writes to it later is the merged
list over a later reading, so the first one only gives the condition that is merged.
-/

namespace SecretsWarden.Reconcile

open Cluster Dialogue Injection Json Resource StatusRecord ApiServer

/-- What a pass is called with. -/
structure Pass where
  backoff : Backoff
  now : String
  target : Target

namespace Pass

def session (r : Pass) : Session (Except Failure Unit) := pass r.backoff r.now r.target

/-- What is left of the pass after it has read the object. -/
def rest (r : Pass) (config : SecretsConfig) : Session (Except Failure Unit) :=
  passOn r.backoff r.now r.target config

/-- The condition that reports an outcome. -/
def condition (r : Pass) (config : SecretsConfig) (outcome : Except Failure Unit) : Condition :=
  outcomeCondition r.now config conditionType outcome upToDate

/-- A pass on the definition of a name. -/
def onName (name : String) : Pass := ⟨{}, "2024-05-01T10:00:00Z", .definition name⟩

end Pass

/-- The passes and their server after a schedule. -/
def passSystem (p : Policy) (server : ApiServer) (passes : List Pass) (schedule : List Action) :
    System (Except Failure Unit) :=
  System.run p ⟨server, passes.map Pass.session⟩ schedule

variable {p : Policy} {s server : ApiServer} {passes : List Pass} {r : Pass}
  {config : SecretsConfig} {i : Nat} {earlier later : List Action} {passage : Passage}
  {c : Course Request Reply} {request : Request} {next : Reply → Session (Except Failure Unit)}

theorem passSystem_append (server : ApiServer) (passes : List Pass)
    (earlier later : List Action) :
    passSystem p server passes (earlier ++ later) =
      (passSystem p server passes earlier).run p later :=
  System.run_append _ _ _

theorem passSystem_snoc (server : ApiServer) (passes : List Pass) (schedule : List Action)
    (action : Action) :
    passSystem p server passes (schedule ++ [action]) =
      (passSystem p server passes schedule).step p action :=
  passSystem_append server passes schedule [action]

/-! ## The first turn -/

/-- The first turn of a pass changes nothing. It ends the pass, or the object was read as it is. -/
theorem turn_session (r : Pass) (s : ApiServer) (passage : Passage) :
    (System.turn p passage s r.session).1 = s ∧
      ((∃ result, (System.turn p passage s r.session).2 = .done result) ∨
        ∃ config, s.config? p = some config ∧
          (System.turn p passage s r.session).2 = r.rest config) := by
  have hpath : SecretsConfig.path.toList <+: firstRequest.path.toList := by decide
  rw [Pass.session, pass_eq]
  refine ⟨exchange_get rfl passage, ?_⟩
  simp only [System.turn]
  cases hread : (passage.exchange p s firstRequest).1.receive SecretsConfig.reader with
  | ok config => exact Or.inr ⟨config, (clear_of_read rfl hpath hread).2, rfl⟩
  | error e =>
      left
      unfold absent?
      by_cases hnone : e.saysNotFound = true
      · simp only [hnone, if_true]
        exact ⟨_, rfl⟩
      · simp only [hnone]
        exact ⟨_, rfl⟩

/-- On a clear passage an object that can be read is read. -/
theorem turn_session_clear (r : Pass) (hconfig : s.config? p = some config) :
    System.turn p .clear s r.session = (s, r.rest config) := by
  obtain ⟨v, hobject, hv⟩ := config?_eq_some.mp hconfig
  have hread : (found? (some v)).receive SecretsConfig.reader = .ok config := receive_of_ofJson? hv
  have hanswer : s.answer p firstRequest = (found? (some v), s) := by
    rw [← hobject]
    rfl
  rw [Pass.session, pass_eq, System.turn, Passage.exchange, hanswer]
  simp only [hread, absent?]
  rfl

/-- Before its first turn a pass stands at its start. -/
theorem session_of_idle (server : ApiServer) (hpass : passes[i]? = some r)
    (hidle : ∀ passage, .turn i passage ∉ earlier) :
    (passSystem p server passes earlier).sessions[i]? = some r.session := by
  rw [passSystem, System.sessions_run hidle, List.getElem?_map, hpass]
  rfl

/-- Where a pass stands that had its first turn after `earlier`. -/
theorem leads_of_turn {session : Session (Except Failure Unit)} (hpass : passes[i]? = some r)
    (hidle : ∀ passage, .turn i passage ∉ earlier)
    (hsession : (passSystem p server passes (earlier ++ .turn i passage :: later)).sessions[i]? =
      some session) :
    ∃ c, Leads (System.turn p passage (passSystem p server passes earlier).server r.session).2 c
        session ∧
      (passSystem p server passes (earlier ++ .turn i passage :: later)).server.Told p c := by
  have hstart := session_of_idle (p := p) server hpass hidle
  rw [passSystem_append] at hsession ⊢
  generalize passSystem p server passes earlier = S at hstart hsession ⊢
  have hinformed := System.informed_run
    (System.informed_start p (S.step p (.turn i passage)).server
      (S.step p (.turn i passage)).sessions) later
  obtain ⟨first, c, hfirst, hleads, htold⟩ := hinformed i session hsession
  rw [System.sessions_step_turn passage hstart] at hfirst
  cases hfirst
  exact ⟨c, hleads, htold⟩

/-! ## Writes of a pass -/

/-- Whatever a pass writes to the configuration object is the merged list over what it read just
before. -/
theorem writing_of_rest (hleads : Leads (r.rest config) c (.ask request next))
    (hwrites : WritesStatus request) (htold : s.Told p c) :
    ∃ outcome v latest conditions, Known p s v ∧ SecretsConfig.ofJson? v = some latest ∧
      (r.condition config outcome).merge? latest.conditions = some conditions ∧
      writing config.name latest conditions = .ok request := by
  obtain ⟨hmethod, hpath⟩ := hwrites
  obtain ⟨after, out, hends, _⟩ := (hleads.answered (.failed "")).exists_ends
  rw [List.append_assoc, List.singleton_append, Pass.rest, passOn] at hends
  split at hends
  · obtain ⟨outcome, c₁, c₂, hcourse, hsynchronizes, hrest⟩ :=
      (gives_synchronize r.target).ends_bind hends
    obtain ⟨status, hrecord, _⟩ := ends_conclude hrest
    -- What is asked of definitions is not asked of the configuration object.
    have hnot : Event.asked request (.failed "") ∉ c₁ := fun hmem => not_prefix_of_prefix
      ((annotationPhase_of_synchronizes hsynchronizes).under_path _ (mem_exchanges.mpr hmem)) hpath
    obtain ⟨before, rfl, hsecond⟩ := split_of_not_mem hcourse hnot
    obtain ⟨earlier, read, answer, latest, conditions, rfl, hread, hlatest, hmerge, hwriting⟩ :=
      writesFollowReads_of_ends_record hrecord before after request _ hsecond hmethod
    obtain ⟨v, hknown, hv⟩ := htold read answer latest (by simp) (method_of_named hread)
      (prefix_of_named hread isPathText_path) hlatest
    exact ⟨outcome, v, latest, conditions, hknown, hv, hmerge, hwriting⟩
  · obtain ⟨hnil, _⟩ := ends_done.mp hends
    exact absurd hnil (List.append_ne_nil_of_right_ne_nil _ (List.cons_ne_nil _ _))

/-- A turn of a pass leaves the configuration object as it is, or an accepted write of the status
merges the condition of the pass into what is stored. -/
theorem config?_turn {session : Session (Except Failure Unit)}
    (hleads : Leads (r.rest config) c session) (htold : s.Told p c) (passage : Passage) :
    (System.turn p passage s session).1.config? p = s.config? p ∨
      ∃ request next outcome before after, session = .ask request next ∧
        WritesStatus request ∧ (s.answer p request).2 ≠ s ∧ s.config? p = some before ∧
        (System.turn p passage s session).1.config? p = some after ∧
        after.metadata.generation = before.metadata.generation ∧
        (r.condition config outcome).merge? before.conditions = some after.conditions := by
  by_cases hsame : (System.turn p passage s session).1 = s
  · rw [hsame]
    exact Or.inl rfl
  · obtain ⟨request, next, rfl, hne, hturn⟩ := asks_of_turn_ne hsame
    rw [hturn]
    by_cases hpath : SecretsConfig.path.toList <+: request.path.toList
    · obtain ⟨body, current, hmethod, hbody, hcurrent, hversion, hafter⟩ :=
        written_of_answer_ne hpath hne
      obtain ⟨outcome, v, latest, conditions, hknown, hv, hmerge, hwriting⟩ :=
        writing_of_rest hleads ⟨hmethod, hpath⟩ htold
      obtain ⟨hconfig, after, hwritten, hgeneration, hconditions⟩ :=
        config?_written hknown hv hmerge hwriting hbody hcurrent hversion
      rw [hafter]
      exact Or.inr ⟨request, next, outcome, latest, after, rfl, ⟨hmethod, hpath⟩, hne, hconfig,
        hwritten, hgeneration, hconditions ▸ hmerge⟩
    · left
      have hstatus : request.path ≠ statusAddress := by
        intro h
        rw [h] at hpath
        exact hpath (by decide)
      rw [ApiServer.config?, object?_answer hstatus, ← ApiServer.config?]

/-- Where a pass stands: before its first turn, at its end, or past a reading of the object as it
was at its first turn. -/
theorem progress {schedule : List Action} {session : Session (Except Failure Unit)}
    (hpass : passes[i]? = some r)
    (hsession : (passSystem p server passes schedule).sessions[i]? = some session) :
    session = r.session ∨ (∃ result, session = .done result) ∨
      ∃ earlier passage later config c, schedule = earlier ++ .turn i passage :: later ∧
        (∀ passage, .turn i passage ∉ earlier) ∧
        (passSystem p server passes earlier).server.config? p = some config ∧
        Leads (r.rest config) c session ∧
        (passSystem p server passes schedule).server.Told p c := by
  cases hfirst : schedule.find? (Action.isTurnOf i) with
  | none =>
      left
      have hidle : ∀ passage, .turn i passage ∉ schedule := fun passage hmem =>
        List.find?_eq_none.mp hfirst _ hmem (decide_eq_true rfl)
      rw [session_of_idle server hpass hidle] at hsession
      exact (Option.some.inj hsession).symm
  | some action =>
      right
      obtain ⟨hturn, earlier, later, rfl, hidle⟩ := List.find?_eq_some_iff_append.mp hfirst
      cases action with
      | edit config definitions => cases hturn
      | turn j passage =>
          obtain rfl : j = i := of_decide_eq_true hturn
          have hidle : ∀ passage, .turn j passage ∉ earlier := by
            intro passage hmem
            have hnot := hidle _ hmem
            simp [Action.isTurnOf] at hnot
          obtain ⟨c, hleads, htold⟩ := leads_of_turn hpass hidle hsession
          obtain ⟨_, ⟨result, hdone⟩ | ⟨config, hconfig, hrest⟩⟩ :=
            turn_session (p := p) r (passSystem p server passes earlier).server passage
          · rw [hdone] at hleads
            cases hleads
            exact Or.inl ⟨result, rfl⟩
          · rw [hrest] at hleads
            exact Or.inr ⟨earlier, passage, later, config, c, rfl, hidle, hconfig, hleads, htold⟩

/-- After a schedule, it is the turn of a pass that read this object at its first turn and now asks
for a write of the status, which the server accepts. -/
inductive StatusTurn (p : Policy) (server : ApiServer) (passes : List Pass) :
    List Action → Action → Pass → SecretsConfig → Prop where
  | of {earlier later : List Action} {i : Nat} {first passage : Passage} {r : Pass}
      {config : SecretsConfig} {request : Request} {next : Reply → Session (Except Failure Unit)}
      (pass : passes[i]? = some r) (idle : ∀ passage, .turn i passage ∉ earlier)
      (read : (passSystem p server passes earlier).server.config? p = some config)
      (asks : (passSystem p server passes (earlier ++ .turn i first :: later)).sessions[i]? =
        some (.ask request next))
      (writes : WritesStatus request)
      (accepted : ((passSystem p server passes (earlier ++ .turn i first :: later)).server.answer p
        request).2 ≠ (passSystem p server passes (earlier ++ .turn i first :: later)).server) :
      StatusTurn p server passes (earlier ++ .turn i first :: later) (.turn i passage) r config

/-- What is read at the first turn was stored then. -/
theorem StatusTurn.read {schedule : List Action} {action : Action}
    (h : StatusTurn p server passes schedule action r config) :
    ∃ earlier later, schedule = earlier ++ later ∧
      (passSystem p server passes earlier).server.config? p = some config := by
  cases h with
  | of pass idle read asks writes accepted => exact ⟨_, _, rfl, read⟩

/-- A turn leaves the configuration object as it is, or a pass merges the condition that it reports
about a reading at its first turn into what is stored. -/
theorem config?_step_turn (p : Policy) (server : ApiServer) (passes : List Pass)
    (schedule : List Action) (i : Nat) (passage : Passage) :
    (passSystem p server passes (schedule ++ [.turn i passage])).server.config? p =
        (passSystem p server passes schedule).server.config? p ∨
      ∃ r config outcome before after,
        StatusTurn p server passes schedule (.turn i passage) r config ∧
        (passSystem p server passes schedule).server.config? p = some before ∧
        (passSystem p server passes (schedule ++ [.turn i passage])).server.config? p =
          some after ∧
        after.metadata.generation = before.metadata.generation ∧
        (r.condition config outcome).merge? before.conditions = some after.conditions := by
  rw [passSystem_snoc]
  cases hsession : (passSystem p server passes schedule).sessions[i]? with
  | none =>
      rw [System.step_turn_none passage hsession]
      exact Or.inl rfl
  | some session =>
      rw [System.step_turn passage hsession]
      obtain ⟨_, _, hfirst, _⟩ :=
        System.informed_run (System.informed_start p server _) schedule i session hsession
      rw [List.getElem?_map] at hfirst
      obtain ⟨r, hpass, _⟩ := Option.map_eq_some_iff.mp hfirst
      rcases progress hpass hsession with
        rfl | ⟨result, rfl⟩ |
          ⟨earlier, first, later, config, c, rfl, hidle, hconfig, hleads, htold⟩
      · rw [(turn_session r _ passage).1]
        exact Or.inl rfl
      · exact Or.inl rfl
      · rcases config?_turn hleads htold passage with
          hsame | ⟨request, next, outcome, before, after, rfl, hwrites, haccepted, hbefore, hafter,
            hgeneration, hmerge⟩
        · exact Or.inl hsame
        · exact Or.inr ⟨r, config, outcome, before, after,
            .of hpass hidle hconfig hsession hwrites haccepted, hbefore, hafter, hgeneration,
            hmerge⟩

end SecretsWarden.Reconcile
