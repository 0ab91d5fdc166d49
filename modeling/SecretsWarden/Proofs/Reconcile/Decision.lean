import SecretsWarden.Proofs.Reconcile.Convergence
import SecretsWarden.Proofs.Reconcile.Interleaving

/-!
# What is stored when a pass decides

A pass decides about the status with its last request: its write is accepted, or it sees that there
is nothing to write. It may see that in a later reading of its own, which is as fresh as the
decision, or in its first one, which is as old as the pass. Only in the second case, and only if
somebody wrote in between, may the stored condition be another than the one that the pass reports.
-/

namespace SecretsWarden

open Cluster Dialogue Json Resource ApiServer

theorem Resource.SecretsConfig.Carries.status_mem {config : SecretsConfig} {condition : Condition}
    (h : config.Carries condition) : condition.status ∈ config.conditions.map (·.status) := by
  obtain ⟨c, hfind, hequivalent⟩ := h
  obtain ⟨_, hstatus, _⟩ := Condition.equivalent_iff.mp hequivalent
  rw [← hstatus]
  exact List.mem_map_of_mem (List.mem_of_find?_eq_some hfind)

namespace StatusRecord

variable {p : Policy} {s : ApiServer} {condition : Condition} {before : Course Request Reply}
  {request : Request} {passage : Passage} {after : SecretsConfig}

/-- The last word of a recording leaves the condition stored, if there is an object at all. -/
theorem LastWord.carries
    (h : LastWord SecretsConfig.singleton condition before request
      (passage.exchange p s request).1)
    (htold : s.Told p before) (hhonest : passage.Honest)
    (hafter : (passage.exchange p s request).2.config? p = some after) :
    after.Carries condition := by
  rw [SecretsConfig.carries_iff]
  generalize hanswer : (passage.exchange p s request).1 = answer at h
  cases h with
  | gone hread he hgone =>
      have hmethod := method_of_named hread
      subst hanswer
      cases passage with
      | broken heard reply _ =>
          rw [hhonest _ he] at hgone
          cases hgone
      | clear =>
          -- The object is there and can be read, so it is what comes back.
          rw [exchange_get hmethod] at hafter
          obtain ⟨v, hobject, hv⟩ := config?_eq_some.mp hafter
          have hbuilt : Request.read SecretsConfig.path SecretsConfig.singleton =
            .ok ⟨.get, configAddress, none, none⟩ := rfl
          obtain rfl := Except.ok.inj (hread.symm.trans hbuilt)
          rw [Passage.exchange, answer_read_config hobject, receive_config hv] at he
          cases he
  | settled hread hlatest hmerge =>
      have hmethod := method_of_named hread
      subst hanswer
      rw [exchange_get hmethod, (clear_of_read hmethod (prefix_of_named hread isPathText_path)
        hlatest).2] at hafter
      cases hafter
      exact hmerge
  | @written _ read _ reading _ _ _ _ hread hlatest hmerge hwriting hreply =>
      subst hanswer
      obtain ⟨v, hknown, hv⟩ := htold read reading _ (by simp) (method_of_named hread)
        (prefix_of_named hread isPathText_path) hlatest
      cases passage with
      | broken heard reply hrefusal =>
          obtain ⟨e, he⟩ := receive_refusal SecretsConfig.reader hrefusal
          rw [Passage.exchange, he] at hreply
          cases hreply
      | clear =>
          rw [Passage.exchange] at hreply hafter
          rcases answer_patch_config (prefix_of_named hwriting isPathText_path)
              (method_of_named hwriting) with
            ⟨hrefusal, _⟩ | ⟨body, current, hbody, hcurrent, hversion, hwritten⟩
          · obtain ⟨e, he⟩ := receive_refusal SecretsConfig.reader hrefusal
            rw [he] at hreply
            cases hreply
          · obtain ⟨_, after', hconfig, _, hconditions⟩ :=
              config?_written hknown hv hmerge hwriting hbody hcurrent hversion
            rw [hwritten, hconfig] at hafter
            cases hafter
            rw [hconditions]
            exact Condition.merge?_merge? hmerge

end StatusRecord

namespace Reconcile

open StatusRecord

/-- A pass that read an object which asks for annotations, in its first turn after `earlier`, and
came to its result with the last action of `later`, without a failure of recording. -/
structure Decides (p : Policy) (server : ApiServer) (passes : List Pass) (i : Nat)
    (earlier later : List Action) (r : Pass) (config : SecretsConfig)
    (result : Except Failure Unit) : Prop where
  pass : passes[i]? = some r
  first : ∀ passage, .turn i passage ∉ earlier
  read : (passSystem p server passes earlier).server.config? p = some config
  named : config.name = SecretsConfig.singleton
  enabled : config.spec.injectAnnotations = true
  running : (passSystem p server passes (earlier ++ .turn i .clear :: later).dropLast).value? i =
    none
  ended : (passSystem p server passes (earlier ++ .turn i .clear :: later)).value? i = some result
  recorded : ∀ failure, result = .error failure → failure.ofRecording = false
  honest : ∀ passage, .turn i passage ∈ later → passage.Honest

variable {p : Policy} {server : ApiServer} {passes : List Pass} {i : Nat}
  {earlier later : List Action} {r : Pass} {config after : SecretsConfig}
  {result : Except Failure Unit}

/-- The result of a pass comes with its first reading, or at the end of a later turn: after a pause,
or after an exchange with the server as it was then. -/
theorem Decides.last (h : Decides p server passes i earlier later r config result) :
    r.rest config = .done result ∨
      ∃ (s : ApiServer) (passage : Passage) (before : Course Request Reply),
        passage.Honest ∧ s.Told p before ∧
        ((∃ time, Ends (r.rest config) (before ++ [.paused time]) (.ok result)) ∨
          ∃ request,
            (passSystem p server passes (earlier ++ .turn i .clear :: later)).server =
              (passage.exchange p s request).2 ∧
            Ends (r.rest config)
              (before ++ [.asked request (passage.exchange p s request).1]) (.ok result)) := by
  have hstart := session_of_idle (p := p) server h.pass h.first
  have hended := h.ended
  have hrunning := h.running
  rcases List.eq_nil_or_concat later with rfl | ⟨between, action, rfl⟩
  · left
    rw [passSystem_snoc, System.value?, System.sessions_step_turn .clear hstart,
      turn_session_clear r h.read] at hended
    exact eq_done_of_value? hended
  · right
    rw [List.concat_eq_append] at hended hrunning ⊢
    rw [← List.cons_append, ← List.append_assoc] at hended hrunning ⊢
    rw [List.dropLast_concat] at hrunning
    rw [passSystem_snoc] at hended ⊢
    obtain ⟨passage, session, rfl, hsession, hdone⟩ := System.turn_of_value? hrunning hended
    obtain ⟨c, hleads, htold⟩ := leads_of_turn h.pass h.first hsession
    rw [turn_session_clear r h.read] at hleads
    rw [System.step_turn passage hsession]
    generalize passSystem p server passes (earlier ++ .turn i .clear :: between) = S at *
    refine ⟨S.server, passage, c, h.honest passage (by simp), htold, ?_⟩
    cases session with
    | done a =>
        rw [System.value?, hsession] at hrunning
        cases hrunning
    | abort fault => cases hdone
    | pause time next =>
        have hnext : next = .done result := hdone
        subst hnext
        exact Or.inl ⟨time, by simpa using hleads.waited.ends (.done result)⟩
    | ask request next =>
        have hnext : next (passage.exchange p S.server request).1 = .done result := hdone
        have hanswered := hleads.answered (passage.exchange p S.server request).1
        rw [hnext] at hanswered
        exact Or.inr ⟨request, rfl, by simpa using hanswered.ends (.done result)⟩

/-- Unless recording failed, the result of a pass is the outcome that it recorded. -/
theorem ends_record_of_rest {c : Course Request Reply}
    (henabled : config.spec.injectAnnotations = true)
    (hrecorded : ∀ failure, result = .error failure → failure.ofRecording = false)
    (h : Ends (r.rest config) c (.ok result)) :
    ∃ c₁ c₂ wrote, c = c₁ ++ c₂ ∧
      Ends (record r.backoff r.now config conditionType result upToDate) c₂ (.ok (.ok wrote)) := by
  rw [Pass.rest, passOn, if_pos henabled] at h
  obtain ⟨outcome, c₁, c₂, rfl, _, hrest⟩ := (gives_synchronize r.target).ends_bind h
  obtain ⟨status, hrecord, hresult⟩ := ends_conclude hrest
  refine ⟨c₁, c₂, ?_⟩
  cases status with
  | error fault => cases hresult
  | ok status =>
      cases status with
      | ok wrote =>
          obtain rfl : result = outcome :=
            (Except.ok.inj hresult).trans (Failure.combine_ok outcome)
          exact ⟨wrote, rfl, hrecord⟩
      | error failure =>
          obtain ⟨e, rfl⟩ := writeStatus_of_ends_record hrecord
          cases Except.ok.inj hresult
          cases outcome with
          | ok _ => cases hrecorded _ rfl
          | error _ => cases hrecorded _ rfl

/-- **A decision is as good as the reading that it rests on.** Whatever the order of the requests of
all passes and other writers, when a pass has recorded its outcome and the object is still there,
the stored condition is equivalent to the one that the pass reports; or the object had an equivalent
one when the pass first read it, and was written by somebody since. -/
theorem stored_or_overwritten (h : Decides p server passes i earlier later r config result)
    (hafter : (passSystem p server passes (earlier ++ .turn i .clear :: later)).server.config? p =
      some after) :
    after.Carries (r.condition config result) ∨
      config.Carries (r.condition config result) ∧
        (passSystem p server passes earlier).server.writes <
          (passSystem p server passes (earlier ++ .turn i .clear :: later)).server.writes := by
  by_cases hcarries : config.Carries (r.condition config result)
  · -- The first reading was enough. It is still current unless somebody wrote.
    have hevolves : (passSystem p server passes earlier).server.Evolves
        (passSystem p server passes (earlier ++ .turn i .clear :: later)).server := by
      rw [passSystem_append]
      exact System.evolves_run _ _
    rcases Nat.eq_or_lt_of_le hevolves.le with hwrites | hwrites
    · left
      rw [hevolves.config? p hwrites.symm, h.read] at hafter
      cases hafter
      exact hcarries
    · exact Or.inr ⟨hcarries, hwrites⟩
  · left
    have hbuilt : Request.read SecretsConfig.path config.name = .ok firstRequest := by
      rw [h.named]
      rfl
    have hlast : ∀ {c}, Ends (r.rest config) c (.ok result) → ∃ before request reply,
        c = before ++ [.asked request reply] ∧
          LastWord config.name (r.condition config result) before request reply := by
      intro c hends
      obtain ⟨c₁, c₂, wrote, rfl, hrecord⟩ := ends_record_of_rest h.enabled h.recorded hends
      obtain ⟨before, request, reply, rfl, hlast⟩ :=
        lastWord_of_ends_record hbuilt (SecretsConfig.carries_iff.not.mp hcarries) hrecord
      exact ⟨c₁ ++ before, request, reply, (List.append_assoc _ _ _).symm, hlast.prepend c₁⟩
    rcases h.last with hdone | ⟨s, passage, before, hhonest, htold, hpaused | hanswered⟩
    · have hends : Ends (r.rest config) [] (.ok result) := by
        rw [hdone]
        exact .done result
      obtain ⟨before, _, _, hnil, _⟩ := hlast hends
      cases before <;> cases hnil
    · obtain ⟨time, hends⟩ := hpaused
      obtain ⟨_, _, _, hcourse, _⟩ := hlast hends
      cases (List.append_inj' hcourse rfl).2
    · obtain ⟨request, hserver, hends⟩ := hanswered
      obtain ⟨before', request', reply, hcourse, hword⟩ := hlast hends
      obtain ⟨rfl, hevent⟩ := List.append_inj' hcourse rfl
      cases hevent
      rw [h.named] at hword
      rw [hserver] at hafter
      exact hword.carries htold hhonest hafter

/-- The object reports a success, and there is one definition, which may not be changed. -/
def reportedSuccess : ApiServer where
  config := some (.object [("metadata", .object [("name", .string "cluster")]),
    ("spec", .object [("injectAnnotations", .bool true)]),
    ("status", .object [("conditions", .array [Condition.toJson {
      type := conditionType, status := "True", reason := some "Completed",
      message := some upToDate }])])])
  definitions := [bareDefinition "b.example"]

/-- Two passes on that server. Of the definitions that they are for, one does not exist. -/
def contested (schedule : List Action) : System (Except Failure Unit) :=
  passSystem (forbidding "b.example") reportedSuccess [.onName "a.example", .onName "b.example"]
    schedule

/-- The second pass reads a success and reports its failure. -/
theorem failure_reported_over_success :
    ∃ config failure after,
      Decides (forbidding "b.example") reportedSuccess [.onName "a.example", .onName "b.example"] 1
        [.turn 0 .clear] (List.replicate 4 (.turn 1 .clear)) (.onName "b.example") config
        (.error failure) ∧
      SecretsConfig.Carries after
        ((Pass.onName "b.example").condition config (.error failure)) := by
  have hread : ((contested [.turn 0 .clear]).server.config? (forbidding "b.example")).map
      (fun config => (config.name, config.spec.injectAnnotations, config.conditions.map (·.status)))
        = some (SecretsConfig.singleton, true, ["True"]) := by decide +kernel
  have hend : ((contested (.turn 0 .clear :: List.replicate 5 (.turn 1 .clear))).value? 1).map
        failedBeforeRecording = some true ∧
      ((contested (.turn 0 .clear :: List.replicate 5 (.turn 1 .clear))).server.config?
        (forbidding "b.example")).isSome = true := by decide +kernel
  obtain ⟨config, hread, hconfig⟩ := Option.map_eq_some_iff.mp hread
  obtain ⟨hnamed, henabled, hconditions⟩ := Prod.mk.inj hconfig |>.imp_right Prod.mk.inj
  obtain ⟨result, hended, hfailed⟩ := Option.map_eq_some_iff.mp hend.1
  obtain ⟨after, hafter⟩ := Option.isSome_iff_exists.mp hend.2
  obtain ⟨failure, rfl, hrecorded⟩ := failedBeforeRecording_iff.mp hfailed
  have hdecides : Decides (forbidding "b.example") reportedSuccess
      [.onName "a.example", .onName "b.example"] 1 [.turn 0 .clear]
      (List.replicate 4 (.turn 1 .clear)) (.onName "b.example") config (.error failure) := {
    pass := rfl
    first := by simp
    read := hread
    named := hnamed
    enabled := henabled
    running := by decide +kernel
    ended := hended
    recorded := fun failure' h => by
      cases h
      exact hrecorded
    honest := fun passage h => by
      cases List.eq_of_mem_replicate h
      trivial }
  refine ⟨config, failure, after, hdecides, ?_⟩
  rcases stored_or_overwritten hdecides hafter with hcarries | ⟨hcarries, _⟩
  · exact hcarries
  · -- What was read was no failure.
    have hmem : "False" ∈ config.conditions.map (·.status) := hcarries.status_mem
    rw [hconditions] at hmem
    exact absurd (List.mem_singleton.mp hmem) (by decide)

/-- The first pass reads a success and ends with one, while the second one reports a failure. What
the first one reports is not what is stored then. -/
theorem failure_stored_under_success :
    ∃ config after,
      Decides (forbidding "b.example") reportedSuccess [.onName "a.example", .onName "b.example"] 0
        [] (List.replicate 5 (.turn 1 .clear) ++ [.turn 0 .clear]) (.onName "a.example") config
        (.ok ()) ∧
      (contested (.turn 0 .clear ::
        (List.replicate 5 (.turn 1 .clear) ++ [.turn 0 .clear]))).server.config?
          (forbidding "b.example") = some after ∧
      ¬ SecretsConfig.Carries after ((Pass.onName "a.example").condition config (.ok ())) := by
  have hread : ((contested []).server.config? (forbidding "b.example")).map
      (fun config => (config.name, config.spec.injectAnnotations)) =
        some (SecretsConfig.singleton, true) := by decide +kernel
  have hend : (contested (.turn 0 .clear ::
        (List.replicate 5 (.turn 1 .clear) ++ [.turn 0 .clear]))).value? 0 = some (.ok ()) ∧
      ((contested (.turn 0 .clear ::
        (List.replicate 5 (.turn 1 .clear) ++ [.turn 0 .clear]))).server.config?
          (forbidding "b.example")).map (fun after => after.conditions.map (·.status)) =
            some ["False"] := by decide +kernel
  obtain ⟨config, hread, hconfig⟩ := Option.map_eq_some_iff.mp hread
  obtain ⟨hnamed, henabled⟩ := Prod.mk.inj hconfig
  obtain ⟨after, hafter, hconditions⟩ := Option.map_eq_some_iff.mp hend.2
  refine ⟨config, after, {
    pass := rfl
    first := by simp
    read := hread
    named := hnamed
    enabled := henabled
    running := by decide +kernel
    ended := hend.1
    recorded := fun failure h => by cases h
    honest := fun passage h => by
      rcases List.mem_append.mp h with h | h
      · cases List.eq_of_mem_replicate h
      · cases List.mem_singleton.mp h
        trivial }, hafter, ?_⟩
  intro hcarries
  have hmem : "True" ∈ after.conditions.map (·.status) := hcarries.status_mem
  rw [hconditions] at hmem
  exact absurd (List.mem_singleton.mp hmem) (by decide)

end Reconcile

end SecretsWarden
