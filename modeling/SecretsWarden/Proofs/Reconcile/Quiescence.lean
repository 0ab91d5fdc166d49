import SecretsWarden.Proofs.Reconcile.Convergence
import SecretsWarden.Proofs.Reconcile.Phases
import SecretsWarden.Proofs.StatusRecord.Repeat

/-!
# A pass leaves nothing to do

Every write of a pass makes the watches start another one, so a pass must not find work that only
the last one left. Undisturbed, it does not: what was annotated has the annotation, what was refused
is refused again with the same words, and so the condition to be recorded is the one that is stored.
It does not matter whether the definitions can be read, nor how far the first pass came.
-/

namespace SecretsWarden.Reconcile

open Cluster Dialogue Injection Json Resource StatusRecord ApiServer

variable {p : Policy} {s : ApiServer} {target : Target} {names : List String} {clock : Nat}

/-! ## Bringing in line what was brought in line -/

/-- If something cannot be read, then nothing is brought in line, always for the same reason. -/
theorem run_synchronize_unreadable (hdistinct : (s.definitions.map name?).Nodup)
    (htarget : target.concernsAll = true ∨ IsObjectName target.name)
    (h : ¬ Readable target s.definitions) :
    ∃ e, ∀ (t : ApiServer) (clock : Nat), t.definitions = s.definitions →
      (synchronize target).run (serve p) clock t = ⟨.ok (.error e), clock, t⟩ := by
  unfold Readable at h
  push Not at h
  obtain ⟨v, hv, hread, hunreadable⟩ := h
  have hnone : Definition.ofJson? v = none := Option.eq_none_iff_forall_ne_some.mpr hunreadable
  by_cases hall : target.concernsAll = true
  · have hlabelled : labelled v = true := by simpa [isRead, hall] using hread
    refine ⟨.listDefinitions Definition.selector
      (unfit (.object [("items", .array (s.definitions.filter labelled))])), fun t clock ht => ?_⟩
    have hlist : (t.definitions.filter labelled).mapM Definition.ofJson? = none := by
      rw [ht]
      cases hds : (s.definitions.filter labelled).mapM Definition.ofJson? with
      | none => rfl
      | some ds =>
          obtain ⟨d, hd⟩ := exists_mapM_ofJson?_iff.mp ⟨ds, hds⟩ v
            (List.mem_filter.mpr ⟨hv, hlabelled⟩)
          exact absurd hd (hunreadable d)
    rw [synchronize, if_pos hall, run_bind, run_annotateAll_unreadable hlist, ht]
    rfl
  · have hname : name? v = some target.name := by simpa [isRead, hall] using hread
    refine ⟨.readDefinition target.name (unfit v), fun t clock ht => ?_⟩
    have hfound : t.definition? (addressOf target.name) = some v :=
      definition?_of_mem (by rwa [ht]) (by rwa [ht]) hname
    rw [synchronize, if_neg hall,
      run_annotateNamed_unreadable (htarget.resolve_left hall) hfound hnone]

theorem isRead_annotating (names : List String) (v : Value) :
    isRead target (annotating names v) = isRead target v := by
  simp [isRead]

theorem readable_annotatingAll (hfiled : Filed s.definitions)
    (h : Readable target s.definitions) (names : List String) :
    Readable target (annotatingAll names s).definitions := by
  intro v hv hread
  obtain ⟨w, hw, rfl⟩ := List.mem_map.mp hv
  rw [isRead_annotating] at hread
  obtain ⟨d, hd⟩ := h w hw hread
  obtain ⟨name, hname, _⟩ := hfiled.named w hw
  exact exists_ofJson?_annotating hd hname names

theorem filter_inScope_annotating (names : List String) (definitions : List Value) :
    (definitions.map (annotating names)).filter (inScope target) =
      (definitions.filter (inScope target)).map (annotating names) := by
  have hscope : inScope target ∘ annotating names = inScope target :=
    funext (inScope_annotating names)
  rw [List.filter_map, hscope]

theorem annotateEach_idle {ds : List Definition} (h : ∀ d ∈ ds, d.isAnnotated = true)
    (patched : Nat) : annotateEach patched ds = .done (.ok patched) := by
  induction ds with
  | nil => rfl
  | cons d rest ih =>
      rw [annotateEach, annotate, if_pos (h d List.mem_cons_self), Dialogue.bind]
      exact ih fun d' hd' => h d' (List.mem_cons_of_mem _ hd')

/-- If all definitions in scope have the annotation, they are only read. -/
theorem course_synchronize_idle
    (htarget : target.concernsAll = true ∨ IsObjectName target.name)
    (hreadable : Readable target s.definitions)
    (hannotated : ∀ v ∈ s.definitions, inScope target v = true → annotated v = true) :
    ∀ x ∈ exchanges ((synchronize target).course (serve p) clock s), x.1.method = .get := by
  unfold synchronize
  by_cases hall : target.concernsAll = true
  · obtain ⟨ds, hds⟩ := hreadable.exists_mapM hall
    have hidle : ∀ d ∈ ds, d.isAnnotated = true := by
      intro d hd
      obtain ⟨v, hv, hread⟩ := exists_of_mem_mapM_ofJson? hds hd
      obtain ⟨hmem, hlabelled⟩ := List.mem_filter.mp hv
      rw [Definition.isAnnotated_eq hread]
      exact hannotated v hmem (by simp [inScope, hall, hlabelled])
    have hanswer : serve p clock s (.list Definition.path Definition.selectorQuery) =
        (.answered 200 (.json (.object [("items", .array (s.definitions.filter labelled))])), s) :=
      answer_list p s
    rw [if_pos hall, course_bind_done, annotateAll, Cluster.list, send]
    simp only [Dialogue.bind, Dialogue.course, hanswer, receive_list hds, annotateEach_idle hidle]
    intro x hx
    rw [List.mem_singleton.mp hx]
    rfl
  · have hvalid := htarget.resolve_left hall
    have hfetch : ∀ x ∈ exchanges ((fetch target.name).course (serve p) clock s),
        x.1.method = .get := by
      have hgives : (fetch target.name).Gives fun c _ => ∀ x ∈ exchanges c, x.1.method = .get :=
        (gives_getOptional _ _ _).map fun _ _ hread => by
          obtain ⟨_, _, hexchanged⟩ := hread
          exact hexchanged.method_get
      obtain ⟨_, _, hread⟩ := hgives (ends_run (serve p) (fetch target.name) clock s)
      exact hread
    rw [if_neg hall, annotateNamed, course_bind (run_fetch hvalid), exchanges_append]
    intro x hx
    rcases List.mem_append.mp hx with hx | hx
    · exact hfetch x hx
    · -- Nothing is asked after the reading, whatever was found.
      exfalso
      cases hfound : s.definition? (addressOf target.name) with
      | none =>
          rw [hfound] at hx
          cases hx
      | some v =>
          obtain ⟨hmem, hname⟩ := mem_of_definition? hfound
          obtain ⟨d, hd⟩ := hreadable.exists_of_definition? hall hfound
          simp only [hfound, hd, Definition.isManaged_eq hd] at hx
          by_cases hlabelled : labelled v = true
          · have hd' : d.isAnnotated = true :=
              (Definition.isAnnotated_eq hd).trans
                (hannotated v hmem (by simp [inScope, hlabelled, hname]))
            rw [if_pos hlabelled, annotate, if_pos hd'] at hx
            cases hx
          · rw [if_neg hlabelled] at hx
            cases hx

variable (clock) in
/-- Bringing the target in line a second time ends as the first time and changes nothing. -/
theorem run_synchronize_again (hfiled : Filed s.definitions)
    (htarget : target.concernsAll = true ∨ IsObjectName target.name) :
    ∃ names outcome,
      (synchronize target).run (serve p) clock s = ⟨.ok outcome, clock, annotatingAll names s⟩ ∧
      ∀ (t : ApiServer) (clock' : Nat), t.definitions = (annotatingAll names s).definitions →
        (synchronize target).run (serve p) clock' t = ⟨.ok outcome, clock', t⟩ ∧
        (outcome = .ok () → ∀ x ∈ exchanges ((synchronize target).course (serve p) clock' t),
          x.1.method = .get) := by
  by_cases hreadable : Readable target s.definitions
  · obtain ⟨names, result, hswept, hrun⟩ := run_synchronize_readable clock hfiled htarget hreadable
    refine ⟨names, _, hrun, fun t clock' ht => ?_⟩
    have hfiled' : Filed t.definitions := ht ▸ filed_annotatingAll hfiled names
    have hreadable' : Readable target t.definitions :=
      ht ▸ readable_annotatingAll hfiled hreadable names
    obtain ⟨names', result', hswept', hrun'⟩ :=
      run_synchronize_readable clock' hfiled' htarget hreadable'
    -- The second sweep goes over what the first one left, so it has nothing to annotate.
    have hagain : Swept p (t.definitions.filter (inScope target)) [] (result.map fun _ => 0) := by
      rw [ht, annotatingAll, filter_inScope_annotating]
      exact hswept.again (List.Nodup.sublist (List.filter_sublist.map name?) hfiled.distinct) []
        fun _ _ _ h => absurd h List.not_mem_nil
    obtain ⟨rfl, rfl⟩ := hswept'.unique hagain
    have hsame : ((result.map fun _ => 0).map fun _ => ()) = result.map fun _ => () := by
      cases result <;> rfl
    refine ⟨?_, fun hok => ?_⟩
    · rw [hrun', annotatingAll_nil, hsame]
    · refine course_synchronize_idle htarget hreadable' fun v hv hscope => ?_
      cases result with
      | error e => cases hok
      | ok patched => exact hagain.annotated_of_nil v (List.mem_filter.mpr ⟨hv, hscope⟩)
  · obtain ⟨e, hrun⟩ := run_synchronize_unreadable hfiled.distinct htarget hreadable
    refine ⟨[], .error e, ?_, fun t clock' ht => ⟨?_, fun h => by cases h⟩⟩
    · rw [hrun s clock rfl, annotatingAll_nil]
    · rw [annotatingAll_nil] at ht
      exact hrun t clock' ht

/-! ## The pass -/

variable {v : Value} {config : SecretsConfig}

theorem answer_firstRequest (p : Policy) (s : ApiServer) :
    s.answer p firstRequest = (found? (s.object? p), s) :=
  rfl

/-- Unless there is an object that asks for annotations, a pass only reads. -/
theorem pass_stops (target : Target)
    (h : ∀ v config, s.object? p = some v → SecretsConfig.ofJson? v = some config →
      config.spec.injectAnnotations = false) :
    ∃ result : Except Failure Unit, ∀ (backoff : Backoff) (now : String) (clock : Nat),
      (pass backoff now target).run (serve p) clock s = ⟨.ok result, clock, s⟩ ∧
      ∀ x ∈ exchanges ((pass backoff now target).course (serve p) clock s), x.1.method = .get := by
  have hanswer : ∀ clock, serve p clock s firstRequest = (found? (s.object? p), s) :=
    fun _ => answer_firstRequest p s
  suffices hdone : ∃ result, ∀ backoff now,
      afterReading backoff now target (absent? ((found? (s.object? p)).receive
        SecretsConfig.reader)) = .done result by
    obtain ⟨result, hdone⟩ := hdone
    refine ⟨result, fun backoff now clock => ⟨?_, ?_⟩⟩
    · rw [pass_eq, Dialogue.run, hanswer]
      simp only [hdone, Dialogue.run]
    · rw [pass_eq, Dialogue.course, hanswer]
      simp only [hdone, Dialogue.course]
      intro x hx
      rw [List.mem_singleton.mp hx]
      rfl
  cases hobject : s.object? p with
  | none => exact ⟨.ok (), fun _ _ => rfl⟩
  | some v =>
      rw [found?, receive_success]
      cases hconfig : SecretsConfig.ofJson? v with
      | none =>
          have hread : SecretsConfig.reader.ofJson? v = none := hconfig
          rw [hread]
          exact ⟨_, fun _ _ => rfl⟩
      | some config =>
          have hread : SecretsConfig.reader.ofJson? v = some config := hconfig
          refine ⟨.ok (), fun backoff now => ?_⟩
          simp only [hread, absent?, afterReading, passOn, h v config hobject hconfig,
            Bool.false_eq_true, if_false]

theorem course_pass (backoff : Backoff) (now : String) (hobject : s.object? p = some v)
    (hconfig : SecretsConfig.ofJson? v = some config) :
    (pass backoff now target).course (serve p) clock s =
      .asked firstRequest (found? (some v)) ::
        (passOn backoff now target config).course (serve p) clock s := by
  have hanswer : serve p clock s firstRequest = (found? (some v), s) := by
    rw [← hobject]
    exact answer_firstRequest p s
  rw [pass_eq, Dialogue.course, hanswer]
  simp only [receive_config hconfig, absent?, afterReading]

variable (clock) in
/-- A pass brings in line, and then records how that went. -/
theorem run_pass_enabled {backoff : Backoff} {now : String} {outcome : Except Failure Unit}
    {status : Except Failure Bool} {s' s'' : ApiServer} (hobject : s.object? p = some v)
    (hconfig : SecretsConfig.ofJson? v = some config)
    (hinject : config.spec.injectAnnotations = true)
    (hsync : (synchronize target).run (serve p) clock s = ⟨.ok outcome, clock, s'⟩)
    (hrecord : (record backoff now config conditionType outcome upToDate).run (serve p) clock s' =
      ⟨.ok status, clock, s''⟩) :
    (pass backoff now target).run (serve p) clock s =
        ⟨.ok (Failure.combine outcome (status.map fun _ => ())), clock, s''⟩ ∧
      exchanges ((pass backoff now target).course (serve p) clock s) =
        (firstRequest, found? (some v)) ::
          (exchanges ((synchronize target).course (serve p) clock s) ++
            exchanges ((record backoff now config conditionType outcome upToDate).course
              (serve p) clock s')) := by
  constructor
  · rw [run_pass backoff now hobject hconfig, passOn, if_pos hinject, run_bind, hsync]
    simp only [conclude, run_bind, hrecord, Dialogue.run]
  · rw [course_pass backoff now hobject hconfig, passOn, if_pos hinject, course_bind hsync,
      conclude, course_bind_done, exchanges, exchanges_append]

theorem not_writesStatus_of_get {request : Request} (h : request.method = .get) :
    ¬ WritesStatus request := by
  rintro ⟨hpatch, _⟩
  rw [h] at hpatch
  cases hpatch

theorem not_writesStatus_synchronize (target : Target) (t : ApiServer) (clock : Nat) :
    ∀ x ∈ exchanges ((synchronize target).course (serve p) clock t), ¬ WritesStatus x.1 := by
  rintro x hx ⟨_, hpath⟩
  obtain ⟨_, _, hsynchronizes⟩ :=
    gives_synchronize target (ends_run (serve p) (synchronize target) clock t)
  exact not_prefix_of_prefix
    ((annotationPhase_of_synchronizes hsynchronizes).under_path x hx) hpath

/-- **A pass leaves nothing to do.** On a server whose definitions have valid names of their own and
where nobody else writes, any pass ends. Unless it failed to record its outcome, the same pass at
any later time, with any retries, ends in the same way, leaves the server as it is and does not
write the status; and if it was a success, it only reads. -/
theorem second_pass_is_quiet (p : Policy) (s : ApiServer) (backoff : Backoff) (now : String)
    (target : Target) (clock : Nat) (hfiled : Filed s.definitions)
    (htarget : target.concernsAll = true ∨ IsObjectName target.name) :
    ∃ result after,
      (pass backoff now target).run (serve p) clock s = ⟨.ok result, clock, after⟩ ∧
      ((∀ failure, result = .error failure → failure.ofRecording = false) →
        ∀ (backoff' : Backoff) (now' : String) (clock' : Nat),
          (pass backoff' now' target).run (serve p) clock' after = ⟨.ok result, clock', after⟩ ∧
          (∀ x ∈ exchanges ((pass backoff' now' target).course (serve p) clock' after),
            ¬ WritesStatus x.1) ∧
          (result = .ok () →
            ∀ x ∈ exchanges ((pass backoff' now' target).course (serve p) clock' after),
              x.1.method = .get)) := by
  by_cases henabled : ∃ v config, s.object? p = some v ∧ SecretsConfig.ofJson? v = some config ∧
      config.spec.injectAnnotations = true
  · obtain ⟨v, config, hobject, hconfig, hinject⟩ := henabled
    obtain ⟨names, outcome, hsync, hagain⟩ := run_synchronize_again (p := p) clock hfiled htarget
    have hobject₁ : (annotatingAll names s).object? p = some v := hobject
    obtain ⟨status, after, hsettles, hrecord⟩ := run_record_settles clock hobject₁ hconfig backoff
      now conditionType upToDate outcome
    refine ⟨_, after, (run_pass_enabled clock hobject hconfig hinject hsync hrecord).1,
      fun hrecorded backoff' now' clock' => ?_⟩
    cases status with
    | error e =>
        -- Such a failure is one of recording, whatever went before.
        cases hsettles
        cases outcome with
        | ok _ => cases hrecorded _ rfl
        | error _ => cases hrecorded _ rfl
    | ok wrote =>
        obtain ⟨hdefinitions, v', config', hobject', hconfig', hspec, hidle⟩ :=
          hsettles.again hobject₁ hconfig
        obtain ⟨hsync', hquiet⟩ := hagain after clock' hdefinitions
        obtain ⟨hrecord', hread⟩ := record_idle (p := p) backoff' (hidle now') after
          clock'
        obtain ⟨hrun, hcourse⟩ := run_pass_enabled clock' hobject' hconfig' (hspec ▸ hinject)
          hsync' hrecord'
        rw [hcourse]
        refine ⟨hrun, fun x hx => ?_, fun hok x hx => ?_⟩
        · rcases List.mem_cons.mp hx with rfl | hx
          · exact not_writesStatus_of_get rfl
          · rcases List.mem_append.mp hx with hx | hx
            · exact not_writesStatus_synchronize target after clock' x hx
            · exact not_writesStatus_of_get (hread x hx)
        · rcases List.mem_cons.mp hx with rfl | hx
          · rfl
          · rcases List.mem_append.mp hx with hx | hx
            · refine hquiet ?_ x hx
              rwa [Except.map, Failure.combine_ok] at hok
            · exact hread x hx
  · have hstops : ∀ v config, s.object? p = some v → SecretsConfig.ofJson? v = some config →
        config.spec.injectAnnotations = false := by
      intro v config hobject hconfig
      by_contra hinject
      exact henabled ⟨v, config, hobject, hconfig, by simpa using hinject⟩
    obtain ⟨result, hpass⟩ := pass_stops target hstops
    refine ⟨result, s, (hpass backoff now clock).1, fun _ backoff' now' clock' => ?_⟩
    obtain ⟨hrun, hread⟩ := hpass backoff' now' clock'
    exact ⟨hrun, fun x hx => not_writesStatus_of_get (hread x hx), fun _ => hread⟩

/-- The pass that stops at the second of three definitions annotates and reports; five minutes later
it fails again, and does not report again. -/
theorem quiet_after_forbidden_definition :
    Filed threeDefinitions.definitions ∧ ∃ failure after,
      (pass {} "2024-05-01T10:00:00Z" .all).run (serve (forbidding "b.example")) 0
        threeDefinitions = ⟨.ok (.error failure), 0, after⟩ ∧ failure.ofRecording = false ∧
      (pass {} "2024-05-01T10:05:00Z" .all).run (serve (forbidding "b.example")) 300000 after =
        ⟨.ok (.error failure), 300000, after⟩ ∧
      ∀ x ∈ exchanges ((pass {} "2024-05-01T10:05:00Z" .all).course
        (serve (forbidding "b.example")) 300000 after), ¬ WritesStatus x.1 := by
  have hfiled : Filed threeDefinitions.definitions := by
    refine ⟨fun v hv => ?_, by decide⟩
    simp only [threeDefinitions, List.map_cons, List.map_nil, List.mem_cons, List.not_mem_nil,
      or_false] at hv
    rcases hv with rfl | rfl | rfl <;> exact ⟨_, rfl, by decide⟩
  obtain ⟨result, after, hrun, hquiet⟩ :=
    second_pass_is_quiet (forbidding "b.example") threeDefinitions {} "2024-05-01T10:00:00Z" .all 0
      hfiled (Or.inl rfl)
  have hresult : ((pass {} "2024-05-01T10:00:00Z" .all).run (serve (forbidding "b.example")) 0
      threeDefinitions).result.toOption.map failedBeforeRecording = some true := by decide +kernel
  rw [hrun] at hresult
  obtain ⟨failure, rfl, hrecorded⟩ := failedBeforeRecording_iff.mp (Option.some.inj hresult)
  obtain ⟨hrun', hwrites, _⟩ := hquiet
    (fun failure' h => by cases h; exact hrecorded) {} "2024-05-01T10:05:00Z" 300000
  exact ⟨hfiled, failure, after, hrun, hrecorded, hrun', hwrites⟩

end SecretsWarden.Reconcile
