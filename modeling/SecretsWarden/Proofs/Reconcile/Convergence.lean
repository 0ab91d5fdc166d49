import SecretsWarden.Proofs.Injection.Serving
import SecretsWarden.Proofs.StatusRecord.Serving
import SecretsWarden.Reconcile

/-!
# One undisturbed pass converges

A pass that nobody disturbs brings the definitions it is about in line, up to the first change that
the server refuses, and the stored status then says how it went. It asks each thing once: no retry
is needed, whatever the retries may be.
-/

namespace SecretsWarden.Reconcile

open Cluster Dialogue Injection Json Resource StatusRecord ApiServer

variable {p : Policy} {s : ApiServer} {target : Target} {names : List String}

/-- The definitions that a pass is about. -/
def inScope (target : Target) (v : Value) : Bool :=
  labelled v && (target.concernsAll || name? v = some target.name)

/-! ## The definitions -/

/-- The definitions after a pass with a result, compared to those before. -/
structure Converged (p : Policy) (target : Target) (before after : List Value)
    (result : Except Failure Unit) : Prop where
  /-- After a success all definitions in scope have the annotation. -/
  complete : result = .ok () → ∀ d ∈ after, inScope target d = true → annotated d = true
  /-- A failure is the refusal of a definition without the annotation. Those in scope before it
  were let through, and now exactly these have the annotation beside those that had it. -/
  upToRefusal : ∀ failure, result = .error failure →
    ∃ earlier refused later name refusal cause,
      before.filter (inScope target) = earlier ++ refused :: later ∧
      annotated refused = false ∧ name? refused = some name ∧
      p.refusal (addressOf name) = some refusal ∧
      refusal.1.receive Definition.reader = .error cause ∧
      failure = .patchDefinition name cause ∧
      (∀ d ∈ earlier, annotated d = true ∨
        ∃ name, name? d = some name ∧ p.refusal (addressOf name) = none) ∧
      ∀ (i : Nat) (d d' : Value), before[i]? = some d → after[i]? = some d' →
        (annotated d' = true ↔ annotated d = true ∨ d ∈ earlier)
  /-- No definition comes or goes. -/
  sameLength : after.length = before.length
  /-- Definitions out of scope are as before, and of the others only the annotation is not. -/
  kept : ∀ (i : Nat) (d d' : Value), before[i]? = some d → after[i]? = some d' →
    (inScope target d = false → d' = d) ∧
      ∀ path, Value.Apart path Definition.annotationPath → d'.at? path = d.at? path

theorem inScope_annotating (names : List String) (v : Value) :
    inScope target (annotating names v) = inScope target v := by
  simp [inScope]

/-- What a sweep over the definitions in scope comes to. -/
theorem converged_of_swept {definitions : List Value} {result : Except Failure Nat}
    (hdistinct : (definitions.map name?).Nodup)
    (h : Swept p (definitions.filter (inScope target)) names result) :
    Converged p target definitions (definitions.map (annotating names))
      (result.map fun _ => ()) := by
  obtain ⟨earlier, later, hsplit, hnames, hgranted, hend⟩ := h.split
  have hscope : ∀ d ∈ earlier, d ∈ definitions ∧ inScope target d = true := fun d hd =>
    List.mem_filter.mp (hsplit ▸ List.mem_append_left later hd)
  have hmem : ∀ d ∈ definitions, (∃ name ∈ names, name? d = some name) ↔
      d ∈ earlier ∧ annotated d = false := fun d hd =>
    exists_name_mem_iff hdistinct (fun d hd => (hscope d hd).1) hnames hd
  have hannotated : ∀ d ∈ definitions,
      (annotated (annotating names d) = true ↔ annotated d = true ∨ d ∈ earlier) := by
    intro d hd
    rw [annotated_annotating, hmem d hd]
    by_cases hd' : annotated d = true
    · simp [hd']
    · simp [hd']
  have hindex : ∀ {i : Nat} {d d' : Value}, definitions[i]? = some d →
      (definitions.map (annotating names))[i]? = some d' →
      d ∈ definitions ∧ d' = annotating names d := by
    intro i d d' hd hd'
    rw [List.getElem?_map, hd] at hd'
    exact ⟨List.mem_of_getElem? hd, (Option.some.inj hd').symm⟩
  refine ⟨?_, ?_, List.length_map _, ?_⟩
  -- After a success nothing is left behind the earlier definitions: they are all in scope.
  · intro hok d' hd' hinScope
    obtain ⟨d, hd, rfl⟩ := List.mem_map.mp hd'
    rw [inScope_annotating] at hinScope
    rcases hend with ⟨patched, rfl, rfl⟩ | ⟨_, _, _, _, _, _, _, _, _, _, rfl⟩
    · rw [List.append_nil] at hsplit
      exact (hannotated d hd).mpr (Or.inr (hsplit ▸ List.mem_filter.mpr ⟨hd, hinScope⟩))
    · cases hok
  · intro failure hfailure
    rcases hend with ⟨patched, rfl, _⟩ |
      ⟨v, rest, name, refusal, e, rfl, hbare, hname, hrefused, he, rfl⟩
    · cases hfailure
    · cases hfailure
      refine ⟨earlier, v, rest, name, refusal, e, hsplit, hbare, hname, hrefused, he, rfl, hgranted,
        fun i d d' hd hd' => ?_⟩
      obtain ⟨hd, rfl⟩ := hindex hd hd'
      exact hannotated d hd
  -- A definition that was annotated is an earlier one, so it is in scope.
  · intro i d d' hd hd'
    obtain ⟨hd, rfl⟩ := hindex hd hd'
    constructor
    · intro hout
      refine annotating_of_not_mem fun name hname hmem' => ?_
      have hearlier := ((hmem d hd).mp ⟨name, hmem', hname⟩).1
      rw [(hscope d hearlier).2] at hout
      cases hout
    · exact fun path hpath => at?_annotating hpath names d

variable {clock : Nat}

/-- The definitions that a pass reads: all that have the label, or the one of the name. -/
def isRead (target : Target) (v : Value) : Bool :=
  if target.concernsAll then labelled v else name? v = some target.name

/-- Whatever a pass reads of these definitions can be read. -/
def Readable (target : Target) (definitions : List Value) : Prop :=
  ∀ v ∈ definitions, isRead target v = true → ∃ d, Definition.ofJson? v = some d

theorem Readable.exists_mapM (h : Readable target s.definitions)
    (hall : target.concernsAll = true) :
    ∃ ds, (s.definitions.filter labelled).mapM Definition.ofJson? = some ds := by
  refine exists_mapM_ofJson?_iff.mpr fun v hv => ?_
  obtain ⟨hmem, hlabelled⟩ := List.mem_filter.mp hv
  exact h v hmem (by simpa [isRead, hall] using hlabelled)

theorem Readable.exists_of_definition? (h : Readable target s.definitions)
    (hall : target.concernsAll ≠ true) {v : Value}
    (hfound : s.definition? (addressOf target.name) = some v) :
    ∃ d, Definition.ofJson? v = some d := by
  obtain ⟨hmem, hname⟩ := mem_of_definition? hfound
  exact h v hmem (by simpa [isRead, hall] using hname)

variable (clock) in
/-- Bringing the target in line is a sweep over the definitions in scope, if what it reads can be
read. -/
theorem run_synchronize_readable (hfiled : Filed s.definitions)
    (htarget : target.concernsAll = true ∨ IsObjectName target.name)
    (hreadable : Readable target s.definitions) :
    ∃ names result, Swept p (s.definitions.filter (inScope target)) names result ∧
      (synchronize target).run (serve p) clock s =
        ⟨.ok (result.map fun _ => ()), clock, annotatingAll names s⟩ := by
  unfold synchronize
  by_cases hall : target.concernsAll = true
  · have hscope : inScope target = labelled := by
      funext v
      simp [inScope, hall]
    obtain ⟨ds, hds⟩ := hreadable.exists_mapM hall
    obtain ⟨names, result, hswept, hrun⟩ := run_annotateAll clock hfiled hds
    rw [hscope, if_pos hall, run_bind, hrun]
    exact ⟨names, result, hswept, rfl⟩
  · have hscope : s.definitions.filter (inScope target) =
        (s.definitions.filter fun v => name? v = some target.name).filter labelled := by
      rw [List.filter_filter]
      congr 1
      funext v
      simp [inScope, hall]
    obtain ⟨names, result, hswept, hrun⟩ := run_annotateNamed clock hfiled
      (htarget.resolve_left hall) fun v hv => hreadable.exists_of_definition? hall hv
    rw [hscope, if_neg hall]
    exact ⟨names, result, hswept, hrun⟩

variable (clock) in
/-- Bringing the target in line is a sweep over the definitions in scope. -/
theorem run_synchronize (hstocked : Stocked s.definitions)
    (htarget : target.concernsAll = true ∨ IsObjectName target.name) :
    ∃ names result, Swept p (s.definitions.filter (inScope target)) names result ∧
      (synchronize target).run (serve p) clock s =
        ⟨.ok (result.map fun _ => ()), clock, annotatingAll names s⟩ := by
  refine run_synchronize_readable clock hstocked.filed htarget fun v hv _ => ?_
  obtain ⟨d, _, hd, _⟩ := hstocked.valid v hv
  exact ⟨d, hd⟩

/-! ## The pass -/

variable {v : Value} {config : SecretsConfig}

/-- The configuration object that a pass reads. -/
theorem run_pass (backoff : Backoff) (now : String) (hobject : s.object? p = some v)
    (hconfig : SecretsConfig.ofJson? v = some config) :
    (pass backoff now target).run (serve p) clock s =
      (passOn backoff now target config).run (serve p) clock s := by
  have hread : Request.read SecretsConfig.path SecretsConfig.singleton =
      .ok ⟨.get, configAddress, none, none⟩ := rfl
  rw [pass, getOptional, Cluster.get, hread, sendBuilt, send]
  simp only [Dialogue.bind, run_serve, answer_read_config hobject, receive_config hconfig, absent?]

/-- The stored status after a pass with a result. -/
structure Reported (now : String) (before : SecretsConfig) (result : Except Failure Unit)
    (after : SecretsConfig) : Prop where
  /-- The condition that counts is equivalent to the one that describes the result. -/
  equivalent : ∃ c, after.condition? conditionType = some c ∧
    c.equivalent (outcomeCondition now before conditionType result upToDate) = true
  merged : after.conditions =
    (outcomeCondition now before conditionType result upToDate).merge before.conditions

/-- **An undisturbed pass converges.** On the sentinel or on any name, with any retries, it ends;
the definitions in scope have the annotation, up to the first that lacks it and may not be changed;
the stored condition describes the result, whether it had to be written or not. -/
theorem undisturbed_pass_converges (p : Policy) (s : ApiServer) (backoff : Backoff) (now : String)
    (target : Target) (clock : Nat) (hobject : s.object? p = some v)
    (hconfig : SecretsConfig.ofJson? v = some config)
    (hname : name? v = some SecretsConfig.singleton)
    (hinject : config.spec.injectAnnotations = true) (hstocked : Stocked s.definitions)
    (htarget : target.concernsAll = true ∨ IsObjectName target.name) :
    ∃ result after v' config',
      (pass backoff now target).run (serve p) clock s = ⟨.ok result, clock, after⟩ ∧
      Converged p target s.definitions after.definitions result ∧
      after.object? p = some v' ∧ SecretsConfig.ofJson? v' = some config' ∧
      Reported now config result config' ∧
      ∀ path, Value.Apart path ["metadata", "resourceVersion"] →
        Value.Apart path ["status", "conditions"] → v'.at? path = v.at? path := by
  obtain ⟨names, swept, hswept, hsynchronize⟩ := run_synchronize clock hstocked htarget
  have hobject' : (annotatingAll names s).object? p = some v := hobject
  obtain ⟨wrote, hrecord⟩ := run_record clock hobject' hconfig
    (SecretsConfig.name_eq hconfig hname) backoff now conditionType upToDate
    (swept.map fun _ => ())
  obtain ⟨v', config', hafter, hconfig', hmerged, hkept⟩ := exists_recorded hobject' hconfig
    (outcomeCondition now config conditionType (swept.map fun _ => ()) upToDate)
  refine ⟨swept.map fun _ => (), _, v', config', ?_, ?_, hafter, hconfig', ⟨?_, hmerged⟩, hkept⟩
  · rw [run_pass backoff now hobject hconfig, passOn, if_pos hinject, run_bind, hsynchronize]
    simp only [conclude, run_bind, hrecord]
    cases swept <;> rfl
  · rw [definitions_recorded]
    exact converged_of_swept hstocked.distinct hswept
  · rw [SecretsConfig.condition?, hmerged]
    exact Condition.find?_merge
      (outcomeCondition now config conditionType (swept.map fun _ => ()) upToDate) config.conditions

/-- A managed definition without the annotation. -/
def bareDefinition (name : String) : Value :=
  .object [("metadata", .object [("name", .string name),
    ("labels", .object [(Definition.managedLabel.1, .string Definition.managedLabel.2)])])]

/-- Forbids the change of one definition. -/
def forbidding (name : String) : Policy := .counting fun address =>
  if address = addressOf name then some ⟨refused 403 "Forbidden", rfl⟩ else none

/-- Of three definitions the second may not be changed. -/
def threeDefinitions : ApiServer where
  config := some (.object [("metadata", .object [("name", .string "cluster")]),
    ("spec", .object [("injectAnnotations", .bool true)])])
  definitions := ["a.example", "b.example", "c.example"].map bareDefinition

/-- The pass annotates the first of three definitions, fails at the second and reports it. -/
theorem pass_stops_at_forbidden_definition :
    ∃ failure after v' config' c,
      (pass {} "2024-05-01T10:00:00Z" .all).run (serve (forbidding "b.example")) 0
        threeDefinitions = ⟨.ok (.error failure), 0, after⟩ ∧
      after.definitions.map (fun d => (inScope .all d, annotated d)) =
        [(true, true), (true, false), (true, false)] ∧
      after.object? (forbidding "b.example") = some v' ∧
      SecretsConfig.ofJson? v' = some config' ∧ config'.condition? conditionType = some c ∧
      c.status = "False" ∧ c.message = some failure.message := by
  have hstocked : Stocked threeDefinitions.definitions := by
    refine ⟨fun v hv => ?_, by decide⟩
    simp only [threeDefinitions, List.map_cons, List.map_nil, List.mem_cons, List.not_mem_nil,
      or_false] at hv
    rcases hv with rfl | rfl | rfl <;> exact ⟨_, _, rfl, rfl, by decide⟩
  obtain ⟨result, after, v', config', hrun, hconverged, hafter, hconfig', hreported, _⟩ :=
    undisturbed_pass_converges (forbidding "b.example") threeDefinitions {} "2024-05-01T10:00:00Z"
      .all 0 rfl rfl rfl rfl hstocked (Or.inl rfl)
  have hdefinitions : ((pass {} "2024-05-01T10:00:00Z" .all).run (serve (forbidding "b.example")) 0
      threeDefinitions).state.definitions.map (fun d => (inScope .all d, annotated d)) =
        [(true, true), (true, false), (true, false)] := by decide +kernel
  rw [hrun] at hdefinitions
  cases result with
  | ok _ =>
      have hmem : (true, false) ∈ after.definitions.map fun d => (inScope .all d, annotated d) := by
        rw [hdefinitions]
        decide
      obtain ⟨d, hd, heq⟩ := List.mem_map.mp hmem
      obtain ⟨hinScope, hbare⟩ := Prod.mk.inj heq
      rw [hconverged.complete rfl d hd hinScope] at hbare
      cases hbare
  | error failure =>
      obtain ⟨c, hc, hequivalent⟩ := hreported.equivalent
      obtain ⟨_, hstatus, _, hmessage, _⟩ := Condition.equivalent_iff.mp hequivalent
      exact ⟨failure, after, v', config', c, hrun, hdefinitions, hafter, hconfig', hc, hstatus,
        hmessage⟩

end SecretsWarden.Reconcile
