import SecretsWarden.Proofs.Reconcile.Course
import SecretsWarden.Proofs.Resource.Definition

/-!
# The phases of a pass

The requests of a pass come in three phases, whatever is answered: the configuration object is
read; definitions are read and patched; the outcome is recorded. Each phase says which requests
may come in it, in which order, and what they may change.
-/

namespace SecretsWarden.Reconcile

open Cluster Dialogue Injection Json Resource StatusRecord

/-- Requests, each with its answer. -/
abbrev Trace := List (Request × Reply)

/-! ## What a phase may look like -/

/-- A request that writes the status of the configuration object. -/
def WritesStatus (request : Request) : Prop :=
  request.method = .patch ∧ SecretsConfig.path.toList <+: request.path.toList

/-- The request gives an object the annotation and leaves everything else in it as it is. -/
def SetsAnnotation (request : Request) : Prop :=
  ∃ body, request.body = some body ∧ ∀ v : Value,
    (v.mergePatch body).at? Definition.annotationPath = some (.string Definition.injection.2) ∧
      ∀ path, Value.Apart path Definition.annotationPath →
        (v.mergePatch body).at? path = v.at? path

/-- Some first candidates are patched in their order, and only the last patch may fail. -/
structure PatchesInOrder (candidates : List Definition) (trace : Trace) : Prop where
  requests : ∃ patched, patched <+: candidates ∧
    trace.map (fun x => Except.ok x.1) = patched.map patching
  sets : ∀ x ∈ trace, SetsAnnotation x.1
  succeeded : ∀ x ∈ trace.dropLast, ∃ d, x.2.receive Definition.reader = .ok d

/-- The definitions in the answer to a list, none if it failed. -/
def listed (reply : Reply) : List Definition :=
  match reply.receive (listReader Definition.reader) with
  | .ok definitions => definitions
  | .error _ => []

/-- The definition in an answer, if it is managed. -/
def found (reply : Reply) : List Definition :=
  match reply.receive Definition.reader with
  | .ok d => if d.isManaged then [d] else []
  | .error _ => []

/-- The second phase: definitions are read at once, and those without the annotation patched. -/
inductive AnnotationPhase (target : Target) : Trace → Prop where
  | all {reply : Reply} {patches : Trace} (hall : target.concernsAll = true)
      (h : PatchesInOrder ((listed reply).filter (!·.isAnnotated)) patches) :
      AnnotationPhase target ((.list Definition.path Definition.selectorQuery, reply) :: patches)
  | named {request : Request} {reply : Reply} {patches : Trace}
      (hall : target.concernsAll = false)
      (hrequest : Request.read Definition.path target.name = .ok request)
      (h : PatchesInOrder ((found reply).filter (!·.isAnnotated)) patches) :
      AnnotationPhase target ((request, reply) :: patches)
  | unbuilt {e : Error} (hall : target.concernsAll = false)
      (hrequest : Request.read Definition.path target.name = .error e) :
      AnnotationPhase target []

/-- One cycle of the third phase: a reading, and maybe a write over what was read. -/
inductive RecordingCycle (name : String) (condition : Condition) : Trace → Prop where
  | read {request : Request} {reply : Reply}
      (hread : Request.read SecretsConfig.path name = .ok request) :
      RecordingCycle name condition [(request, reply)]
  | written {request write : Request} {reply answer : Reply} {latest : SecretsConfig}
      {conditions : List Condition}
      (hread : Request.read SecretsConfig.path name = .ok request)
      (hlatest : reply.receive SecretsConfig.reader = .ok latest)
      (hmerge : condition.merge? latest.conditions = some conditions)
      (hwrite : writing name latest conditions = .ok write) :
      RecordingCycle name condition [(request, reply), (write, answer)]

/-- The last answer is a conflict. -/
def EndsInConflict (trace : Trace) : Prop :=
  ∃ earlier request reply e, trace = earlier ++ [(request, reply)] ∧
    reply.receive SecretsConfig.reader = .error e ∧ e.isConflict = true

/-- The third phase: a number of cycles, each one after a conflict in the one before it. -/
inductive RecordingPhase (name : String) (condition : Condition) : (most : Nat) → Trace → Prop where
  | nothing {most : Nat} : RecordingPhase name condition most []
  | last {most : Nat} {cycle : Trace} (h : RecordingCycle name condition cycle) :
      RecordingPhase name condition (most + 1) cycle
  | again {most : Nat} {cycle rest : Trace} (h : RecordingCycle name condition cycle)
      (hconflict : EndsInConflict cycle) (hrest : RecordingPhase name condition most rest) :
      RecordingPhase name condition (most + 1) (cycle ++ rest)

/-! ## Patches -/

variable {d : Definition} {definitions : List Definition} {c : Course Request Reply}

theorem setsAnnotation_of_patching {request : Request} (h : patching d = .ok request) :
    SetsAnnotation request :=
  ⟨Injection.patchBody, body_of_named h, fun v =>
    ⟨Definition.at?_patched v, fun _ hpath => Definition.at?_patched_of_apart hpath v⟩⟩

theorem patchesInOrder_nil (candidates : List Definition) : PatchesInOrder candidates [] where
  requests := ⟨[], List.nil_prefix, rfl⟩
  sets := fun x hx => by cases hx
  succeeded := fun x hx => by cases hx

theorem PatchesInOrder.exists_patching {candidates : List Definition} {trace : Trace}
    (h : PatchesInOrder candidates trace) : ∀ x ∈ trace, ∃ d, patching d = .ok x.1 := by
  intro x hx
  obtain ⟨patched, _, hrequests⟩ := h.requests
  have hmem : (Except.ok x.1 : Except Error Request) ∈ patched.map patching :=
    hrequests ▸ List.mem_map.mpr ⟨x, hx, rfl⟩
  obtain ⟨d, _, hd⟩ := List.mem_map.mp hmem
  exact ⟨d, hd⟩

/-- One more candidate before the others was patched with success. -/
theorem PatchesInOrder.cons {candidates : List Definition} {request : Request} {reply : Reply}
    {trace : Trace} {d' : Definition} (hrequest : patching d = .ok request)
    (hreply : reply.receive Definition.reader = .ok d') (h : PatchesInOrder candidates trace) :
    PatchesInOrder (d :: candidates) ((request, reply) :: trace) := by
  obtain ⟨patched, hprefix, hrequests⟩ := h.requests
  refine ⟨⟨d :: patched, List.cons_prefix_cons.mpr ⟨rfl, hprefix⟩, ?_⟩, ?_, ?_⟩
  · rw [List.map_cons, List.map_cons, hrequests, hrequest]
  · intro x hx
    rcases List.mem_cons.mp hx with rfl | hx
    · exact setsAnnotation_of_patching hrequest
    · exact h.sets x hx
  · intro x hx
    cases trace with
    | nil => cases hx
    | cons y rest =>
        rw [List.dropLast_cons_cons] at hx
        rcases List.mem_cons.mp hx with rfl | hx
        · exact ⟨d', hreply⟩
        · exact h.succeeded x hx

/-- The first candidate was patched, and nothing more. -/
theorem patchesInOrder_singleton {candidates : List Definition} {request : Request} {reply : Reply}
    (hrequest : patching d = .ok request) :
    PatchesInOrder (d :: candidates) [(request, reply)] where
  requests := ⟨[d], List.cons_prefix_cons.mpr ⟨rfl, List.nil_prefix⟩, by simp [hrequest]⟩
  sets := fun x hx => List.mem_singleton.mp hx ▸ setsAnnotation_of_patching hrequest
  succeeded := fun x hx => by cases hx

/-- The first of some definitions is patched, or passed over. -/
theorem patchesInOrder_of_annotates {result : Except Failure Bool} (h : Annotates d c result)
    (rest : List Definition) :
    PatchesInOrder ((d :: rest).filter (!·.isAnnotated)) (exchanges c) := by
  cases h with
  | already hannotated => exact patchesInOrder_nil _
  | sent hannotated hsent =>
      rw [List.filter_cons_of_pos (by simp [hannotated])]
      cases hsent with
      | unbuilt hbuilt => exact patchesInOrder_nil _
      | sent hbuilt reply => exact patchesInOrder_singleton hbuilt

/-- A sweep patches in order. -/
theorem patchesInOrder_of_sweeps {result : Except Failure Nat} (h : Sweeps definitions c result) :
    PatchesInOrder (definitions.filter (!·.isAnnotated)) (exchanges c) := by
  induction h with
  | done => exact patchesInOrder_nil _
  | failed h => exact patchesInOrder_of_annotates h _
  | @went d rest c₁ c₂ patched result h hrest ih =>
      rcases h.of_ok with ⟨hannotated, rfl, rfl⟩ | ⟨hbare, rfl, d', hsent⟩
      · rw [List.filter_cons_of_neg (by simp [hannotated])]
        exact ih
      · rw [List.filter_cons_of_pos (by simp [hbare])]
        obtain ⟨request, reply, hbuilt, rfl, hreply⟩ := hsent.of_ok
        exact ih.cons hbuilt hreply

/-- Whatever is read of the named definition, at most that one is patched. -/
theorem annotationPhase_of_named {target : Target} {result : Except Failure Unit}
    (hall : target.concernsAll = false) (h : AnnotatesNamed target.name c result) :
    AnnotationPhase target (exchanges c) := by
  have hread : ∀ {c read}, Exchanged Definition.reader
      (Request.read Definition.path target.name) c read → AnnotationPhase target (exchanges c) := by
    intro c read h
    cases h with
    | unbuilt hbuilt => exact .unbuilt hall hbuilt
    | sent hbuilt reply => exact .named hall hbuilt (patchesInOrder_nil _)
  cases h with
  | unread h => exact hread h
  | absent h => exact hread h
  | unmanaged h => exact hread h
  | managed h hmanaged hannotates =>
      obtain ⟨request, reply, hrequest, rfl, hreply⟩ := h.of_ok
      refine .named hall hrequest ?_
      rw [found, hreply]
      simp only [hmanaged, if_true]
      exact patchesInOrder_of_annotates hannotates []

theorem annotationPhase_of_synchronizes {target : Target} {outcome : Except Failure Unit}
    (h : Synchronizes target c outcome) : AnnotationPhase target (exchanges c) := by
  cases h with
  | named hall h => exact annotationPhase_of_named hall h
  | all hall h =>
      cases h with
      | unlisted h => exact .all hall (patchesInOrder_nil _)
      | listed h hsweeps =>
          refine .all hall ?_
          rw [listed, h]
          exact patchesInOrder_of_sweeps hsweeps

/-- The second phase keeps to the definitions. -/
theorem AnnotationPhase.under_path {target : Target} {trace : Trace}
    (h : AnnotationPhase target trace) :
    ∀ x ∈ trace, Definition.path.toList <+: x.1.path.toList := by
  have hpath : IsPathText Definition.path := by decide
  have hpatches : ∀ {candidates patches}, PatchesInOrder candidates patches →
      ∀ x ∈ patches, Definition.path.toList <+: x.1.path.toList := by
    intro candidates patches h x hx
    obtain ⟨d, hd⟩ := h.exists_patching x hx
    exact prefix_of_named hd hpath
  intro x hx
  cases h with
  | unbuilt => cases hx
  | all _ h =>
      rcases List.mem_cons.mp hx with rfl | hx
      · exact List.prefix_rfl
      · exact hpatches h x hx
  | named _ hrequest h =>
      rcases List.mem_cons.mp hx with rfl | hx
      · exact prefix_of_named hrequest hpath
      · exact hpatches h x hx

/-! ## Cycles -/

variable {name : String} {condition : Condition}

/-- A try at recording is one cycle, or nothing if its reading cannot be built. -/
theorem recordingCycle_of_cycle {result : Except Failure Bool} (h : Cycle name condition c result) :
    exchanges c = [] ∨ RecordingCycle name condition (exchanges c) := by
  have hread : ∀ {c read}, Exchanged SecretsConfig.reader
      (Request.read SecretsConfig.path name) c read →
      exchanges c = [] ∨ RecordingCycle name condition (exchanges c) := by
    intro c read h
    cases h with
    | unbuilt hbuilt => exact Or.inl rfl
    | sent hbuilt reply => exact Or.inr (.read hbuilt)
  cases h with
  | unread h => exact hread h
  | settled h hmerge => exact hread h
  | written h hmerge hwrite =>
      cases hwrite with
      | unbuilt hbuilt =>
          rw [List.append_nil]
          exact hread h
      | sent hwriting answer =>
          obtain ⟨request, reply, hbuilt, rfl, hlatest⟩ := h.of_ok
          exact Or.inr (.written hbuilt hlatest hmerge hwriting)

/-- A conflict was answered to the last request of a try. -/
theorem endsInConflict_of_cycle {result : Except Failure Bool} {failure : Failure}
    (h : Cycle name condition c result) (hresult : result = .error failure)
    (hconflict : failure.isConflict = true) :
    EndsInConflict (exchanges c) := by
  have hanswered : ∀ {c method rest body e}, Exchanged SecretsConfig.reader
      (Request.named method SecretsConfig.path name rest body) c (.error e) →
      e.isConflict = true → EndsInConflict (exchanges c) := by
    intro c method rest body e h he
    rcases h.of_error with hbuilt | ⟨request, reply, hbuilt, rfl, hreply⟩
    · rw [isConflict_of_named hbuilt] at he
      cases he
    · exact ⟨[], request, reply, e, rfl, hreply, he⟩
  cases h with
  | settled h hmerge => cases hresult
  | @unread _ e h =>
      split at hresult
      · cases hresult
      · cases hresult
        exact hanswered h hconflict
  | @written c₁ c₂ _ _ result h hmerge hwrite =>
      cases result with
      | ok after => cases hresult
      | error e =>
          cases hresult
          obtain ⟨earlier, request, reply, e, hlast, he⟩ := hanswered hwrite hconflict
          refine ⟨exchanges c₁ ++ earlier, request, reply, e, ?_, he⟩
          rw [exchanges_append, hlast, List.append_assoc]

theorem recordingPhase_of_tries {b : Backoff} {further : Nat} {attempt : UInt32}
    {out : Except Duration.Fault (Except Failure Bool)}
    (h : b.Tries (Cycle name condition) further attempt c out) :
    RecordingPhase name condition (further + 1) (exchanges c) := by
  have htry : ∀ {c : Course Request Reply} {result} {most : Nat}, Cycle name condition c result →
      RecordingPhase name condition (most + 1) (exchanges c) := by
    intro c result most h
    rcases recordingCycle_of_cycle h with hnothing | hcycle
    · rw [hnothing]
      exact .nothing
    · exact .last hcycle
  induction h with
  | last h hlast => exact htry h
  | stuck h hconflict hdelay => exact htry h
  | again h hconflict hdelay hrest ih =>
      -- A try in which nothing was asked cannot have met a conflict.
      have hended := endsInConflict_of_cycle h rfl hconflict
      rw [exchanges_append]
      rcases recordingCycle_of_cycle h with hnothing | hcycle
      · obtain ⟨_, _, _, _, hlast, _⟩ := hended
        rw [hnothing] at hlast
        exact absurd hlast.symm (List.append_ne_nil_of_right_ne_nil _ (List.cons_ne_nil _ _))
      · exact .again hcycle hended ih

theorem recordingPhase_of_ends_record {b : Backoff} {now type message : String}
    {config : SecretsConfig} {outcome : Except Failure Unit}
    {out : Except Duration.Fault (Except Failure Bool)}
    (h : Ends (record b now config type outcome message) c out) :
    RecordingPhase config.name (outcomeCondition now config type outcome message)
      (max 1 b.attempts.toNat) (exchanges c) := by
  unfold record at h
  simp only at h
  split at h
  · obtain ⟨rfl, _⟩ := ends_done.mp h
    exact .nothing
  · have hphase := recordingPhase_of_tries (Backoff.tries_of_ends_retryFrom gives_update h)
    rwa [show b.attempts.toNat - 1 + 1 = max 1 b.attempts.toNat by omega] at hphase

/-! ## The pass -/

/-- The request that every pass begins with. -/
def firstRequest : Request :=
  ⟨.get, "/apis/operator.openshift.io/v1alpha1/externalsecretsconfigs/cluster", none, none⟩

/-- What a pass does about its reading of the configuration object. -/
def afterReading (backoff : Backoff) (now : String) (target : Target) :
    Except Error (Option SecretsConfig) → Session (Except Failure Unit)
  | .error e => .done (.error (.readConfig SecretsConfig.singleton e))
  | .ok none => .done (.ok ())
  | .ok (some config) => passOn backoff now target config

theorem pass_eq (backoff : Backoff) (now : String) (target : Target) :
    pass backoff now target = .ask firstRequest fun reply =>
      afterReading backoff now target (absent? (reply.receive SecretsConfig.reader)) := by
  have hread : Request.read SecretsConfig.path SecretsConfig.singleton = .ok firstRequest := rfl
  rw [pass, getOptional, Cluster.get, hread]
  rfl

/-- **A pass comes in three phases.** It first reads the configuration object, and asks nothing
more unless that asks for annotations. Then it reads what it works on and patches, in order, what
lacks the annotation, up to the first failure. Last it records the outcome, in cycles of one
reading and at most one write over what was read; only a conflict is followed by a further one. -/
theorem phases_of_pass {σ : Type} (answer : Answerer σ Request Reply) (clock : Nat) (state : σ)
    (backoff : Backoff) (now : String) (target : Target) :
    ∃ reply second third,
      exchanges ((pass backoff now target).course answer clock state) =
        (firstRequest, reply) :: (second ++ third) ∧
      (((∀ config, reply.receive SecretsConfig.reader = .ok config →
            config.spec.injectAnnotations = false) ∧ second = [] ∧ third = []) ∨
        ∃ config outcome, reply.receive SecretsConfig.reader = .ok config ∧
          config.spec.injectAnnotations = true ∧ AnnotationPhase target second ∧
          RecordingPhase config.name
            (outcomeCondition now config conditionType outcome upToDate)
            (max 1 backoff.attempts.toNat) third) := by
  have hfirst : Request.read SecretsConfig.path SecretsConfig.singleton = .ok firstRequest := rfl
  have hpasses := passes_of_ends (ends_run answer (pass backoff now target) clock state)
  generalize (pass backoff now target).course answer clock state = c at hpasses
  generalize ((pass backoff now target).run answer clock state).result = out at hpasses
  cases hpasses with
  | unread h hread =>
      obtain ⟨reply, rfl, rfl⟩ := h.of_built hfirst
      refine ⟨reply, [], [], rfl, Or.inl ⟨fun config hconfig => ?_, rfl, rfl⟩⟩
      rw [hconfig] at hread
      cases hread
  | absent h hread =>
      obtain ⟨reply, rfl, rfl⟩ := h.of_built hfirst
      refine ⟨reply, [], [], rfl, Or.inl ⟨fun config hconfig => ?_, rfl, rfl⟩⟩
      rw [hconfig] at hread
      cases hread
  | disabled h hinject =>
      obtain ⟨reply, rfl, hreply⟩ := h.of_built hfirst
      refine ⟨reply, [], [], rfl, Or.inl ⟨fun config hconfig => ?_, rfl, rfl⟩⟩
      rw [← hreply] at hconfig
      cases hconfig
      exact hinject
  | @enabled _ c₂ c₃ config outcome _ h hinject hsynchronizes hrecord =>
      obtain ⟨reply, rfl, hreply⟩ := h.of_built hfirst
      refine ⟨reply, exchanges c₂, exchanges c₃, ?_, Or.inr ⟨config, outcome, hreply.symm, hinject,
        annotationPhase_of_synchronizes hsynchronizes, recordingPhase_of_ends_record hrecord⟩⟩
      rw [exchanges_append, exchanges_append]
      rfl

end SecretsWarden.Reconcile
