import SecretsWarden.Manifest
import SecretsWarden.Operator
import SecretsWarden.Proofs.Cluster.Polling
import SecretsWarden.Proofs.Controller.Waiting
import SecretsWarden.Proofs.Reconcile.Generation
import SecretsWarden.Proofs.Reconcile.SideBySide

/-!
# Runs of the operator

The operator waits for the kind of its configuration object and then runs its controllers. So all
it does to the API server is what a schedule of passes does, and what is proved of passes that take
turns holds at any time of any run: what is annotated stays so as long as others leave the
annotations alone, and what is reported is never ahead of the object as long as others edit the
specification only.
-/

namespace SecretsWarden.Operator

open Cluster Controller Dialogue Json Reconcile Resource StatusRecord ApiServer

variable {σ : Type} {setup : Controller.Setup} {p : Policy} {others : Others}
  {answer : Answerer σ Request Reply} {view : σ → ApiServer} {state state' : σ}
  {looks millis : Nat}

/-- The kind that the operator waits for is the one of its manifest, and its controllers look for
the objects of this kind. -/
theorem awaitedKind_of_manifest :
    Manifest.json.at? ["spec", "group"] = some (.string awaitedKind.group) ∧
      Manifest.json.at? ["spec", "names", "kind"] = some (.string awaitedKind.kind) ∧
      SecretsConfig.path = "/apis/" ++ awaitedKind.group ++ "/" ++ awaitedKind.version ++ "/" ++
        Manifest.plural :=
  ⟨rfl, rfl, by decide⟩

/-- The operator while it waits for its kind. -/
def waiting (answer : Answerer σ Request Reply) (state : σ) : Wait σ :=
  ⟨awaitedKind, answer, 0, state⟩

/-- **The operator runs a schedule of passes.** Whoever answers and whatever others write meanwhile,
what a run of the operator makes of the server is what some schedule of the passes that its
controllers began makes of it. No pass is begun unless a look saw the kind of the configuration
object listed. -/
theorem schedules_of_run (hstands : StandsFor p others answer view)
    (hrun : run setup answer state looks millis = .ok state') :
    ∃ begun schedule, Schedules setup p others (view state) begun schedule (view state') ∧
      (begun ≠ [] → ∃ k < looks, (waiting answer state).Sees k) := by
  have hwaited := hstands.edited_of_reads (reads_awaitKindFrom awaitedKind looks firstWait) 0 state
  unfold run at hrun
  split at hrun
  · rename_i clock server hfound
    rw [awaitKind] at hfound
    rw [hfound] at hwaited
    obtain ⟨begun, schedule, hschedules⟩ := exists_schedule_of_run hstands hwaited hrun
    refine ⟨begun, schedule, hschedules, fun _ => (waiting answer state).exists_sees_of_found ?_⟩
    exact congrArg Ending.result hfound
  · rename_i result clock server _ hended
    rw [awaitKind] at hended
    rw [hended] at hwaited
    obtain rfl := Except.ok.inj hrun
    obtain ⟨edits, hedits, _⟩ := (explains_start (view state)).edit hwaited
    exact ⟨[], _, hedits.toSchedules, fun hbegun => absurd rfl hbegun⟩

/-! ## What is annotated stays so -/

/-- Others leave the annotations alone: whatever definition they leave was there under its name,
with the annotation as it was. -/
def LeavesAnnotations (s : ApiServer) (_ : Option Value) (definitions : List Value) : Prop :=
  Filed definitions ∧ ∀ w ∈ definitions, ∃ v ∈ s.definitions, name? v = name? w ∧
    v.at? Definition.annotationPath = w.at? Definition.annotationPath

theorem editsAside_of_editedBy {server : ApiServer} {passes : List Pass} {schedule : List Action}
    (h : EditedBy LeavesAnnotations p ⟨server, passes.map Pass.session⟩ schedule) :
    EditsAside p server passes schedule := by
  rintro earlier config definitions later rfl
  obtain ⟨hfiled, hkept⟩ := (editedBy_append.mp h).2.1
  exact ⟨hfiled, fun w hw => .inl (hkept w hw)⟩

/-- **Annotations last.** As long as others leave the annotations alone, a definition that is
annotated when the operator starts is annotated at any time of its run. -/
theorem annotated_of_run (hstands : StandsFor p LeavesAnnotations answer view)
    (hfiled : Filed (view state).definitions)
    (hrun : run setup answer state looks millis = .ok state') {v : Value}
    (hv : v ∈ (view state).definitions) (hannotated : annotated v = true) :
    ∀ w ∈ (view state').definitions, name? v = name? w → annotated w = true := by
  obtain ⟨begun, schedule, hschedules, _⟩ := schedules_of_run hstands hrun
  rw [← hschedules.server_eq]
  have haside : EditsAside p (view state) (begun.map (Begun.pass setup)) ([] ++ schedule) :=
    editsAside_of_editedBy hschedules.edited
  exact annotated_stays hfiled haside hv hannotated

/-! ## What is reported is never ahead -/

theorem orderly_of_editedBy {α : Type} {S : System α} {schedule : List Action}
    (h : EditedBy (fun s config _ => EditsSpec p s config) p S schedule) :
    Orderly p S schedule := by
  induction schedule generalizing S with
  | nil => trivial
  | cons action rest ih =>
      cases action with
      | turn i passage => exact ih h
      | edit config definitions => exact ⟨h.1, ih h.2⟩

/-- **Reports are never ahead.** As long as others edit the specification only, the generation of
the configuration object does not fall in a run of the operator, and what is reported is at no time
of it ahead of the object. -/
theorem reported_of_run (hstands : StandsFor p (fun s config _ => EditsSpec p s config) answer view)
    {start : SecretsConfig} (hstart : (view state).config? p = some start)
    (hreported : reported start ≤ generation start)
    (hrun : run setup answer state looks millis = .ok state') :
    ∃ after, (view state').config? p = some after ∧ generation start ≤ generation after ∧
      reported after ≤ generation after := by
  obtain ⟨begun, schedule, hschedules, _⟩ := schedules_of_run hstands hrun
  have horderly : OrderlyPasses p (view state) (begun.map (Begun.pass setup)) ([] ++ schedule) :=
    orderly_of_editedBy hschedules.edited
  obtain ⟨after, hafter, hle⟩ := generation_mono [] horderly hstart
  have hbound := reported_le_generation hstart hreported horderly hafter
  rw [← hschedules.server_eq]
  exact ⟨after, hafter, hle, hbound⟩

/-! ## A pass that fails -/

/-- **The settings bound the wait after a failure.** At any time of a run, a pass goes on until it
is over or pauses, and if it fails then, its object waits for another pass, no longer than the delay
in the settings. -/
theorem retried_within_failureDelay {settings : Settings} {timestamp : Nat → String}
    {spread : Role → Nat → Nat} {s s' : State σ} {job : Job} {server : σ}
    {clock deadline turns : Nat} {d : Session (Except Failure Unit)}
    (hrun : State.run (controllers settings timestamp spread) answer deadline turns
      (.start (controllers settings timestamp spread) server clock) = .ok s)
    (hproceed : proceed (controllers settings timestamp spread) answer job s d = .ok s') :
    ∃ c left, Leads d c left ∧
      GivesWay job s.clock (s.clock + settings.failureDelay.millisCeil) s' left :=
  (proceed_gives_way (kept_run (kept_start _ server clock) hrun) hproceed).2

/-! ## A small cluster -/

/-- What is answered with such a member. -/
def memberReply (name : String) (items : List Value) : Reply :=
  .answered 200 (.json (.object [("metadata", .object [("resourceVersion", .string "1")]),
    (name, .array items)]))

/-- What a small cluster tells of its kinds and tells its watchers: the kind of the configuration
object is served, there are these objects of a role, and nothing happens to them. -/
def tellings : List (Request × Reply) :=
  [(⟨.get, "/apis", none, none⟩, memberReply "groups" [.object [
      ("name", .string SecretsConfig.group), ("versions", .array [.object [
        ("groupVersion", .string (SecretsConfig.group ++ "/" ++ SecretsConfig.version)),
        ("version", .string SecretsConfig.version)]])]]),
    (⟨.get, "/apis/" ++ SecretsConfig.group ++ "/" ++ SecretsConfig.version, none, none⟩,
      memberReply "resources" [.object [
        ("name", .string "configs"), ("kind", .string SecretsConfig.kind)]]),
    (Role.definitions.source.pageRequest "", memberReply "items" [bareDefinition "b.example"]),
    (Role.definitions.source.watchRequest "1", .stream []),
    (Role.configs.source.pageRequest "", memberReply "items" mixedDefinitions.config.toList),
    (Role.configs.source.watchRequest "1", .stream [])]

def told (_ : Nat) (request : Request) : Option Reply :=
  (tellings.find? fun t => t.1.path = request.path ∧ t.1.query = request.query).map (·.2)

/-- The small cluster tells passes the truth. -/
theorem standsFor_told (p : Policy) :
    StandsFor p (fun _ _ _ => False) (ApiServer.telling p told) id := by
  refine standsFor_telling fun clock request htold hstored => ?_
  obtain ⟨reply, hreply⟩ := Option.isSome_iff_exists.mp htold
  obtain ⟨t, hfind, _⟩ := Option.map_eq_some_iff.mp hreply
  have hnone : ∀ t ∈ tellings,
      ¬ (Definition.path = t.1.path ∧ some Definition.selectorQuery = t.1.query) ∧
        ¬ (SecretsConfig.path ++ "/").toList <+: t.1.path.toList ∧
        ¬ (Definition.path ++ "/").toList <+: t.1.path.toList := by
    decide +kernel
  obtain ⟨hlist, hconfig, hdefinition⟩ := hnone t (List.mem_of_find?_eq_some hfind)
  obtain ⟨hpath, hquery⟩ : t.1.path = request.path ∧ t.1.query = request.query := by
    simpa using List.find?_some hfind
  rw [hpath] at hlist hconfig hdefinition
  rw [hquery] at hlist
  rcases path_of_asksStored hstored with rfl | hprefix | hprefix
  · exact hlist ⟨rfl, rfl⟩
  · exact hconfig hprefix
  · exact hdefinition hprefix

/-- In a tenth of a second the operator has annotated all definitions and reported it. -/
example :
    (run (controllers {} (fun _ => "2024-05-01T10:00:00Z") fun _ _ => 0)
        (ApiServer.telling (.counting fun _ => none) told) mixedDefinitions 1 100).toOption.map
      (fun s => (s.definitions.map annotated, ((s.config? (.counting fun _ => none)).bind
        (·.condition? conditionType)).map (·.status))) =
      some ([true, true, true], some "True") := by
  decide +kernel

end SecretsWarden.Operator
