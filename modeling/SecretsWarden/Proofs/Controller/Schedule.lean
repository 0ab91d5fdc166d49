import SecretsWarden.Proofs.Controller.Questions
import SecretsWarden.Proofs.Except
import SecretsWarden.Proofs.Reconcile.Interleaving

/-!
# What the controllers do is a schedule of passes

The controllers begin passes, let them pause and go on with them, and between two requests of
theirs others write to the API server. Whoever answers, and whatever the watchers are told, what
becomes of the server in a run of the controllers is what a schedule of the passes that they began
makes of it. So all that is known of passes that take turns is known of the controllers. Moreover
passes on one object do not overlap: they take their turns in the order in which they were begun.
-/

namespace SecretsWarden.Controller

open Cluster Dialogue Json Reconcile Resource

/-! ## Passes that were begun -/

/-- A pass that a controller began: on which object, and when. -/
structure Begun where
  job : Job
  time : Nat

def Begun.pass (setup : Setup) (b : Begun) : Pass :=
  ⟨setup.backoff, setup.timestamp b.time, b.job.role.target b.job.key⟩

/-- The passes that were begun and the server, after a schedule. -/
def system (setup : Setup) (p : Policy) (server : ApiServer) (begun : List Begun)
    (schedule : List Action) : System (Except Failure Unit) :=
  passSystem p server (begun.map (Begun.pass setup)) schedule

/-- Of two passes on one object the first one has its turns before the second one. -/
def InOrder (begun : List Begun) : Action → Action → Prop
  | .turn i _, .turn j _ =>
    (begun[i]?.map Begun.job) = (begun[j]?.map Begun.job) → i ≤ j
  | _, _ => True

/-- A schedule of passes that were begun makes a server what it is now. All edits in it are those of
others, and passes on one object do not overlap. -/
structure Schedules (setup : Setup) (p : Policy) (others : Others) (server : ApiServer)
    (begun : List Begun) (schedule : List Action) (now : ApiServer) : Prop where
  server_eq : (system setup p server begun schedule).server = now
  within : ∀ action ∈ schedule, action.Within begun.length
  edited : EditedBy others p (system setup p server begun []) schedule
  inOrder : schedule.Pairwise (InOrder begun)

/-- The pass of this number is the last one on the object. -/
def Latest (begun : List Begun) (job : Job) (i : Nat) : Prop :=
  begun[i]?.map Begun.job = some job ∧ ∀ b ∈ begun.drop (i + 1), b.job ≠ job

/-- The schedule says also where the passes stand that pause. -/
structure Explains (setup : Setup) (p : Policy) (others : Others) (server : ApiServer)
    (begun : List Begun) (schedule : List Action) (now : ApiServer) (paused : List PausedPass) :
    Prop extends Schedules setup p others server begun schedule now where
  standing : ∀ pass ∈ paused, ∃ i, Latest begun pass.job i ∧
    (system setup p server begun schedule).sessions[i]? = some pass.rest
  nodup : (paused.map (·.job)).Nodup

variable {σ : Type} {setup : Setup} {p : Policy} {others : Others} {server now heard : ApiServer}
  {begun : List Begun} {schedule : List Action} {paused : List PausedPass} {job : Job} {i j : Nat}
  {d : Session (Except Failure Unit)} {answer : Answerer σ Request Reply} {view : σ → ApiServer}

theorem Latest.lt (h : Latest begun job i) : i < begun.length := by
  obtain ⟨b, hb, _⟩ := Option.map_eq_some_iff.mp h.1
  exact (List.getElem?_eq_some_iff.mp hb).1

/-- No pass on the object has a greater number. -/
theorem Latest.le (h : Latest begun job i) (hj : begun[j]?.map Begun.job = some job) :
    j ≤ i := by
  by_contra hlt
  obtain ⟨b, hb, hjob⟩ := Option.map_eq_some_iff.mp hj
  refine h.2 b (List.mem_of_getElem? (i := j - (i + 1)) ?_) hjob
  rw [List.getElem?_drop, Nat.add_sub_cancel' (by omega)]
  exact hb

theorem Latest.job_eq {job' : Job} (h : Latest begun job i) (h' : Latest begun job' i) :
    job = job' :=
  Option.some.inj (h.1.symm.trans h'.1)

/-- A pass that is begun on another object leaves it so. -/
theorem Latest.append {b : Begun} (h : Latest begun job i) (hb : b.job ≠ job) :
    Latest (begun ++ [b]) job i := by
  refine ⟨?_, ?_⟩
  · rw [List.getElem?_append_left h.lt]
    exact h.1
  · intro b' hmem
    rw [List.drop_append_of_le_length h.lt] at hmem
    rcases List.mem_append.mp hmem with hmem | hmem
    · exact h.2 b' hmem
    · exact List.mem_singleton.mp hmem ▸ hb

theorem latest_snoc (begun : List Begun) (b : Begun) :
    Latest (begun ++ [b]) b.job begun.length := by
  constructor <;> simp

/-! ## Steps -/

theorem system_append (begun : List Begun) (earlier later : List Action) :
    system setup p server begun (earlier ++ later) =
      (system setup p server begun earlier).run p later :=
  passSystem_append _ _ _ _

theorem sessions_length (setup : Setup) (p : Policy) (server : ApiServer) (begun : List Begun) :
    (system setup p server begun []).sessions.length = begun.length := by
  simp [system, passSystem, System.run]

/-- A pass that is begun stands at its start, and the others where they stood. -/
theorem system_snoc (hwithin : ∀ action ∈ schedule, action.Within begun.length) (b : Begun) :
    system setup p server (begun ++ [b]) schedule =
      ⟨(system setup p server begun schedule).server,
        (system setup p server begun schedule).sessions ++ [(b.pass setup).session]⟩ := by
  rw [← sessions_length setup p server begun] at hwithin
  have hextend := System.run_extend (p := p) hwithin [(b.pass setup).session]
  rw [← system_append, List.nil_append] at hextend
  rw [← hextend]
  simp [system, passSystem, System.run]

/-- What one of the passes is about to ask is about what is stored. -/
theorem asksStored_of_session {request : Request}
    {next : Reply → Session (Except Failure Unit)}
    (hsession : (system setup p server begun schedule).sessions[i]? = some (.ask request next)) :
    AsksStored request := by
  obtain ⟨_, c, hfirst, hleads, _⟩ :=
    System.informed_run (System.informed_start p server _) schedule i _ hsession
  rw [List.getElem?_map] at hfirst
  obtain ⟨r, _, rfl⟩ := Option.map_eq_some_iff.mp hfirst
  exact ((asksStored_pass r.backoff r.now r.target).of_leads hleads).1

/-- At the start nothing was begun. -/
theorem explains_start (server : ApiServer) :
    Explains setup p others server [] [] server [] where
  server_eq := rfl
  within := fun _ hmem => absurd hmem List.not_mem_nil
  edited := trivial
  inOrder := .nil
  standing := fun _ hmem => absurd hmem List.not_mem_nil
  nodup := .nil

/-- To go on with a schedule, it is enough to say what the next actions do. -/
theorem Schedules.append (h : Schedules setup p others server begun schedule now)
    {more : List Action} {after : ApiServer}
    (hserver : ((system setup p server begun schedule).run p more).server = after)
    (hwithin : ∀ action ∈ more, action.Within begun.length)
    (hedited : EditedBy others p (system setup p server begun schedule) more)
    (horder : more.Pairwise (InOrder begun))
    (hcross : ∀ a ∈ schedule, ∀ b ∈ more, InOrder begun a b) :
    Schedules setup p others server begun (schedule ++ more) after where
  server_eq := by rw [system_append, hserver]
  within := fun action hmem => (List.mem_append.mp hmem).elim (h.within action) (hwithin action)
  edited := by
    refine editedBy_append.mpr ⟨h.edited, ?_⟩
    rwa [← system_append, List.nil_append]
  inOrder := List.pairwise_append.mpr ⟨h.inOrder, horder, hcross⟩

/-- Others write. -/
theorem Explains.edit (h : Explains setup p others server begun schedule now paused)
    (hedited : Edited others now heard) :
    ∃ more, Explains setup p others server begun (schedule ++ more) heard paused ∧
      (system setup p server begun (schedule ++ more)).sessions =
        (system setup p server begun schedule).sessions := by
  obtain ⟨edits, hturns, hby, hrun⟩ :=
    hedited.exists_schedule p (system setup p server begun schedule).sessions
  rw [← h.server_eq] at hby hrun
  have hsessions : (system setup p server begun (schedule ++ edits)).sessions =
      (system setup p server begun schedule).sessions := by
    rw [system_append, hrun]
  have hfree : ∀ a b, b ∈ edits → InOrder begun a b := by
    intro a b hb
    cases b with
    | turn j passage => exact absurd hb (hturns j passage)
    | edit config definitions => cases a <;> trivial
  refine ⟨edits, ⟨?_, ?_, h.nodup⟩, hsessions⟩
  · refine h.toSchedules.append (by rw [hrun]) ?_ hby ?_ fun a _ b => hfree a b
    · intro action hmem
      cases action with
      | turn j passage => exact absurd hmem (hturns j passage)
      | edit config definitions => trivial
    · exact List.pairwise_of_forall_mem_list fun a _ b => hfree a b
  · rw [hsessions]
    exact h.standing

/-- The last pass on an object has a turn, unless it pauses. -/
theorem Explains.turn (h : Explains setup p others server begun schedule now paused)
    (hlatest : Latest begun job i) (hfree : job ∉ paused.map (·.job))
    (hsession : (system setup p server begun schedule).sessions[i]? = some d)
    (passage : Passage) :
    Explains setup p others server begun (schedule ++ [.turn i passage])
        (System.turn p passage now d).1 paused ∧
      (system setup p server begun (schedule ++ [.turn i passage])).sessions[i]? =
        some (System.turn p passage now d).2 := by
  have hstep : (system setup p server begun schedule).run p [.turn i passage] =
      ⟨(System.turn p passage now d).1,
        (system setup p server begun schedule).sessions.set i (System.turn p passage now d).2⟩ := by
    rw [← h.server_eq]
    exact System.step_turn passage hsession
  refine ⟨⟨h.toSchedules.append (by rw [hstep]) ?_ trivial (List.pairwise_singleton _ _) ?_, ?_,
    h.nodup⟩, ?_⟩
  · intro action hmem
    rw [List.mem_singleton.mp hmem]
    exact hlatest.lt
  · intro a _ b hb
    rw [List.mem_singleton.mp hb]
    cases a with
    | edit config definitions => trivial
    | turn j passage' => exact fun hjob => hlatest.le (hjob.trans hlatest.1)
  · intro pass hmem
    obtain ⟨j, hj, hrest⟩ := h.standing pass hmem
    refine ⟨j, hj, ?_⟩
    rw [system_append, hstep, List.getElem?_set_ne, hrest]
    rintro rfl
    exact hfree (List.mem_map.mpr ⟨pass, hmem, hj.job_eq hlatest⟩)
  · rw [system_append, hstep, List.getElem?_set_self (List.getElem?_eq_some_iff.mp hsession).1]

/-- A pass begins to pause. -/
theorem Explains.pause (h : Explains setup p others server begun schedule now paused)
    (hlatest : Latest begun job i) (hfree : job ∉ paused.map (·.job))
    (hsession : (system setup p server begun schedule).sessions[i]? = some d) (wake : Nat) :
    Explains setup p others server begun schedule now (paused ++ [⟨job, wake, d⟩]) where
  toSchedules := h.toSchedules
  standing := by
    intro pass hmem
    rcases List.mem_append.mp hmem with hmem | hmem
    · exact h.standing pass hmem
    · obtain rfl := List.mem_singleton.mp hmem
      exact ⟨i, hlatest, hsession⟩
  nodup := by
    rw [List.map_append]
    exact List.nodup_append.mpr ⟨h.nodup, by simp, by simpa using hfree⟩

/-- Some of the passes do not pause any longer. -/
theorem Explains.sublist {fewer : List PausedPass}
    (h : Explains setup p others server begun schedule now paused) (hfewer : fewer.Sublist paused) :
    Explains setup p others server begun schedule now fewer where
  toSchedules := h.toSchedules
  standing := fun pass hmem => h.standing pass (hfewer.subset hmem)
  nodup := h.nodup.sublist (hfewer.map _)

theorem within_snoc {action : Action} (h : action.Within begun.length) (b : Begun) :
    action.Within (begun ++ [b]).length := by
  cases action with
  | edit config definitions => trivial
  | turn i passage =>
      rw [List.length_append]
      exact Nat.lt_add_right 1 h

theorem InOrder.append {a b : Action} (h : InOrder begun a b) (ha : a.Within begun.length)
    (hb : b.Within begun.length) (more : List Begun) : InOrder (begun ++ more) a b := by
  cases a with
  | edit config definitions => trivial
  | turn i passage =>
      cases b with
      | edit config definitions => trivial
      | turn j passage' =>
          intro hjob
          rw [List.getElem?_append_left ha, List.getElem?_append_left hb] at hjob
          exact h hjob

/-- A pass is begun on an object that has none. -/
theorem Explains.begin (h : Explains setup p others server begun schedule now paused)
    (b : Begun) (hfree : b.job ∉ paused.map (·.job)) :
    Explains setup p others server (begun ++ [b]) schedule now paused ∧
      (system setup p server (begun ++ [b]) schedule).sessions[begun.length]? =
        some (b.pass setup).session := by
  have hlength : (system setup p server begun schedule).sessions.length = begun.length := by
    rw [← List.nil_append schedule, system_append, System.length_run, sessions_length]
  rw [system_snoc h.within b, ← hlength]
  refine ⟨{
    server_eq := ?same
    within := ?within
    edited := ?edited
    inOrder := ?order
    standing := ?standing
    nodup := h.nodup }, List.getElem?_concat_length⟩
  case same =>
    rw [system_snoc h.within b]
    exact h.server_eq
  case within =>
    intro action hmem
    exact within_snoc (h.within action hmem) b
  case edited =>
    rw [system_snoc (fun _ hmem => absurd hmem List.not_mem_nil) b]
    refine (editedBy_extend ?_ _).mpr h.edited
    rw [sessions_length]
    exact h.within
  case order =>
    refine h.inOrder.imp_of_mem fun ha hb horder => ?_
    exact horder.append (h.within _ ha) (h.within _ hb) [b]
  case standing =>
    intro pass hmem
    obtain ⟨i, hlatest, hrest⟩ := h.standing pass hmem
    have hother : b.job ≠ pass.job := fun hjob => hfree (hjob ▸ List.mem_map.mpr ⟨pass, hmem, rfl⟩)
    refine ⟨i, hlatest.append hother, ?_⟩
    rw [system_snoc h.within b, List.getElem?_append_left (hlength ▸ hlatest.lt)]
    exact hrest

/-! ## Turns of the controllers -/

/-- A turn that the controllers can take. A watcher can have one at any time, a pass goes on only if
it pauses, and a pass begins only on an object that has none. -/
inductive State.Offers (s : State σ) : Turn → Prop where
  | watch (role : Role) : s.Offers (.watch role)
  | resume {pass : PausedPass} (h : pass ∈ s.paused) : s.Offers (.resume pass)
  | begin {job : Job} (hfree : job ∉ s.paused.map (·.job)) : s.Offers (.begin job)

variable {s s' : State σ}

theorem State.offers_of_mem_turns {time : Nat} {t : Turn} (h : (time, t) ∈ s.turns) :
    s.Offers t := by
  have hwatch : ∀ q, (time, t) ∈ watchTurns q → s.Offers t := by
    intro q hq
    obtain ⟨_, _, heq⟩ := Option.map_eq_some_iff.mp (Option.mem_toList.mp hq)
    cases heq
    exact .watch q.role
  have hbegin : ∀ q, (time, t) ∈ s.beginTurns q → s.Offers t := by
    intro q hq
    unfold State.beginTurns at hq
    split at hq
    · obtain ⟨⟨_, key⟩, hdue, heq⟩ := List.mem_map.mp hq
      cases heq
      refine .begin fun hmem => ?_
      obtain ⟨pass, hpass, hjob⟩ := List.mem_map.mp hmem
      have hnone := (List.mem_filter.mp hdue).2
      simp only [Bool.not_eq_true', List.any_eq_false, decide_eq_true_eq] at hnone
      exact hnone pass hpass hjob
    · cases hq
  simp only [State.turns, List.mem_append] at h
  rcases h with (((h | h) | h) | h) | h
  · exact hwatch _ h
  · exact hwatch _ h
  · obtain ⟨pass, hmem, heq⟩ := List.mem_map.mp h
    cases heq
    exact .resume hmem
  · exact hbegin _ h
  · exact hbegin _ h

/-- A run keeps whatever each turn keeps that is offered. -/
theorem State.run_keeps {I : State σ → Prop}
    (htake : ∀ s t clock s', I s → s.Offers t →
      State.take setup answer { s with clock } t = .ok s' → I s')
    (h : I s) {deadline turns : Nat} (hrun : s.run setup answer deadline turns = .ok s') :
    I s' := by
  induction turns generalizing s with
  | zero =>
      obtain rfl := Except.ok.inj hrun
      exact h
  | succ turns ih =>
      rw [State.run] at hrun
      split at hrun
      · rename_i time t hnext
        split at hrun
        · obtain ⟨s'', htaken, hrest⟩ := Except.bind_eq_ok.mp hrun
          have hoffers := State.offers_of_mem_turns (mem_of_earliest? hnext)
          exact ih (htake s t _ s'' h hoffers htaken) hrest
        · obtain rfl := Except.ok.inj hrun
          exact h
      · obtain rfl := Except.ok.inj hrun
        exact h

/-! ## The controllers -/

/-- The controllers at some time, as whoever answers sees the server. -/
def Explained (setup : Setup) (p : Policy) (others : Others) (view : σ → ApiServer)
    (server : ApiServer) (begun : List Begun) (schedule : List Action) (s : State σ) : Prop :=
  Explains setup p others server begun schedule (view s.server) s.paused

@[simp] theorem State.server_withPost (q : Post) (s : State σ) :
    (s.withPost q).server = s.server := by
  unfold State.withPost
  cases q.role <;> rfl

@[simp] theorem State.clock_withPost (q : Post) (s : State σ) :
    (s.withPost q).clock = s.clock := by
  unfold State.withPost
  cases q.role <;> rfl

@[simp] theorem State.paused_withPost (q : Post) (s : State σ) :
    (s.withPost q).paused = s.paused := by
  unfold State.withPost
  cases q.role <;> rfl

/-- What a pass does until it pauses or ends goes on with the schedule. A request of it is preceded
by what others write until it is heard. -/
theorem explained_proceed (hstands : StandsFor p others answer view)
    (h : Explained setup p others view server begun schedule s)
    (hlatest : Latest begun job i) (hfree : job ∉ s.paused.map (·.job))
    (hsession : (system setup p server begun schedule).sessions[i]? = some d)
    (hproceed : proceed setup answer job s d = .ok s') :
    ∃ more, Explained setup p others view server begun (schedule ++ more) s' := by
  induction d generalizing s schedule with
  | done result =>
      refine ⟨[], ?_⟩
      rw [List.append_nil]
      cases result with
      | ok u =>
          obtain rfl := Except.ok.inj hproceed
          exact h
      | error failure =>
          obtain ⟨q, _, hq⟩ := Except.bind_eq_ok.mp hproceed
          obtain rfl := Except.ok.inj hq
          rwa [Explained, State.server_withPost, State.paused_withPost]
  | abort fault =>
      obtain rfl := Except.ok.inj hproceed
      exact ⟨[], by rwa [List.append_nil]⟩
  | pause time next ih =>
      obtain ⟨hturn, hnext⟩ := h.turn hlatest hfree hsession .clear
      rw [proceed] at hproceed
      split at hproceed
      · obtain ⟨more, hmore⟩ := ih hturn hfree hnext hproceed
        exact ⟨_, by rwa [List.append_assoc] at hmore⟩
      · obtain rfl := Except.ok.inj hproceed
        exact ⟨_, hturn.pause hlatest hfree hnext _⟩
  | ask request next ih =>
      obtain ⟨heard, hedited, hpass, _⟩ := hstands s.clock s.server request
      obtain ⟨edits, hedits, hsessions⟩ := h.edit hedited
      have hask := hsessions ▸ hsession
      obtain ⟨passage, hexchange⟩ := hpass (asksStored_of_session hask)
      obtain ⟨hturn, hnext⟩ := hedits.turn hlatest hfree hask passage
      simp only [System.turn, hexchange] at hturn hnext
      obtain ⟨more, hmore⟩ := ih _ (s := { s with server := (answer s.clock s.server request).2 })
        hturn hfree hnext hproceed
      refine ⟨edits ++ ([.turn i passage] ++ more), ?_⟩
      rwa [List.append_assoc, List.append_assoc] at hmore

theorem explained_watch (hstands : StandsFor p others answer view)
    (h : Explained setup p others view server begun schedule s) (q : Post)
    (hwatch : s.watch answer q = .ok s') :
    ∃ more, Explained setup p others view server begun (schedule ++ more) s' := by
  have hedited := hstands.edited_of_reads (reads_step q.role.source s.clock q.watcher) s.clock
    s.server
  obtain ⟨more, hmore, _⟩ := h.edit hedited
  refine ⟨more, ?_⟩
  rw [State.watch] at hwatch
  split at hwatch
  · obtain ⟨q', _, hq⟩ := Except.bind_eq_ok.mp hwatch
    obtain rfl := Except.ok.inj hq
    rwa [Explained, State.server_withPost, State.paused_withPost]
  · obtain rfl := Except.ok.inj hwatch
    exact hmore

theorem explained_begin (hstands : StandsFor p others answer view)
    (h : Explained setup p others view server begun schedule s)
    (hfree : job ∉ s.paused.map (·.job)) (hbegin : s.begin setup answer job = .ok s') :
    ∃ begun' schedule', Explained setup p others view server begun' schedule' s' := by
  rw [State.begin] at hbegin
  simp only [State.clock_withPost] at hbegin
  split at hbegin
  · obtain ⟨hbegun, hsession⟩ := h.begin ⟨job, s.clock⟩ hfree
    obtain ⟨more, hmore⟩ : ∃ more,
        Explained setup p others view server _ (schedule ++ more) s' := by
      refine explained_proceed hstands ?_ (latest_snoc begun ⟨job, s.clock⟩) ?_ hsession hbegin
      · rwa [Explained, State.server_withPost, State.paused_withPost]
      · rwa [State.paused_withPost]
    exact ⟨_, _, hmore⟩
  · obtain rfl := Except.ok.inj hbegin
    refine ⟨begun, schedule, ?_⟩
    rwa [Explained, State.server_withPost, State.paused_withPost]

/-- Each turn that is offered goes on with the schedule. -/
theorem explained_take (hstands : StandsFor p others answer view)
    (h : Explained setup p others view server begun schedule s) {t : Turn} (hoffers : s.Offers t)
    (clock : Nat) (htake : State.take setup answer { s with clock } t = .ok s') :
    ∃ begun' schedule', Explained setup p others view server begun' schedule' s' := by
  cases hoffers with
  | watch role =>
      obtain ⟨more, hmore⟩ := explained_watch (s := { s with clock }) hstands h _ htake
      exact ⟨begun, _, hmore⟩
  | @resume pass hpaused =>
      obtain ⟨i, hlatest, hrest⟩ := h.standing pass hpaused
      have hfewer := h.sublist (List.filter_sublist (p := fun other => other.job ≠ pass.job))
      obtain ⟨more, hmore⟩ := explained_proceed
        (s := { s with clock, paused := s.paused.filter (·.job ≠ pass.job) }) hstands hfewer
        hlatest (by simp) hrest htake
      exact ⟨begun, _, hmore⟩
  | begin hfree => exact explained_begin (s := { s with clock }) hstands h hfree htake

theorem explained_run (hstands : StandsFor p others answer view)
    (h : Explained setup p others view server begun schedule s) {deadline turns : Nat}
    (hrun : s.run setup answer deadline turns = .ok s') :
    ∃ begun' schedule', Explained setup p others view server begun' schedule' s' := by
  refine State.run_keeps (I := fun s => ∃ begun schedule,
    Explained setup p others view server begun schedule s) ?_ ⟨begun, schedule, h⟩ hrun
  intro s t clock s' hs hoffers htake
  obtain ⟨begun, schedule, h⟩ := hs
  exact explained_take hstands h hoffers clock htake

/-- **The controllers run a schedule of passes.** Whoever answers, what a run of the controllers
makes of the server is what some schedule of the passes that they began makes of it. Between the
turns of the passes there is nothing but edits that others may make, and passes on one object do not
overlap. -/
theorem exists_schedule_of_run (hstands : StandsFor p others answer view) {state state' : σ}
    (hedited : Edited others server (view state)) {millis clock : Nat}
    (hrun : run setup answer state millis clock = .ok state') :
    ∃ begun schedule, Schedules setup p others server begun schedule (view state') := by
  obtain ⟨edits, hedits, _⟩ := (explains_start server).edit hedited
  have hstart : Explained setup p others view server [] _ (State.start setup state clock) := hedits
  unfold run at hrun
  cases hlast : State.run setup answer (clock + millis) (turnLimit millis)
      (State.start setup state clock) with
  | error fault =>
      rw [hlast] at hrun
      cases hrun
  | ok last =>
      rw [hlast] at hrun
      cases hrun
      obtain ⟨begun, schedule, hexplained⟩ := explained_run hstands hstart hlast
      exact ⟨begun, schedule, hexplained.toSchedules⟩

end SecretsWarden.Controller
