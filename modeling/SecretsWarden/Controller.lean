import SecretsWarden.Cluster.Watcher
import SecretsWarden.Dialogue.Turns
import SecretsWarden.Reconcile

/-!
# The controllers

Two controllers follow the managed definitions and the configuration object. A listed, new or
changed object is reconciled at once; if the pass fails, again after a delay. An object has at
most one pass at a time, and at most one pass in wait. No pass begins before the first list is
complete, nor on an object that is not there. An object without a key, or a delay that the queue
cannot hold, ends everything.
-/

namespace SecretsWarden

open Cluster Resource

namespace Controller

/-- The two controllers. -/
inductive Role where
  | definitions
  | configs
  deriving DecidableEq, Repr

namespace Role

/-- Selects the configuration object in a query. -/
def configSelector : String := "&fieldSelector=metadata.name%3D" ++ SecretsConfig.singleton

/-- What a controller follows. It keeps the metadata only. -/
def source : Role → Source Meta
  | definitions => {
      path := Definition.path
      selector := Definition.selectorQuery
      reader := Definition.reader.map (·.metadata)
      metadata := id }
  | configs => {
      path := SecretsConfig.path
      selector := configSelector
      reader := SecretsConfig.reader.map (·.metadata)
      metadata := id }

/-- A definition is reconciled by its name; the configuration object concerns all. -/
def target : Role → Key → Target
  | definitions, key => .definition key.name
  | configs, _ => .all

end Role

/-- Why the controllers cannot go on. -/
inductive Fault where
  | keyless
  /-- A delay is too long for the queue. -/
  | unreachable
  deriving DecidableEq, Repr

def Fault.message : Fault → String
  | keyless => Meta.keylessMessage
  | unreachable => "invalid deadline; err=Invalid"

/-- How the operator deals with failures, and how it writes the time of its clock. -/
structure Setup where
  backoff : Backoff
  failureDelay : Duration
  timestamp : Nat → String
  /-- What the rests of the watchers last longer than they must. -/
  spread : Role → Nat → Nat := fun _ _ => 0

/-! ## One controller -/

/-- A controller: its watcher, the objects that it knows, and those that wait for a pass. -/
structure Post where
  role : Role
  watcher : Watcher Meta
  /-- The objects of a list that is not complete. -/
  arriving : List Key := []
  /-- The objects that exist, as far as the controller knows. -/
  known : List Key := []
  /-- Whether there has been a complete list. -/
  isReady : Bool := false
  /-- The objects that wait for a pass, with the time of it. -/
  due : List (Nat × Key) := []
  lastBegin : Nat := 0

namespace Post

def start (setup : Setup) (role : Role) (clock : Nat) : Post where
  role
  watcher := { spread := setup.spread role }
  lastBegin := clock

/-- Puts an object in wait for a pass. If it waits already, the earlier time counts. -/
def schedule (time : Nat) (key : Key) (p : Post) : Post :=
  let earliest := ((p.due.filter (·.2 = key)).map Prod.fst).foldl min time
  { p with due := p.due.filter (·.2 ≠ key) ++ [(earliest, key)] }

/-- The queue holds what is due at most this many milliseconds after the last pass began. -/
def horizon : Nat := 68719476735

/-- Puts an object in wait for another pass, after a delay. -/
def requeue (time : Nat) (key : Key) (p : Post) : Except Fault Post :=
  if p.lastBegin + horizon < time then .error .unreachable else .ok (p.schedule time key)

/-- Takes notice of what the watcher tells. -/
def notice (clock : Nat) (p : Post) : Notice Meta → Except Fault Post
  | .begun => .ok { p with arriving := [] }
  | .complete => .ok { p with known := p.arriving, arriving := [], isReady := true }
  | .listed m =>
    match m.key? with
    | some key => .ok ({ p with arriving := p.arriving ++ [key] }.schedule clock key)
    | none => .error .keyless
  | .applied m =>
    match m.key? with
    | some key => .ok ({ p with known := p.known.filter (· ≠ key) ++ [key] }.schedule clock key)
    | none => .error .keyless
  | .deleted m =>
    match m.key? with
    | some key => .ok { p with known := p.known.filter (· ≠ key) }
    | none => .error .keyless

end Post

/-! ## Both controllers -/

/-- An object under the eyes of a controller. -/
structure Job where
  role : Role
  key : Key
  deriving DecidableEq, Repr

/-- A pass that pauses until a time of the clock. -/
structure PausedPass where
  job : Job
  wake : Nat
  rest : Session (Except Failure Unit)

structure State (σ : Type) where
  clock : Nat
  server : σ
  definitions : Post
  configs : Post
  paused : List PausedPass := []

variable {σ : Type}

namespace State

/-- Both controllers at the start. -/
def start (setup : Setup) (server : σ) (clock : Nat) : State σ where
  clock
  server
  definitions := .start setup .definitions clock
  configs := .start setup .configs clock

def post (s : State σ) : Role → Post
  | .definitions => s.definitions
  | .configs => s.configs

def withPost (p : Post) (s : State σ) : State σ :=
  match p.role with
  | .definitions => { s with definitions := p }
  | .configs => { s with configs := p }

end State

/-- Goes on with a pass until it pauses for some time or ends. -/
def proceed (setup : Setup) (answer : Answerer σ Request Reply) (job : Job) (s : State σ) :
    Session (Except Failure Unit) → Except Fault (State σ)
  | .done (.ok ()) => .ok s
  | .done (.error failure) => do
    let delay := Reconcile.delayAfter failure setup.failureDelay
    let p ← (s.post job.role).requeue (s.clock + delay.millisCeil) job.key
    .ok (s.withPost p)
  | .ask request next =>
    let (reply, server) := answer s.clock s.server request
    proceed setup answer job { s with server } (next reply)
  | .pause time next =>
    if Dialogue.pauseMillis time = 0 then proceed setup answer job s next
    else .ok { s with paused := s.paused ++ [⟨job, s.clock + Dialogue.pauseMillis time, next⟩] }
  | .abort _ => .ok s

/-- What happens next. -/
inductive Turn where
  /-- The watcher of a controller does what is to be done. -/
  | watch (role : Role)
  | resume (pass : PausedPass)
  | begin (job : Job)

namespace State

/-- When the watcher of a controller has something to do. -/
def watchTurns (p : Post) : List (Nat × Turn) :=
  (p.watcher.due?.map fun time => (time, .watch p.role)).toList

/-- When passes of a controller can begin. -/
def beginTurns (s : State σ) (p : Post) : List (Nat × Turn) :=
  if p.isReady then
    (p.due.filter fun (_, key) => !s.paused.any (·.job = ⟨p.role, key⟩)).map fun (time, key) =>
      (time, .begin ⟨p.role, key⟩)
  else []

/-- All turns that could be next: watchers first, then passes that go on, then new passes of
objects that have none. -/
def turns (s : State σ) : List (Nat × Turn) :=
  watchTurns s.definitions ++ watchTurns s.configs
    ++ s.paused.map (fun pass => (pass.wake, .resume pass))
    ++ s.beginTurns s.definitions ++ s.beginTurns s.configs

/-- Lets the watcher of a controller do what is to be done. -/
def watch (answer : Answerer σ Request Reply) (p : Post) (s : State σ) :
    Except Fault (State σ) := do
  let ending := (p.watcher.step p.role.source s.clock).run answer s.clock s.server
  match ending.result with
  | .ok (watcher, notices) =>
    let p ← notices.foldlM (Post.notice s.clock) { p with watcher }
    .ok ({ s with server := ending.state }.withPost p)
  | .error _ => .ok { s with server := ending.state }

/-- Begins a pass, if the object is there. -/
def begin (setup : Setup) (answer : Answerer σ Request Reply) (job : Job) (s : State σ) :
    Except Fault (State σ) :=
  let p := s.post job.role
  let s := s.withPost { p with due := p.due.filter (·.2 ≠ job.key), lastBegin := s.clock }
  if p.known.contains job.key then
    proceed setup answer job s
      (Reconcile.pass setup.backoff (setup.timestamp s.clock) (job.role.target job.key))
  else .ok s

def take (setup : Setup) (answer : Answerer σ Request Reply) (s : State σ) :
    Turn → Except Fault (State σ)
  | .watch role => s.watch answer (s.post role)
  | .resume pass =>
    proceed setup answer pass.job
      { s with paused := s.paused.filter (·.job ≠ pass.job) } pass.rest
  | .begin job => s.begin setup answer job

/-- Takes turns up to a time, at most `turns` of them. -/
def run (setup : Setup) (answer : Answerer σ Request Reply) (deadline : Nat) :
    (turns : Nat) → State σ → Except Fault (State σ)
  | 0, s => .ok s
  | turns + 1, s =>
    match earliest? s.turns with
    | some (time, t) =>
      if time ≤ deadline then do
        let s ← { s with clock := max s.clock time }.take setup answer t
        s.run setup answer deadline turns
      else .ok s
    | none => .ok s

end State

/-- Runs both controllers for some time, and gives the server's state at the end. -/
def run (setup : Setup) (answer : Answerer σ Request Reply) (server : σ) (millis : Nat)
    (clock : Nat := 0) : Except Fault σ :=
  (State.run setup answer (clock + millis) (turnLimit millis) (.start setup server clock)).map
    (·.server)

end Controller

end SecretsWarden
