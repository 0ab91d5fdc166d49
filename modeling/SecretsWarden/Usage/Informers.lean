import SecretsWarden.Cluster.Discovery
import SecretsWarden.Cluster.Watcher
import SecretsWarden.Dialogue.Turns
import SecretsWarden.Usage.Strategy

/-!
# Informers

For each kind of stores that the API server serves there is a cache, filled by a first list
and kept up by a watch. A flag tells when all caches have their first list; it is set by a task
that waits for them. A kind that is not served, or of which this is not known, has no cache. A
store without a key ends the watch of its kind, and the cache stays as it is.
-/

namespace SecretsWarden.Usage

open Cluster Resource

/-- The cache of a kind, and whether its first list has come. -/
structure Informer where
  kind : Store.Kind
  cache : Cache := {}
  listed : Bool := false
  deriving Repr

structure Informers where
  started : List Informer
  synced : Bool := false
  deriving Repr

/-- What happens to the informers. -/
inductive InformerChange where
  /-- A list of all stores of a kind has come. -/
  | listed (kind : Store.Kind) (stores : List Store)
  /-- The store is new or has changed. -/
  | applied (kind : Store.Kind) (store : Store)
  | deleted (kind : Store.Kind) (store : Store)
  /-- The task that waits for the first lists looks whether they are there. -/
  | awaited
  deriving Repr

namespace Informer

def list (stores : List Store) (i : Informer) : Informer :=
  { i with cache := .ofList stores, listed := true }

def apply (s : Store) (i : Informer) : Informer := { i with cache := i.cache.insert s }

def delete (s : Store) (i : Informer) : Informer := { i with cache := i.cache.erase s }

end Informer

namespace Informers

/-- Informers for some kinds, at the start. -/
def ofKinds (kinds : List Store.Kind) : Informers := { started := kinds.map fun kind => { kind } }

def update (kind : Store.Kind) (f : Informer → Informer) (i : Informers) : Informers :=
  { i with started := i.started.map fun x => if x.kind = kind then f x else x }

def step (i : Informers) : InformerChange → Informers
  | .listed kind stores => i.update kind (Informer.list stores)
  | .applied kind store => i.update kind (Informer.apply store)
  | .deleted kind store => i.update kind (Informer.delete store)
  | .awaited => { i with synced := i.synced || i.started.all (·.listed) }

/-- The caches for look-ups. -/
def index (i : Informers) : Index := fun kind =>
  (i.started.find? (·.kind = kind)).map (·.cache)

end Informers

/-- The kind as discovery names it. -/
def storeKindId (kind : Store.Kind) : KindId :=
  ⟨Store.Kind.group, Store.Kind.version, kind.name⟩

/-- The kinds that the API server serves for certain. -/
def servedKinds : List Store.Kind → Session (List Store.Kind)
  | [] => .done []
  | kind :: rest =>
    (serves (storeKindId kind)).bind fun served =>
      (servedKinds rest).bind fun kinds =>
        .done (match served with
          | .ok true => kind :: kinds
          | _ => kinds)

def startInformers : Session Informers :=
  (servedKinds Store.Kind.all).bind fun kinds => .done (.ofKinds kinds)

/-! ## Informers in the course of time -/

/-- The stores of a kind, as a watcher follows them. -/
def storeSource (kind : Store.Kind) : Source Store where
  path := kind.path
  selector := ""
  reader := Store.reader
  metadata := (·.metadata)

/-- Follows the stores of a kind. -/
structure Follower where
  kind : Store.Kind
  watcher : Watcher Store
  /-- The stores of a list that is not complete. -/
  arriving : List Store := []
  /-- Whether a store without a key has ended it. -/
  hasEnded : Bool := false

namespace Follower

/-- Takes notice of a store, unless it has no key. -/
def meet (s : Store) (noticed : Follower × List InformerChange) (f : Follower) :
    Follower × List InformerChange :=
  if s.metadata.key?.isSome then noticed else ({ f with hasEnded := true }, [])

/-- Takes notice of what the watcher tells, and says what that changes. -/
def notice (f : Follower) : Notice Store → Follower × List InformerChange
  | .begun => ({ f with arriving := [] }, [])
  | .listed s => f.meet s ({ f with arriving := f.arriving ++ [s] }, [])
  | .complete => ({ f with arriving := [] }, [.listed f.kind f.arriving])
  | .applied s => f.meet s (f, [.applied f.kind s])
  | .deleted s => f.meet s (f, [.deleted f.kind s])

/-- Takes notice of one thing after the other, up to the end. -/
def noticeAll (f : Follower) : List (Notice Store) → Follower × List InformerChange
  | [] => (f, [])
  | n :: rest =>
    let (f, changes) := f.notice n
    if f.hasEnded then (f, changes)
    else
      let (f, more) := f.noticeAll rest
      (f, changes ++ more)

/-- When there is something to do. -/
def due? (f : Follower) : Option Nat := if f.hasEnded then none else f.watcher.due?

/-- Does what is to be done. -/
def step (clock : Nat) (f : Follower) : Session (Follower × List InformerChange) :=
  (f.watcher.step (storeSource f.kind) clock).bind fun (watcher, notices) =>
    .done ({ f with watcher }.noticeAll notices)

end Follower

/-- Informers at some time, with those who keep them up. -/
structure InformerRun where
  informers : Informers
  clock : Nat := 0
  followers : List Follower

namespace InformerRun

variable {σ : Type}

/-- Each kind that has a cache is followed, with rests of its own. -/
def start (spread : Store.Kind → Nat → Nat := fun _ _ => 0) : Session InformerRun :=
  startInformers.bind fun informers =>
    .done {
      informers
      followers := informers.started.map fun i =>
        { kind := i.kind, watcher := { spread := spread i.kind } } }

/-- The followers that have something to do. -/
def turns (r : InformerRun) : List (Nat × Follower) :=
  r.followers.filterMap fun f => f.due?.map (·, f)

/-- Lets a follower do what is to be done. -/
def take (answer : Answerer σ Request Reply) (f : Follower) (r : InformerRun) (server : σ) :
    InformerRun × σ :=
  let ending := (f.step r.clock).run answer r.clock server
  match ending.result with
  | .ok (f, changes) =>
    ({ r with
      informers := changes.foldl Informers.step r.informers
      followers := r.followers.map fun g => if g.kind = f.kind then f else g }, ending.state)
  | .error _ => (r, ending.state)

/-- Takes turns up to a time, at most `turns` of them. -/
def run (answer : Answerer σ Request Reply) (deadline : Nat) :
    (turns : Nat) → InformerRun → σ → InformerRun × σ
  | 0, r, server => (r, server)
  | turns + 1, r, server =>
    match earliest? r.turns with
    | some (time, f) =>
      if time ≤ deadline then
        let (r, server) := { r with clock := max r.clock time }.take answer f server
        r.run answer deadline turns server
      else (r, server)
    | none => (r, server)

/-- Lets time pass. What happens at the very end of it is still to come. -/
def advance (answer : Answerer σ Request Reply) (millis : Nat) (r : InformerRun) (server : σ) :
    InformerRun × σ :=
  let clock := r.clock + millis
  let (r, server) := r.run answer (r.clock + (millis - 1)) (turnLimit millis) server
  ({ r with informers := r.informers.step .awaited, clock }, server)

end InformerRun

end SecretsWarden.Usage
