import SecretsWarden.Cluster.Watch
import SecretsWarden.Dialogue.Run

/-!
# Following objects

A watcher lists its objects, watches them, and starts over when it has lost track. It does one
thing at a time: it asks for a page, begins a watch, or takes the lines that have come. After a
failure it rests, longer after each one, and what comes meanwhile has to wait.
-/

namespace SecretsWarden.Cluster

/-- What a watcher tells of the objects. -/
inductive Notice (α : Type) where
  | begun
  | listed (object : α)
  | complete
  | applied (object : α)
  | deleted (object : α)
  deriving Repr

namespace Watcher

/-- What a watcher does next. -/
inductive Stage (α : Type) where
  /-- Ask for a page of the list, the first one if nothing says where it starts. -/
  | list (start : String)
  /-- Begin to watch for the changes after a version. -/
  | watch (version : String)
  /-- Take the lines of a watch. -/
  | take (version : String) (feed : Feed α)

/-- The least rest after a first failure, in milliseconds. It is doubled after each further
one. -/
def firstRest : Nat := 800

/-- The least rest grows no longer than this. -/
def longestRest : Nat := 30000

/-- The failures count from one again after this time without any. -/
def forgetAfter : Nat := 120000

/-- The least rest after a failure that follows `failures` others. -/
def leastRest : (failures : Nat) → Nat
  | 0 => firstRest
  | failures + 1 => min (2 * leastRest failures) longestRest

end Watcher

open Watcher (Stage)

structure Watcher (α : Type) where
  stage : Stage α := .list ""
  /-- It rests until then. -/
  wake : Nat := 0
  /-- How many failures count. -/
  failures : Nat := 0
  lastFailure : Nat := 0
  /-- What a rest that begins at some time lasts longer than it must. Watchers that failed together
  should not all come back together. -/
  spread : Nat → Nat

namespace Watcher

/-- When there is something to do. -/
def due? (w : Watcher α) : Option Nat :=
  match w.stage with
  | .take _ ⟨[], false⟩ => none
  | .take _ ⟨(time, _) :: _, _⟩ => some (max w.wake time)
  | _ => some w.wake

/-- Rests after a failure, before it goes on with a stage. -/
def fail (clock : Nat) (stage : Stage α) (w : Watcher α) : Watcher α :=
  let failures := if w.lastFailure + forgetAfter < clock then 0 else w.failures
  { w with
    stage
    wake := clock + leastRest failures + w.spread clock
    failures := failures + 1
    lastFailure := clock }

/-- Takes a page. A list without a version cannot be followed, and its last page is lost. -/
def takePage (clock : Nat) (start : String) (page : Page α) (w : Watcher α) :
    Watcher α × List (Notice α) :=
  let told := (if start.isEmpty then [.begun] else []) ++ page.objects.map .listed
  if !page.next.isEmpty then ({ w with stage := .list page.next }, told)
  else if page.version.isEmpty then (w.fail clock (.list ""), [])
  else ({ w with stage := .watch page.version }, told ++ [.complete])

/-- Takes the lines that have come, up to the first failure. An object without a version is
one, and so is the news that the watch has failed; if it says that the version is gone, all
begins anew. -/
def takeLines (source : Source α) (clock : Nat) (w : Watcher α) (ends : Bool)
    (version : String) : List (Nat × Line α) → Watcher α × List (Notice α)
  | [] => ({ w with stage := if ends then .watch version else .take version ⟨[], ends⟩ }, [])
  | (time, line) :: rest =>
    let news (object : α) (notice : Notice α) : Watcher α × List (Notice α) :=
      if (source.version object).isEmpty then (w.fail clock (.list ""), [])
      else
        let (w, told) := takeLines source clock w ends (source.version object) rest
        (w, notice :: told)
    if clock < time then ({ w with stage := .take version ⟨(time, line) :: rest, ends⟩ }, [])
    else
      match line with
      | .event (.applied object) => news object (.applied object)
      | .event (.deleted object) => news object (.deleted object)
      | .event (.bookmark version) => takeLines source clock w ends version rest
      | .event (.failed cause) =>
        (w.fail clock (if cause.code = 410 then .list "" else .take version ⟨rest, ends⟩), [])
      | .unreadable => (w.fail clock (.take version ⟨rest, ends⟩), [])

/-- Does what is to be done. -/
def step (source : Source α) (clock : Nat) (w : Watcher α) :
    Session (Watcher α × List (Notice α)) :=
  match w.stage with
  | .list start =>
    (send (pageReader source.reader) (source.pageRequest start)).bind fun
      | .ok page => .done (w.takePage clock start page)
      | .error _ => .done (w.fail clock (.list ""), [])
  | .watch version =>
    .ask (source.watchRequest version) fun reply => .done <|
      match Feed.ofReply? source.reader clock reply with
      | some feed => w.takeLines source clock feed.ends version feed.lines
      | none => (w.fail clock (.watch version), [])
  | .take version feed => .done (w.takeLines source clock feed.ends version feed.lines)

end Watcher

end SecretsWarden.Cluster
