import SecretsWarden.Dialogue.Basic

/-!
# Running a dialogue

The one who answers has a state, and there is a clock of whole milliseconds that moves only
while a dialogue pauses. A pause takes its time rounded up to whole milliseconds, but no more
than thirty years.
-/

namespace SecretsWarden

/-- Answers a question at a time of the clock, and has a new state then. -/
abbrev Answerer (σ q r : Type) := Nat → σ → q → r × σ

namespace Dialogue

/-- The milliseconds of the longest pause: thirty years of 365 days. -/
def longestPause : Nat := 946080000000

/-- How many milliseconds a pause takes. -/
def pauseMillis (time : Duration) : Nat := min time.millisCeil longestPause

/-- How a dialogue ended: its result, the time, and the state of the one who answered. -/
structure Ending (σ α : Type) where
  result : Except Duration.Fault α
  clock : Nat
  state : σ

def run (answer : Answerer σ q r) (clock : Nat) (state : σ) : Dialogue q r α → Ending σ α
  | done a => ⟨.ok a, clock, state⟩
  | ask question next =>
    let (reply, state) := answer clock state question
    (next reply).run answer clock state
  | pause time next => next.run answer (clock + pauseMillis time) state
  | abort fault => ⟨.error fault, clock, state⟩

/-- Runs a dialogue until a pause would last beyond the deadline; then there is no result. -/
def runUntil (answer : Answerer σ q r) (deadline clock : Nat) (state : σ) :
    Dialogue q r α → Option (Except Duration.Fault α) × σ
  | done a => (some (.ok a), state)
  | ask question next =>
    let (reply, state) := answer clock state question
    (next reply).runUntil answer deadline clock state
  | pause time next =>
    if deadline < clock + pauseMillis time then (none, state)
    else next.runUntil answer deadline (clock + pauseMillis time) state
  | abort fault => (some (.error fault), state)

theorem run_bind (answer : Answerer σ q r) (x : Dialogue q r α) (k : α → Dialogue q r β)
    (clock : Nat) (state : σ) :
    (x.bind k).run answer clock state =
      match x.run answer clock state with
      | ⟨.ok a, clock, state⟩ => (k a).run answer clock state
      | ⟨.error fault, clock, state⟩ => ⟨.error fault, clock, state⟩ := by
  induction x generalizing clock state with
  | done => rfl
  | ask question next ih => exact ih _ _ _
  | pause time next ih => exact ih _ _
  | abort => rfl

end Dialogue

end SecretsWarden
