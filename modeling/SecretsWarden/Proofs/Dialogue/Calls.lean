import Mathlib.Order.Nat
import SecretsWarden.Proofs.Dialogue.Tries

/-!
# Calls of an operation that is tried again

Trying an operation again is a loop with a counter of the attempts: after a conflict it goes on if
the counter is less than the number of attempts. So whatever the operation is and whoever answers
it, it is called until a call meets no conflict or there is no attempt left, with the delay of each
attempt between one call and the next.
-/

namespace SecretsWarden

namespace Dialogue

variable {q r σ α β : Type} {answer : Answerer σ q r}

/-- Answered like this, the dialogue takes this course to a later time and state, and then the
other dialogue is left. -/
inductive Reaches (answer : Answerer σ q r) : Nat → σ → Dialogue q r α → Course q r →
    Nat → σ → Dialogue q r α → Prop where
  | stay (clock : Nat) (state : σ) (d : Dialogue q r α) :
      Reaches answer clock state d [] clock state d
  | ask {clock clock' : Nat} {state state' : σ} {question : q} {next : r → Dialogue q r α}
      {course : Course q r} {left : Dialogue q r α}
      (h : Reaches answer clock (answer clock state question).2
        (next (answer clock state question).1) course clock' state' left) :
      Reaches answer clock state (ask question next)
        (.asked question (answer clock state question).1 :: course) clock' state' left
  | pause {clock clock' : Nat} {state state' : σ} {time : Duration} {next : Dialogue q r α}
      {course : Course q r} {left : Dialogue q r α}
      (h : Reaches answer (clock + pauseMillis time) state next course clock' state' left) :
      Reaches answer clock state (pause time next) (.paused time :: course) clock' state' left

variable {clock clock' clock'' : Nat} {state state' state'' : σ} {d left left' : Dialogue q r α}
  {c c' : Course q r}

theorem Reaches.trans (h : Reaches answer clock state d c clock' state' left)
    (h' : Reaches answer clock' state' left c' clock'' state'' left') :
    Reaches answer clock state d (c ++ c') clock'' state'' left' := by
  induction h with
  | stay => exact h'
  | ask _ ih => exact .ask (ih h')
  | pause _ ih => exact .pause (ih h')

theorem Reaches.run_eq (h : Reaches answer clock state d c clock' state' left) :
    d.run answer clock state = left.run answer clock' state' := by
  induction h with
  | stay => rfl
  | ask _ ih => exact ih
  | pause _ ih => exact ih

theorem Reaches.course_eq (h : Reaches answer clock state d c clock' state' left) :
    d.course answer clock state = c ++ left.course answer clock' state' := by
  induction h with
  | stay => rfl
  | ask _ ih => exact congrArg (_ :: ·) ih
  | pause _ ih => exact congrArg (_ :: ·) ih

/-- After a first part that came to a value, what follows for that value is left. -/
theorem reaches_bind {x : Dialogue q r α} {a : α}
    (h : x.run answer clock state = ⟨.ok a, clock', state'⟩) (k : α → Dialogue q r β) :
    Reaches answer clock state (x.bind k) (x.course answer clock state) clock' state' (k a) := by
  induction x generalizing clock state with
  | done a' =>
      cases h
      exact .stay _ _ _
  | ask question next ih => exact .ask (ih _ h)
  | pause time next ih => exact .pause (ih h)
  | abort fault => cases h

/-- Nothing follows a first part that breaks off. -/
theorem course_bind_of_error {x : Dialogue q r α} {fault : Duration.Fault}
    (h : (x.run answer clock state).result = .error fault) (k : α → Dialogue q r β) :
    (x.bind k).course answer clock state = x.course answer clock state := by
  induction x generalizing clock state with
  | done a => cases h
  | ask question next ih => exact congrArg (_ :: ·) (ih _ h)
  | pause time next ih => exact congrArg (_ :: ·) (ih h)
  | abort fault => rfl

end Dialogue

namespace Backoff

open Dialogue

variable {q r σ α : Type} {b : Backoff} {operation : Dialogue q r (Except Failure α)}
  {answer : Answerer σ q r} {attempt : UInt32} {clock : Nat} {state : σ}

/-! ## The loop -/

/-- The loop at an attempt. -/
def loop (b : Backoff) (operation : Dialogue q r (Except Failure α)) (attempt : UInt32) :
    Dialogue q r (Except Failure α) :=
  b.retryFrom operation (b.attempts.toNat - attempt.toNat) attempt

theorem retry_eq_loop (b : Backoff) (operation : Dialogue q r (Except Failure α)) :
    b.retry operation = b.loop operation 1 :=
  rfl

/-- What the loop does after a call: a conflict is followed by another round exactly if the counter
is less than the number of attempts. -/
def afterCall (b : Backoff) (operation : Dialogue q r (Except Failure α)) (attempt : UInt32) :
    Except Failure α → Dialogue q r (Except Failure α)
  | .ok a => .done (.ok a)
  | .error e =>
    if e.isConflict = true ∧ attempt < b.attempts then
      (Dialogue.duration (b.delayAfter attempt)).bind fun delay =>
        .pause delay (b.loop operation (attempt + 1))
    else .done (.error e)

theorem loop_eq (b : Backoff) (operation : Dialogue q r (Except Failure α)) (attempt : UInt32) :
    b.loop operation attempt = operation.bind (b.afterCall operation attempt) := by
  by_cases hlt : attempt < b.attempts
  · have hnext := toNat_next hlt
    have hlt' := UInt32.lt_iff_toNat_lt.mp hlt
    have hfurther : b.attempts.toNat - attempt.toNat =
        b.attempts.toNat - (attempt + 1).toNat + 1 := by omega
    rw [loop, hfurther, retryFrom]
    congr 1
    funext result
    cases result with
    | ok a => rfl
    | error e => simp only [afterCall, hlt, and_true, loop]
  · have hlt' := mt UInt32.lt_iff_toNat_lt.mpr hlt
    have hfurther : b.attempts.toNat - attempt.toNat = 0 := by omega
    have hdone : b.afterCall operation attempt = done := by
      funext result
      cases result with
      | ok a => rfl
      | error e => simp only [afterCall, hlt, and_false, if_false]
    rw [loop, hfurther, retryFrom, hdone, bind_done_right]

/-! ## What one call leads to -/

/-- The call met a conflict. -/
def MeetsConflict (call : Ending σ (Except Failure α)) : Prop :=
  ∃ e, call.result = .ok (.error e) ∧ e.isConflict = true

/-- After a conflict and a pause the loop stands at the next attempt. -/
theorem reaches_next (hcall : MeetsConflict (operation.run answer clock state))
    (hlt : attempt < b.attempts) {delay : Duration} (hdelay : b.delayAfter attempt = .ok delay) :
    Reaches answer clock state (b.loop operation attempt)
      (operation.course answer clock state ++ [.paused delay])
      ((operation.run answer clock state).clock + pauseMillis delay)
      (operation.run answer clock state).state (b.loop operation (attempt + 1)) := by
  obtain ⟨e, hresult, hconflict⟩ := hcall
  have hrun : operation.run answer clock state = ⟨.ok (.error e),
      (operation.run answer clock state).clock, (operation.run answer clock state).state⟩ := by
    rw [← hresult]
  rw [loop_eq]
  refine (reaches_bind hrun _).trans ?_
  rw [afterCall, if_pos ⟨hconflict, hlt⟩, hdelay]
  exact .pause (.stay _ _ _)

/-- A call that met no conflict, or after which there is no attempt left, is the last one. -/
theorem loop_last (h : attempt < b.attempts → ¬ MeetsConflict (operation.run answer clock state)) :
    (b.loop operation attempt).run answer clock state = operation.run answer clock state ∧
      (b.loop operation attempt).course answer clock state =
        operation.course answer clock state := by
  rw [loop_eq]
  cases hresult : (operation.run answer clock state).result with
  | error fault =>
      refine ⟨?_, course_bind_of_error hresult _⟩
      rw [run_bind]
      split
      · rename_i hrun
        rw [hrun] at hresult
        cases hresult
      · rename_i hrun
        rw [hrun]
  | ok result =>
      have hdone : b.afterCall operation attempt result = done result := by
        cases result with
        | ok a => rfl
        | error e => exact if_neg fun ⟨hconflict, hlt⟩ => h hlt ⟨e, hresult, hconflict⟩
      have hrun : operation.run answer clock state = ⟨.ok result,
          (operation.run answer clock state).clock, (operation.run answer clock state).state⟩ := by
        rw [← hresult]
      have hreaches := reaches_bind hrun (b.afterCall operation attempt)
      rw [hdone] at hreaches
      constructor
      · rw [hreaches.run_eq, hrun]
        rfl
      · rw [hreaches.course_eq]
        exact List.append_nil _

/-- An operation that does not end in a conflict is called once. -/
theorem retry_settled {result : Except Failure α} {clock' : Nat} {state' : σ}
    (h : operation.run answer clock state = ⟨.ok result, clock', state'⟩)
    (hlast : ∀ e, result = .error e → e.isConflict = false) (b : Backoff) :
    (b.retry operation).run answer clock state = ⟨.ok result, clock', state'⟩ ∧
      (b.retry operation).course answer clock state = operation.course answer clock state := by
  have hsettled : ¬ MeetsConflict (operation.run answer clock state) := by
    rintro ⟨e, he, hconflict⟩
    rw [h] at he
    rw [hlast e (Except.ok.inj he)] at hconflict
    cases hconflict
  rw [retry_eq_loop, ← h]
  exact loop_last fun _ => hsettled

/-! ## All calls -/

/-- Calls of an operation one after the other, whatever each of them comes to. -/
structure Series (σ q r α : Type) where
  operation : Dialogue q r (Except Failure α)
  answer : Answerer σ q r
  /-- The pause after so many calls. -/
  delay : Nat → Duration
  /-- When the first call begins. -/
  clock : Nat
  state : σ

namespace Series

variable (s : Series σ q r α)

/-- The time and the state in which a call begins that comes after so many others. -/
def beginning : Nat → Nat × σ
  | 0 => (s.clock, s.state)
  | k + 1 =>
    let call := s.operation.run s.answer (beginning k).1 (beginning k).2
    (call.clock + pauseMillis (s.delay (k + 1)), call.state)

/-- How the call ends that comes after so many others. -/
def call (k : Nat) : Ending σ (Except Failure α) :=
  s.operation.run s.answer (s.beginning k).1 (s.beginning k).2

/-- What happens in the call that comes after so many others. -/
def during (k : Nat) : Course q r :=
  s.operation.course s.answer (s.beginning k).1 (s.beginning k).2

/-- What happens before the call that comes after so many others: each of these is followed by its
pause. -/
def before : Nat → Course q r
  | 0 => []
  | k + 1 => before k ++ (s.during k ++ [.paused (s.delay (k + 1))])

/-- Calls with these outcomes, which are all that is known of the operation. -/
def ofOutcomes (outcomes : Nat → Except Failure α) (delay : Nat → Duration) :
    Series Nat Unit (Except Failure α) α where
  operation := .query ()
  answer _ k _ := (outcomes k, k + 1)
  delay
  clock := 0
  state := 0

theorem state_beginning_ofOutcomes (outcomes : Nat → Except Failure α) (delay : Nat → Duration)
    (k : Nat) : ((ofOutcomes outcomes delay).beginning k).2 = k := by
  induction k with
  | zero => rfl
  | succ k ih => exact congrArg (· + 1) ih

/-- Any outcomes can come one after the other. -/
theorem result_call_ofOutcomes (outcomes : Nat → Except Failure α) (delay : Nat → Duration)
    (k : Nat) : ((ofOutcomes outcomes delay).call k).result = .ok (outcomes k) := by
  have hstate := state_beginning_ofOutcomes outcomes delay k
  show (Except.ok (outcomes ((ofOutcomes outcomes delay).beginning k).2) :
    Except Duration.Fault (Except Failure α)) = _
  rw [hstate]

end Series

/-- As long as there are conflicts and attempts, the loop comes to the next call, and its counter
is the number of that call. -/
theorem reaches_call (b : Backoff) (s : Series σ q r α)
    (hdelay : ∀ attempt : UInt32, 0 < attempt → attempt < b.attempts →
      b.delayAfter attempt = .ok (s.delay attempt.toNat)) {k : Nat}
    (hconflicts : ∀ j < k, MeetsConflict (s.call j)) (hk : k + 1 ≤ max 1 b.attempts.toNat) :
    ∃ attempt : UInt32, attempt.toNat = k + 1 ∧
      Reaches s.answer s.clock s.state (b.retry s.operation) (s.before k)
        (s.beginning k).1 (s.beginning k).2 (b.loop s.operation attempt) := by
  induction k with
  | zero =>
      rw [retry_eq_loop]
      exact ⟨1, rfl, .stay _ _ _⟩
  | succ k ih =>
      obtain ⟨attempt, hcounter, hreaches⟩ :=
        ih (fun j hj => hconflicts j (Nat.lt_succ_of_lt hj)) (by omega)
      have hlt : attempt < b.attempts := by
        rw [UInt32.lt_iff_toNat_lt]
        omega
      have hpos : 0 < attempt := by
        rw [UInt32.lt_iff_toNat_lt, hcounter]
        exact Nat.succ_pos k
      have hpause := hdelay attempt hpos hlt
      rw [hcounter] at hpause
      exact ⟨attempt + 1, by rw [toNat_next hlt, hcounter],
        hreaches.trans (reaches_next (hconflicts k (Nat.lt_succ_self k)) hlt hpause)⟩

/-- **Retrying is exact.** An operation is called until a call meets no conflict or the attempts
are used up, whichever comes first; it is called at least once. The result is that of the last
call, and nothing happens but the calls and, after each one but the last, the pause of its attempt.
The counter of the attempts is the number of the call, so it never goes beyond its range. -/
theorem retries_until_settled (b : Backoff) (s : Series σ q r α)
    (hdelay : ∀ attempt : UInt32, 0 < attempt → attempt < b.attempts →
      b.delayAfter attempt = .ok (s.delay attempt.toNat)) :
    ∃ k, IsLeast {k | k + 1 = max 1 b.attempts.toNat ∨ ¬ MeetsConflict (s.call k)} k ∧
      (b.retry s.operation).run s.answer s.clock s.state = s.call k ∧
      (b.retry s.operation).course s.answer s.clock s.state = s.before k ++ s.during k ∧
      ∀ j ≤ k, ∃ attempt : UInt32, attempt.toNat = j + 1 ∧
        Reaches s.answer s.clock s.state (b.retry s.operation) (s.before j)
          (s.beginning j).1 (s.beginning j).2 (b.loop s.operation attempt) := by
  classical
  have hsome : ∃ k, k + 1 = max 1 b.attempts.toNat ∨ ¬ MeetsConflict (s.call k) :=
    ⟨max 1 b.attempts.toNat - 1, Or.inl (by omega)⟩
  have hleast := Nat.isLeast_find hsome
  generalize Nat.find hsome = k at hleast
  have hconflicts : ∀ j < k, j + 1 ≠ max 1 b.attempts.toNat ∧ MeetsConflict (s.call j) := by
    intro j hj
    have hnot : ¬ (j + 1 = max 1 b.attempts.toNat ∨ ¬ MeetsConflict (s.call j)) :=
      fun h => absurd (hleast.2 h) (Nat.not_le.mpr hj)
    rwa [not_or, not_not] at hnot
  have hk : k + 1 ≤ max 1 b.attempts.toNat := by
    have hle : k ≤ max 1 b.attempts.toNat - 1 := hleast.2 (Or.inl (by omega))
    omega
  have hreaches : ∀ j ≤ k, ∃ attempt : UInt32, attempt.toNat = j + 1 ∧
      Reaches s.answer s.clock s.state (b.retry s.operation) (s.before j)
        (s.beginning j).1 (s.beginning j).2 (b.loop s.operation attempt) := by
    intro j hj
    exact reaches_call b s hdelay (fun i hi => (hconflicts i (by omega)).2) (by omega)
  obtain ⟨attempt, hcounter, hlast⟩ := hreaches k le_rfl
  have hstops : attempt < b.attempts → ¬ MeetsConflict (s.call k) := by
    intro hlt
    rw [UInt32.lt_iff_toNat_lt] at hlt
    exact hleast.1.resolve_left (by omega)
  obtain ⟨hrun, hcourse⟩ := loop_last hstops
  refine ⟨k, hleast, ?_, ?_, hreaches⟩
  · rw [hlast.run_eq, hrun]
    rfl
  · rw [hlast.course_eq, hcourse]
    rfl

/-- A write that met another one. -/
def overtaken : Failure := .writeStatus "cluster" (.api ⟨"Failure", "changed", "Conflict", 409⟩)

/-- Calls that meet two conflicts and then succeed. -/
def overtakenTwice : Series Nat Unit (Except Failure Bool) Bool :=
  .ofOutcomes (fun k => if k < 2 then .error overtaken else .ok true)
    fun k => .ofMillis (10 * Nat.pow 2 (k - 1))

/-- With the usual delays the third call comes after 10 and 20 milliseconds, and is the last. -/
theorem third_call_succeeds :
    (∀ attempt : UInt32, 0 < attempt → attempt < ({} : Backoff).attempts →
      ({} : Backoff).delayAfter attempt = .ok (overtakenTwice.delay attempt.toNat)) ∧
    (({} : Backoff).retry overtakenTwice.operation).course overtakenTwice.answer 0 0 =
      [.asked () (.error overtaken), .paused (.ofMillis 10), .asked () (.error overtaken),
        .paused (.ofMillis 20), .asked () (.ok true)] := by
  have hdelays : ∀ n < 5, 0 < n → (({} : Backoff).delayAfter (.ofNat n)).toOption =
      some (overtakenTwice.delay n) := by decide +kernel
  have hdelay : ∀ attempt : UInt32, 0 < attempt → attempt < ({} : Backoff).attempts →
      ({} : Backoff).delayAfter attempt = .ok (overtakenTwice.delay attempt.toNat) := by
    intro attempt hpos hlt
    rw [UInt32.lt_iff_toNat_lt] at hpos hlt
    refine eq_ok_of_toOption ?_
    rw [← hdelays attempt.toNat hlt hpos, UInt32.ofNat_toNat]
  refine ⟨hdelay, ?_⟩
  obtain ⟨k, hleast, _, hcourse, _⟩ := retries_until_settled {} overtakenTwice hdelay
  have hconflicts : ∀ j < 2, MeetsConflict (overtakenTwice.call j) := by
    intro j hj
    refine ⟨overtaken, ?_, rfl⟩
    rw [overtakenTwice, Series.result_call_ofOutcomes, if_pos hj]
  have hsuccess : ¬ MeetsConflict (overtakenTwice.call 2) := by
    rintro ⟨e, he, _⟩
    rw [overtakenTwice, Series.result_call_ofOutcomes] at he
    cases he
  have hlast : k = 2 := by
    have hle : k ≤ 2 := hleast.2 (Or.inr hsuccess)
    by_contra hne
    have hlt : k < 2 := by omega
    rcases hleast.1 with h | h
    · have hmost : max 1 ({} : Backoff).attempts.toNat = 5 := rfl
      omega
    · exact h (hconflicts k hlt)
  subst hlast
  exact hcourse

end Backoff

end SecretsWarden
