import SecretsWarden.Dialogue.Basic
import SecretsWarden.Failure

/-!
# Trying again after a conflict

An operation that meets a conflicting write is tried again, with growing delays, until it
succeeds, fails otherwise, or has been tried as often as it may be. It is tried at least
once.
-/

namespace SecretsWarden

/-- When a conflicting write is tried again. -/
structure Backoff where
  /-- How often in all, the first time included. -/
  attempts : UInt32 := 5
  firstDelay : Duration := .ofMillis 10
  longestDelay : Duration := .ofSeconds 1
  multiplier : Float := 2.0
  /-- The greatest share of a delay that is added to it. -/
  jitter : Float := 0.1
  /-- Which part of the jitter each attempt gets, from 0 up to but not including 1. -/
  noise : UInt32 → Float := fun _ => 0.0

namespace Backoff

def withoutDelay (attempts : UInt32) : Backoff where
  attempts
  firstDelay := .zero
  longestDelay := .zero
  multiplier := 1.0
  jitter := 0.0

/-- Multiplies `result` by the powers of `base` that make up `base ^ n`, squaring the base at
each binary digit of `n`. -/
def powerFrom (result base : Float) (n : Nat) : Float :=
  let result := if n % 2 = 1 then result * base else result
  if n / 2 = 0 then result else powerFrom result (base * base) (n / 2)
termination_by n

def power (base : Float) (n : Int) : Float :=
  let p := powerFrom 1.0 base n.natAbs
  if n < 0 then 1.0 / p else p

/-- The smaller one of two doubles; one that is no number does not count. -/
def smaller (a b : Float) : Float :=
  if a.isNaN then b else if b.isNaN then a else if b < a then b else a

/-- The exponent for an attempt: how many came before it, as a signed word of 32 bits. -/
def exponent (attempt : UInt32) : Int := Int.bmod (attempt.toNat - 1 : Nat) (Nat.pow 2 32)

/-- The delay before the attempt that follows a failed one; attempts count from 1. A jitter
without bounds gives no delay. -/
def delayAfter (b : Backoff) (attempt : UInt32) : Except Duration.Fault Duration :=
  let base := b.firstDelay.toFloat * power b.multiplier (exponent attempt)
  let capped := smaller base b.longestDelay.toFloat
  if b.jitter.isInf && 0.0 < b.jitter then .error .unbounded
  else
    Duration.ofFloat
      (if 0.0 < b.jitter then capped * (1.0 + b.jitter * b.noise attempt) else capped)

/-- Tries an operation, and after a conflict up to `further` times more. -/
def retryFrom (b : Backoff) (operation : Dialogue q r (Except Failure α)) :
    (further : Nat) → (attempt : UInt32) → Dialogue q r (Except Failure α)
  | 0, _ => operation
  | further + 1, attempt =>
    operation.bind fun
      | .ok a => .done (.ok a)
      | .error e =>
        if e.isConflict then
          (Dialogue.duration (b.delayAfter attempt)).bind fun delay =>
            .pause delay (b.retryFrom operation further (attempt + 1))
        else .done (.error e)

/-- Tries an operation as often as it may be tried, as long as it ends in a conflict. -/
def retry (b : Backoff) (operation : Dialogue q r (Except Failure α)) :
    Dialogue q r (Except Failure α) :=
  b.retryFrom operation (b.attempts.toNat - 1) 1

end Backoff

end SecretsWarden
