import SecretsWarden.Backoff
import SecretsWarden.Proofs.Dialogue.Course

/-!
# Tries of an operation

An operation that is tried again takes its course several times: every try but the last ends in a
conflict and is followed by a pause.
-/

namespace SecretsWarden.Backoff

open Dialogue

variable {q r α : Type} {b : Backoff} {operation : Dialogue q r (Except Failure α)}
  {P : Course q r → Except Failure α → Prop}

/-- The tries from an attempt on, when there may be `further` ones. -/
inductive Tries (b : Backoff) (P : Course q r → Except Failure α → Prop) :
    (further : Nat) → (attempt : UInt32) → Course q r →
      Except Duration.Fault (Except Failure α) → Prop where
  | last {further : Nat} {attempt : UInt32} {c : Course q r} {result : Except Failure α}
      (h : P c result) (hlast : ∀ e, result = .error e → e.isConflict = true → further = 0) :
      Tries b P further attempt c (.ok result)
  | again {further : Nat} {attempt : UInt32} {c rest : Course q r} {e : Failure}
      {delay : Duration} {out : Except Duration.Fault (Except Failure α)}
      (h : P c (.error e)) (hconflict : e.isConflict = true)
      (hdelay : b.delayAfter attempt = .ok delay)
      (hrest : Tries b P further (attempt + 1) rest out) :
      Tries b P (further + 1) attempt (c ++ .paused delay :: rest) out
  | stuck {further : Nat} {attempt : UInt32} {c : Course q r} {e : Failure}
      {fault : Duration.Fault} (h : P c (.error e))
      (hconflict : e.isConflict = true) (hdelay : b.delayAfter attempt = .error fault) :
      Tries b P (further + 1) attempt c (.error fault)

/-- The course of a retried operation consists of tries. -/
theorem tries_of_ends_retryFrom (hoperation : operation.Gives P) {further : Nat}
    {attempt : UInt32} {c : Course q r} {out : Except Duration.Fault (Except Failure α)}
    (h : Ends (b.retryFrom operation further attempt) c out) : b.Tries P further attempt c out := by
  induction further generalizing attempt c with
  | zero =>
      obtain ⟨result, rfl, hresult⟩ := hoperation h
      exact .last hresult fun _ _ _ => rfl
  | succ further ih =>
      obtain ⟨result, c₁, c₂, rfl, h₁, h₂⟩ := hoperation.ends_bind h
      cases result with
      | ok a =>
          obtain ⟨rfl, rfl⟩ := ends_done.mp h₂
          rw [List.append_nil]
          refine .last h₁ ?_
          intro e he
          cases he
      | error e =>
          by_cases hconflict : e.isConflict = true
          · simp only [hconflict, if_true] at h₂
            cases hdelay : b.delayAfter attempt with
            | error fault =>
                rw [hdelay] at h₂
                obtain ⟨rfl, rfl⟩ := ends_abort.mp h₂
                rw [List.append_nil]
                exact .stuck h₁ hconflict hdelay
            | ok delay =>
                rw [hdelay] at h₂
                obtain ⟨rest, rfl, hrest⟩ := ends_pause.mp h₂
                exact .again h₁ hconflict hdelay (ih hrest)
          · simp only [hconflict, Bool.false_eq_true, if_false] at h₂
            obtain ⟨rfl, rfl⟩ := ends_done.mp h₂
            rw [List.append_nil]
            refine .last h₁ fun e' he' hc => ?_
            cases he'
            exact absurd hc hconflict

/-- The result of all tries is that of the last one. -/
theorem Tries.last_try {further : Nat} {attempt : UInt32} {c : Course q r}
    {result : Except Failure α} (h : b.Tries P further attempt c (.ok result)) :
    ∃ earlier c', c = earlier ++ c' ∧ P c' result := by
  generalize hout : Except.ok result = out at h
  induction h with
  | @last _ _ c _ h hlast =>
      cases hout
      exact ⟨[], c, rfl, h⟩
  | stuck h hconflict hdelay => cases hout
  | @again _ _ c _ _ delay _ h hconflict hdelay hrest ih =>
      obtain ⟨earlier, c', rfl, hlast⟩ := ih hout
      exact ⟨c ++ .paused delay :: earlier, c', by simp, hlast⟩

/-! ## Delays that can be computed -/

/-- Each delay that may be needed can be computed. -/
def Unfailing (b : Backoff) : Prop :=
  ∀ attempt : UInt32, 0 < attempt → attempt < b.attempts →
    ∃ delay, b.delayAfter attempt = .ok delay

/-- Where a result is needed by its value, it is computed as an option. -/
theorem eq_ok_of_toOption {ε : Type} {x : Except ε α} {a : α} (h : x.toOption = some a) :
    x = .ok a := by
  cases x with
  | error e => cases h
  | ok a' => exact congrArg Except.ok (Option.some.inj h)

/-- The counter does not go beyond its range as long as there is another attempt. -/
theorem toNat_next {attempt : UInt32} (h : attempt < b.attempts) :
    (attempt + 1).toNat = attempt.toNat + 1 := by
  have hlt := UInt32.lt_iff_toNat_lt.mp h
  have hrange := b.attempts.toNat_lt
  rw [UInt32.toNat_add, UInt32.toNat_one]
  omega

/-- Then the tries come to a result. -/
theorem Tries.exists_ok (hb : b.Unfailing) {further : Nat} {attempt : UInt32} {c : Course q r}
    {out : Except Duration.Fault (Except Failure α)} (h : b.Tries P further attempt c out)
    (hattempt : 0 < attempt) (hfurther : further = b.attempts.toNat - attempt.toNat) :
    ∃ result, out = .ok result := by
  induction h with
  | last h hlast => exact ⟨_, rfl⟩
  | @again _ attempt _ _ _ _ _ h hconflict hdelay hrest ih =>
      have hlt : attempt < b.attempts := UInt32.lt_iff_toNat_lt.mpr (by omega)
      have hnext := toNat_next hlt
      refine ih (UInt32.lt_iff_toNat_lt.mpr ?_) ?_
      · rw [hnext]
        exact Nat.succ_pos _
      · rw [hnext]
        omega
  | @stuck _ attempt _ _ _ h hconflict hdelay =>
      have hlt : attempt < b.attempts := UInt32.lt_iff_toNat_lt.mpr (by omega)
      obtain ⟨delay, hok⟩ := hb attempt hattempt hlt
      rw [hdelay] at hok
      cases hok

end SecretsWarden.Backoff
