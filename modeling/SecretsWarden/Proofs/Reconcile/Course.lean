import SecretsWarden.Proofs.Injection.Sweep
import SecretsWarden.Proofs.StatusRecord.Cycle
import SecretsWarden.Reconcile

/-!
# The course of a pass

A pass reads the configuration object, annotates and records. Each part has its own account of
what is asked in it; here they are put together.
-/

namespace SecretsWarden

/-- The failure is, at least in part, one of recording the outcome. -/
def Failure.ofRecording : Failure → Bool
  | .writeStatus .. | .withStatus .. => true
  | _ => false

theorem Failure.combine_ok (operation : Except Failure Unit) :
    combine operation (.ok ()) = operation := by
  cases operation <;> rfl

/-- The outcome is a failure, and none of recording. -/
def failedBeforeRecording : Except Failure Unit → Bool
  | .ok _ => false
  | .error failure => !failure.ofRecording

theorem failedBeforeRecording_iff {outcome : Except Failure Unit} :
    failedBeforeRecording outcome = true ↔
      ∃ failure, outcome = .error failure ∧ failure.ofRecording = false := by
  cases outcome <;> simp [failedBeforeRecording]

namespace Reconcile

open Cluster Dialogue Injection Resource StatusRecord

variable {backoff : Backoff} {now : String} {target : Target} {config : SecretsConfig}
  {c : Course Request Reply}

/-- The second part of a pass, for all managed definitions or for one name. -/
inductive Synchronizes (target : Target) : Course Request Reply → Except Failure Unit → Prop where
  | all {c : Course Request Reply} {result : Except Failure Nat}
      (hall : target.concernsAll = true) (h : SweepsAll c result) :
      Synchronizes target c (result.map fun _ => ())
  | named {c : Course Request Reply} {result : Except Failure Unit}
      (hall : target.concernsAll = false) (h : AnnotatesNamed target.name c result) :
      Synchronizes target c result

theorem gives_synchronize (target : Target) :
    (synchronize target).Gives (Synchronizes target) := by
  unfold synchronize
  cases hall : target.concernsAll with
  | true =>
      rw [if_pos rfl]
      exact gives_annotateAll.map fun _ _ h => .all hall h
  | false =>
      rw [if_neg Bool.false_ne_true]
      exact (gives_annotateNamed target.name).imp fun _ _ h => .named hall h

/-- What a pass asks, and how it ends. -/
inductive Passes (backoff : Backoff) (now : String) (target : Target) :
    Course Request Reply → Except Duration.Fault (Except Failure Unit) → Prop where
  | unread {c : Course Request Reply} {read : Except Error SecretsConfig} {e : Error}
      (h : Exchanged SecretsConfig.reader
        (Request.read SecretsConfig.path SecretsConfig.singleton) c read)
      (hread : absent? read = .error e) :
      Passes backoff now target c (.ok (.error (.readConfig SecretsConfig.singleton e)))
  | absent {c : Course Request Reply} {read : Except Error SecretsConfig}
      (h : Exchanged SecretsConfig.reader
        (Request.read SecretsConfig.path SecretsConfig.singleton) c read)
      (hread : absent? read = .ok none) : Passes backoff now target c (.ok (.ok ()))
  | disabled {c : Course Request Reply} {config : SecretsConfig}
      (h : Exchanged SecretsConfig.reader
        (Request.read SecretsConfig.path SecretsConfig.singleton) c (.ok config))
      (hinject : config.spec.injectAnnotations = false) :
      Passes backoff now target c (.ok (.ok ()))
  | enabled {c₁ c₂ c₃ : Course Request Reply} {config : SecretsConfig}
      {outcome : Except Failure Unit} {status : Except Duration.Fault (Except Failure Bool)}
      (h : Exchanged SecretsConfig.reader
        (Request.read SecretsConfig.path SecretsConfig.singleton) c₁ (.ok config))
      (hinject : config.spec.injectAnnotations = true)
      (hsynchronizes : Synchronizes target c₂ outcome)
      (hrecord : Ends (record backoff now config conditionType outcome upToDate) c₃ status) :
      Passes backoff now target (c₁ ++ (c₂ ++ c₃))
        (status.map fun s => Failure.combine outcome (s.map fun _ => ()))

theorem ends_conclude {outcome : Except Failure Unit}
    {out : Except Duration.Fault (Except Failure Unit)}
    (h : Ends (conclude backoff now config outcome) c out) :
    ∃ status, Ends (record backoff now config conditionType outcome upToDate) c status ∧
      out = status.map fun s => Failure.combine outcome (s.map fun _ => ()) := by
  rw [conclude, Dialogue.ends_bind] at h
  rcases h with ⟨status, c₁, c₂, rfl, h₁, h₂⟩ | ⟨fault, rfl, h⟩
  · obtain ⟨rfl, rfl⟩ := ends_done.mp h₂
    rw [List.append_nil]
    exact ⟨_, h₁, rfl⟩
  · exact ⟨_, h, rfl⟩

theorem passes_of_ends {out : Except Duration.Fault (Except Failure Unit)}
    (h : Ends (pass backoff now target) c out) : Passes backoff now target c out := by
  obtain ⟨_, c₁, c₂, rfl, ⟨read, rfl, hexchanged⟩, h₂⟩ := (gives_getOptional _ _ _).ends_bind h
  cases hread : absent? read with
  | error e =>
      simp only [hread] at h₂
      obtain ⟨rfl, rfl⟩ := ends_done.mp h₂
      rw [List.append_nil]
      exact .unread hexchanged hread
  | ok found =>
      cases found with
      | none =>
          simp only [hread] at h₂
          obtain ⟨rfl, rfl⟩ := ends_done.mp h₂
          rw [List.append_nil]
          exact .absent hexchanged hread
      | some config =>
          simp only [hread, passOn] at h₂
          have hconfig := absent?_eq_some hread
          subst hconfig
          cases hinject : config.spec.injectAnnotations with
          | false =>
              rw [hinject, if_neg Bool.false_ne_true] at h₂
              obtain ⟨rfl, rfl⟩ := ends_done.mp h₂
              rw [List.append_nil]
              exact .disabled hexchanged hinject
          | true =>
              rw [hinject, if_pos rfl] at h₂
              obtain ⟨outcome, c₂, c₃, rfl, hsynchronizes, h₃⟩ :=
                (gives_synchronize target).ends_bind h₂
              obtain ⟨status, hrecord, rfl⟩ := ends_conclude h₃
              exact .enabled hexchanged hinject hsynchronizes hrecord

end Reconcile

end SecretsWarden
