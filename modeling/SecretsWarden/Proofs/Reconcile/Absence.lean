import SecretsWarden.Proofs.Cluster.ApiServer
import SecretsWarden.Proofs.Reconcile.Phases

/-!
# Two signs of absence

A pass reads the configuration object at its beginning and again when it records its outcome. That
there is no such object is no failure in either place. But the first reading goes by the reason
that an error states, and the second one by its status code, which is what tells absence everywhere
else. An API server that speaks for itself gives both or neither. An answer that is none of its
error objects states no reason at all: if it comes with the status 404, the first reading fails and
the second one finds nothing to record.
-/

namespace SecretsWarden.Reconcile

open Dialogue Cluster ApiServer Resource StatusRecord

variable {σ : Type} {answer : Answerer σ Request Reply} {clock : Nat} {state : σ} {e : Error}

/-! ## Errors and answers -/

/-- Reason and code are the same sign unless one of them is there without the other. -/
theorem saysNotFound_eq_isNotFound_iff :
    e.saysNotFound = e.isNotFound ↔ ∀ s, e = .api s → (s.reason = "NotFound" ↔ s.code = 404) := by
  cases e with
  | api s =>
      rw [Bool.eq_iff_iff]
      simp [Error.saysNotFound, Error.isNotFound]
  | _ => simp [Error.saysNotFound, Error.isNotFound]

/-- An answer by no error object, with a text in its place. -/
theorem receive_unspoken {α : Type} (reader : Json.Reader α) {status : Nat} {body : Body}
    {text : String} (hstatus : isFailure status = true) (htext : body.text = .ok text)
    (hbody : body.read? Status.reader text = none) :
    ∃ e, (Reply.answered status body).receive reader = .error e ∧ e.saysNotFound = false ∧
      e.isNotFound = decide (status = 404) := by
  refine ⟨errorOf status body text, ?_, ?_, ?_⟩
  · simp only [Reply.receive, htext, hstatus, if_true]
  · rw [errorOf, hbody]
    rfl
  · rw [errorOf, hbody]
    rfl

/-! ## The two readings -/

/-- A pass that cannot read the configuration object ends there. -/
theorem pass_unread
    (h : (answer clock state firstRequest).1.receive SecretsConfig.reader = .error e)
    (backoff : Backoff) (now : String) (target : Target) :
    (pass backoff now target).run answer clock state =
        ⟨.ok (if e.saysNotFound then .ok () else .error (.readConfig SecretsConfig.singleton e)),
          clock, (answer clock state firstRequest).2⟩ ∧
      (pass backoff now target).course answer clock state =
        [.asked firstRequest (answer clock state firstRequest).1] := by
  have hnext : afterReading backoff now target
      (absent? ((answer clock state firstRequest).1.receive SecretsConfig.reader)) =
        .done (if e.saysNotFound then .ok ()
          else .error (.readConfig SecretsConfig.singleton e)) := by
    rw [h, absent?]
    cases e.saysNotFound <;> rfl
  rw [pass_eq, Dialogue.run, Dialogue.course]
  simp only [hnext, Dialogue.run, Dialogue.course, and_self]

/-- A try at recording that cannot read the configuration object ends there. -/
theorem update_unread
    (h : (answer clock state firstRequest).1.receive SecretsConfig.reader = .error e)
    (condition : Condition) :
    (update SecretsConfig.singleton condition).run answer clock state =
        ⟨.ok (if e.isNotFound then .ok false
            else .error (.writeStatus SecretsConfig.singleton e)),
          clock, (answer clock state firstRequest).2⟩ ∧
      (update SecretsConfig.singleton condition).course answer clock state =
        [.asked firstRequest (answer clock state firstRequest).1] := by
  have hread : Request.read SecretsConfig.path SecretsConfig.singleton = .ok firstRequest := rfl
  rw [update, Cluster.get, hread]
  simp only [sendBuilt, send, Dialogue.bind, Dialogue.run, Dialogue.course, h, and_self]

/-- **Absence by reason and by code.** A reading of the configuration object that fails is the only
request of a pass, or of a try at recording, that begins with it. The pass takes the object for
absent exactly if the error gives that as its reason, and the try exactly if the error has the
status code 404; any other error is that of the pass, or of the try. So they agree exactly about
errors that give that reason if and only if they have that code. They do not agree about a status
404 that comes without an error object of the API server. -/
theorem absence_by_reason_and_by_code
    (h : (answer clock state firstRequest).1.receive SecretsConfig.reader = .error e)
    (backoff : Backoff) (now : String) (target : Target) (condition : Condition) :
    (pass backoff now target).run answer clock state =
        ⟨.ok (if e.saysNotFound then .ok () else .error (.readConfig SecretsConfig.singleton e)),
          clock, (answer clock state firstRequest).2⟩ ∧
      (update SecretsConfig.singleton condition).run answer clock state =
        ⟨.ok (if e.isNotFound then .ok false
            else .error (.writeStatus SecretsConfig.singleton e)),
          clock, (answer clock state firstRequest).2⟩ ∧
      (pass backoff now target).course answer clock state =
        [.asked firstRequest (answer clock state firstRequest).1] ∧
      (update SecretsConfig.singleton condition).course answer clock state =
        [.asked firstRequest (answer clock state firstRequest).1] ∧
      ((((pass backoff now target).run answer clock state).result = .ok (.ok ()) ↔
          ((update SecretsConfig.singleton condition).run answer clock state).result =
            .ok (.ok false)) ↔
        ∀ s, e = .api s → (s.reason = "NotFound" ↔ s.code = 404)) ∧
      ∀ status body text, (answer clock state firstRequest).1 = .answered status body →
        isFailure status = true → body.text = .ok text → body.read? Status.reader text = none →
          e.saysNotFound = false ∧ e.isNotFound = decide (status = 404) := by
  obtain ⟨hpass, hpassCourse⟩ := pass_unread h backoff now target
  obtain ⟨hupdate, hupdateCourse⟩ := update_unread h condition
  refine ⟨hpass, hupdate, hpassCourse, hupdateCourse, ?_, ?_⟩
  · rw [hpass, hupdate, ← saysNotFound_eq_isNotFound_iff]
    cases e.saysNotFound <;> cases e.isNotFound <;> simp
  · intro status body text hanswer hstatus htext hbody
    obtain ⟨e', he', hreason, hcode⟩ :=
      receive_unspoken SecretsConfig.reader hstatus htext hbody
    rw [hanswer] at h
    cases he'.symm.trans h
    exact ⟨hreason, hcode⟩

/-- Where the API server speaks for itself, both readings take the object for absent. -/
theorem absent_for_both_readings :
    ((pass {} "2024-05-01T10:00:00Z" .all).run (fun _ _ _ => (absence, ())) 0 ()).result =
        .ok (.ok ()) ∧
      ((update SecretsConfig.singleton ⟨conditionType, "True", none, none, none, none⟩).run
        (fun _ _ _ => (absence, ())) 0 ()).result = .ok (.ok false) := by
  have h : absence.receive SecretsConfig.reader =
      .error (.api ⟨"Failure", "", "NotFound", 404⟩) := rfl
  obtain ⟨hpass, hupdate, _⟩ := @absence_by_reason_and_by_code Unit (fun _ _ _ => (absence, ()))
    0 () _ h {} "2024-05-01T10:00:00Z" .all ⟨conditionType, "True", none, none, none, none⟩
  constructor
  · rw [hpass]
    rfl
  · rw [hupdate]
    rfl

/-- The answer where the group of the configuration object is not served. -/
def unserved : Reply := .answered 404 (.bytes "404 page not found\n".toUTF8.toList)

/-- A group that is not served is a failure for the first reading, and absence for the second. -/
theorem unserved_for_either_reading :
    (∃ e, ((pass {} "2024-05-01T10:00:00Z" .all).run (fun _ _ _ => (unserved, ())) 0 ()).result =
        .ok (.error (.readConfig SecretsConfig.singleton e))) ∧
      ((update SecretsConfig.singleton ⟨conditionType, "True", none, none, none, none⟩).run
        (fun _ _ _ => (unserved, ())) 0 ()).result = .ok (.ok false) := by
  have htext : (Body.bytes "404 page not found\n".toUTF8.toList).text =
      .ok "404 page not found\n" := by decide +kernel
  have hbody : (Body.bytes "404 page not found\n".toUTF8.toList).read? Status.reader
      "404 page not found\n" = none := by decide +kernel
  have hfailure : isFailure 404 = true := rfl
  obtain ⟨e, h, hreason, hcode⟩ := receive_unspoken SecretsConfig.reader hfailure htext hbody
  obtain ⟨hpass, _⟩ := @pass_unread Unit (fun _ _ _ => (unserved, ())) 0 () e h {}
    "2024-05-01T10:00:00Z" .all
  obtain ⟨hupdate, _⟩ := @update_unread Unit (fun _ _ _ => (unserved, ())) 0 () e h
    ⟨conditionType, "True", none, none, none, none⟩
  constructor
  · refine ⟨e, ?_⟩
    rw [hpass, hreason]
    rfl
  · rw [hupdate, hcode]
    rfl

end SecretsWarden.Reconcile
