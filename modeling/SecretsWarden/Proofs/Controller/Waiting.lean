import SecretsWarden.Proofs.Controller.Schedule
import SecretsWarden.Proofs.Reconcile.Requeue

/-!
# Objects that wait for a pass

An object waits for at most one pass at a time, whatever its controller is told and however often a
pass on it fails. And no failure is left alone: when a pass gives way with a failure, its object
waits for another one, and no longer than the delay after a failure.
-/

namespace SecretsWarden.Controller

open Cluster Dialogue Reconcile Resource

/-! ## One controller -/

namespace Post

/-- No object waits twice. -/
def Single (q : Post) : Prop := (q.due.map Prod.snd).Nodup

variable {q q' : Post} {clock time : Nat} {key : Key}

theorem foldl_min_le (times : List Nat) (n : Nat) : times.foldl min n ≤ n := by
  induction times generalizing n with
  | nil => exact Nat.le_refl n
  | cons time rest ih => exact (ih (min n time)).trans (Nat.min_le_left n time)

theorem role_schedule (time : Nat) (key : Key) (q : Post) : (q.schedule time key).role = q.role :=
  rfl

/-- An object that is put in wait waits no longer than it shall. -/
theorem waits_schedule (time : Nat) (key : Key) (q : Post) :
    ∃ earliest ≤ time, (earliest, key) ∈ (q.schedule time key).due :=
  ⟨_, foldl_min_le _ time, List.mem_append_right _ List.mem_cons_self⟩

theorem Single.schedule (h : q.Single) (time : Nat) (key : Key) : (q.schedule time key).Single := by
  unfold Single Post.schedule
  rw [List.map_append]
  refine List.nodup_append.mpr ⟨h.sublist (List.filter_sublist.map _), by simp, ?_⟩
  intro a ha b hb
  obtain ⟨waiting, hmem, rfl⟩ := List.mem_map.mp ha
  rw [List.mem_singleton.mp hb]
  simpa using (List.mem_filter.mp hmem).2

theorem requeue_eq_ok (h : q.requeue time key = .ok q') : q' = q.schedule time key := by
  unfold requeue at h
  split at h <;> cases h
  rfl

/-- Whatever a controller is told, it keeps to its role, and no object waits twice. -/
theorem notice_keeps {n : Notice Meta} (h : q.notice clock n = .ok q') :
    q'.role = q.role ∧ (q.Single → q'.Single) := by
  cases n with
  | begun =>
      cases h
      exact ⟨rfl, id⟩
  | complete =>
      cases h
      exact ⟨rfl, id⟩
  | listed m =>
      cases hkey : m.key? <;> simp only [notice, hkey] at h <;> cases h
      exact ⟨rfl, fun hq => hq.schedule _ _⟩
  | applied m =>
      cases hkey : m.key? <;> simp only [notice, hkey] at h <;> cases h
      exact ⟨rfl, fun hq => hq.schedule _ _⟩
  | deleted m =>
      cases hkey : m.key? <;> simp only [notice, hkey] at h <;> cases h
      exact ⟨rfl, id⟩

theorem notices_keep {notices : List (Notice Meta)}
    (h : notices.foldlM (Post.notice clock) q = .ok q') :
    q'.role = q.role ∧ (q.Single → q'.Single) := by
  induction notices generalizing q with
  | nil =>
      cases h
      exact ⟨rfl, id⟩
  | cons n rest ih =>
      rw [List.foldlM_cons] at h
      obtain ⟨q'', hfirst, hrest⟩ := Except.bind_eq_ok.mp h
      obtain ⟨hrole, hsingle⟩ := notice_keeps hfirst
      obtain ⟨hrole', hsingle'⟩ := ih hrest
      exact ⟨hrole'.trans hrole, hsingle' ∘ hsingle⟩

end Post

/-! ## Both controllers -/

/-- Each controller is at its post, and no object waits twice. -/
def Kept {σ : Type} (s : State σ) : Prop :=
  ∀ role, (s.post role).role = role ∧ (s.post role).Single

variable {σ : Type} {setup : Setup} {answer : Answerer σ Request Reply} {s s' : State σ} {job : Job}
  {q : Post} {d : Session (Except Failure Unit)}

theorem post_withPost_self (q : Post) (s : State σ) : (s.withPost q).post q.role = q := by
  unfold State.withPost State.post
  cases q.role <;> rfl

theorem Kept.withPost (h : Kept s) (hq : q.Single) : Kept (s.withPost q) := by
  intro role
  by_cases hrole : role = q.role
  · rw [hrole, post_withPost_self]
    exact ⟨rfl, hq⟩
  · have hother : (s.withPost q).post role = s.post role := by
      revert hrole
      unfold State.withPost State.post
      cases q.role <;> cases role <;> simp
    rw [hother]
    exact h role

theorem kept_start (setup : Setup) (server : σ) (clock : Nat) :
    Kept (State.start setup server clock) := by
  intro role
  cases role <;> exact ⟨rfl, .nil⟩

/-- What has become of a pass that gives way: it is over, or it pauses. If it has failed, its object
waits until some time at most. -/
inductive GivesWay (job : Job) (clock most : Nat) (s : State σ) :
    Session (Except Failure Unit) → Prop where
  | succeeded : GivesWay job clock most s (.done (.ok ()))
  | failed {failure : Failure} {time : Nat} (hdue : (time, job.key) ∈ (s.post job.role).due)
      (htime : time ≤ most) : GivesWay job clock most s (.done (.error failure))
  | pauses {time : Duration} {next : Session (Except Failure Unit)}
      (hmem : ⟨job, clock + pauseMillis time, next⟩ ∈ s.paused) :
      GivesWay job clock most s (.pause time next)
  | broken (fault : Duration.Fault) : GivesWay job clock most s (.abort fault)

theorem millisCeil_delayAfter_le (failure : Failure) (failureDelay : Duration) :
    (delayAfter failure failureDelay).millisCeil ≤ failureDelay.millisCeil := by
  have hle : (delayAfter failure failureDelay).nanoseconds ≤ failureDelay.nanoseconds := by
    unfold delayAfter
    split
    · exact Duration.min_le_right _ _
    · exact Nat.le_refl _
  exact Nat.div_le_div_right (Nat.add_le_add_right hle _)

/-- **No failure is left alone.** A pass goes on until it is over or pauses. If it fails, its object
waits for another pass then, and no longer than the delay after a failure. No object waits twice. -/
theorem proceed_gives_way (hkept : Kept s) (hproceed : proceed setup answer job s d = .ok s') :
    Kept s' ∧ ∃ c left, Leads d c left ∧
      GivesWay job s.clock (s.clock + setup.failureDelay.millisCeil) s' left := by
  induction d generalizing s with
  | done result =>
      cases result with
      | ok u =>
          cases hproceed
          exact ⟨hkept, [], _, .stay _, .succeeded⟩
      | error failure =>
          obtain ⟨q, hrequeue, hq⟩ := Except.bind_eq_ok.mp hproceed
          obtain rfl := Except.ok.inj hq
          obtain rfl := Post.requeue_eq_ok hrequeue
          obtain ⟨hrole, hsingle⟩ := hkept job.role
          refine ⟨hkept.withPost (hsingle.schedule _ _), [], _, .stay _, ?_⟩
          obtain ⟨time, htime, hdue⟩ := Post.waits_schedule
            (s.clock + (delayAfter failure setup.failureDelay).millisCeil) job.key (s.post job.role)
          have hpost := post_withPost_self ((s.post job.role).schedule
            (s.clock + (delayAfter failure setup.failureDelay).millisCeil) job.key) s
          rw [Post.role_schedule, hrole] at hpost
          rw [← hpost] at hdue
          exact .failed hdue
            (htime.trans (Nat.add_le_add_left (millisCeil_delayAfter_le _ _) s.clock))
  | abort fault =>
      cases hproceed
      exact ⟨hkept, [], _, .stay _, .broken fault⟩
  | pause time next ih =>
      rw [proceed] at hproceed
      split at hproceed
      · obtain ⟨hkept', c, left, hleads, hway⟩ := ih hkept hproceed
        exact ⟨hkept', _, left, .pause hleads, hway⟩
      · cases hproceed
        exact ⟨hkept, [], _, .stay _, .pauses (List.mem_append_right _ List.mem_cons_self)⟩
  | ask request next ih =>
      obtain ⟨hkept', c, left, hleads, hway⟩ :=
        ih _ (s := { s with server := (answer s.clock s.server request).2 }) hkept hproceed
      exact ⟨hkept', _, left, .ask hleads, hway⟩

/-! ## A run -/

theorem kept_watch (hkept : Kept s) (role : Role)
    (hwatch : s.watch answer (s.post role) = .ok s') : Kept s' := by
  rw [State.watch] at hwatch
  split at hwatch
  · obtain ⟨q, hnotices, hq⟩ := Except.bind_eq_ok.mp hwatch
    obtain rfl := Except.ok.inj hq
    have hsingle := (Post.notices_keep hnotices).2 (hkept role).2
    exact Kept.withPost hkept hsingle
  · cases hwatch
    exact hkept

theorem kept_begin (hkept : Kept s) (hbegin : s.begin setup answer job = .ok s') : Kept s' := by
  have hwithout : Kept (s.withPost { s.post job.role with
      due := (s.post job.role).due.filter (·.2 ≠ job.key), lastBegin := s.clock }) :=
    hkept.withPost ((hkept job.role).2.sublist (List.filter_sublist.map _))
  rw [State.begin] at hbegin
  split at hbegin
  · exact (proceed_gives_way hwithout hbegin).1
  · cases hbegin
    exact hwithout

theorem kept_take (hkept : Kept s) (t : Turn) (htake : s.take setup answer t = .ok s') :
    Kept s' := by
  cases t with
  | watch role => exact kept_watch hkept role htake
  | begin job => exact kept_begin hkept htake
  | resume pass =>
      have hresumed : Kept { s with paused := s.paused.filter (·.job ≠ pass.job) } := hkept
      exact (proceed_gives_way hresumed htake).1

/-- **An object waits for at most one pass**, at any time of a run. -/
theorem kept_run (hkept : Kept s) {deadline turns : Nat}
    (hrun : s.run setup answer deadline turns = .ok s') : Kept s' := by
  refine State.run_keeps ?_ hkept hrun
  intro s t clock s' hs _ htake
  have hnow : Kept { s with clock } := hs
  exact kept_take hnow t htake

end SecretsWarden.Controller
