import Mathlib.Algebra.Group.Nat.Defs
import SecretsWarden.Proofs.Cluster.Discovery
import SecretsWarden.Proofs.Dialogue.Calls

/-!
# Waiting until a kind is served

Waiting for a kind is a loop with one way out, the look that finds the kind. Any other look, be it
that nothing was found or that it failed, is followed by a pause, and each pause is twice as long as
the one before it, up to a limit. The loop itself has no end; where it is cut off after a number of
looks, that number is any one, so what is said here holds of the loop as long as it goes on.
-/

namespace SecretsWarden.Cluster

open Dialogue Backoff Discovery

variable {σ : Type}

/-! ## Intervals -/

/-- The interval with which the loop comes to the look after so many others, in seconds. -/
def intervalAfter : Nat → UInt64
  | 0 => firstWait
  | k + 1 => nextWait (intervalAfter k)

theorem toNat_min (a b : UInt64) : (min a b).toNat = min a.toNat b.toNat := by
  show (if a ≤ b then a else b).toNat = _
  by_cases h : a ≤ b
  · have hle := UInt64.le_iff_toNat_le.mp h
    rw [if_pos h, Nat.min_eq_left hle]
  · have hlt := mt UInt64.le_iff_toNat_le.mpr h
    rw [if_neg h, Nat.min_eq_right (by omega)]

/-- An interval within the limit is not too large to be doubled. -/
theorem toNat_nextWait {seconds : UInt64} (h : seconds.toNat ≤ 60) :
    (nextWait seconds).toNat = min (seconds.toNat * 2) 60 := by
  have hdouble : (seconds * 2).toNat = seconds.toNat * 2 := by
    rw [UInt64.toNat_mul]
    apply Nat.mod_eq_of_lt
    show seconds.toNat * 2 < 2 ^ 64
    omega
  rw [nextWait, toNat_min, hdouble]
  rfl

theorem toNat_intervalAfter (k : Nat) : (intervalAfter k).toNat = min (10 * 2 ^ k) 60 := by
  induction k with
  | zero => rfl
  | succ k ih =>
      have hmost : (intervalAfter k).toNat ≤ 60 := by
        rw [ih]
        exact Nat.min_le_right _ _
      rw [intervalAfter, toNat_nextWait hmost, ih, Nat.pow_succ]
      omega

/-! ## Looks -/

/-- Who waits: for which kind, who answers, and the time and the state at first. -/
structure Wait (σ : Type) where
  id : KindId
  answer : Answerer σ Request Reply
  clock : Nat
  state : σ

namespace Wait

variable (w : Wait σ)

/-- The looks for the kind one after the other, with the pauses that are meant to be between
them. -/
def looks : Series σ Request Reply Bool where
  operation := (serves w.id).bind fun found => .done (found.mapError Failure.request)
  answer := w.answer
  delay k := .ofSeconds (min (10 * 2 ^ (k - 1)) 60)
  clock := w.clock
  state := w.state

/-- The look after so many others ends without an error, and in it the server lists the kind. -/
def Sees (k : Nat) : Prop :=
  (∃ found, (w.looks.call k).result = .ok (.ok found)) ∧ Lists (w.looks.during k) w.id

/-- The look after so many others finds the kind. -/
def Finds (k : Nat) : Prop := (w.looks.call k).result = .ok (.ok true)

theorem during_looks (k : Nat) :
    w.looks.during k =
      (serves w.id).course w.answer (w.looks.beginning k).1 (w.looks.beginning k).2 :=
  course_bind_done w.answer (serves w.id) _ _ _

/-- A look comes to an answer, and an error is one. -/
theorem exists_run_look (k : Nat) :
    ∃ found, (serves w.id).run w.answer (w.looks.beginning k).1 (w.looks.beginning k).2 =
        ⟨.ok found, (w.looks.call k).clock, (w.looks.call k).state⟩ ∧
      (w.looks.call k).result = .ok (found.mapError Failure.request) := by
  obtain ⟨found, clock', state', hrun⟩ := (completes_serves w.id).exists_run w.answer
    (w.looks.beginning k).1 (w.looks.beginning k).2
  have hcall : w.looks.call k = ⟨.ok (found.mapError Failure.request), clock', state'⟩ := by
    show ((serves w.id).bind fun found => .done (found.mapError Failure.request)).run w.answer
      (w.looks.beginning k).1 (w.looks.beginning k).2 = _
    rw [run_bind, hrun]
    rfl
  rw [hcall]
  exact ⟨found, hrun, rfl⟩

theorem run_look_of_finds {k : Nat} (h : w.Finds k) :
    (serves w.id).run w.answer (w.looks.beginning k).1 (w.looks.beginning k).2 =
      ⟨.ok (.ok true), (w.looks.call k).clock, (w.looks.call k).state⟩ := by
  obtain ⟨found, hrun, hresult⟩ := w.exists_run_look k
  rw [Finds, hresult] at h
  cases found with
  | error e => cases h
  | ok b =>
      cases h
      exact hrun

/-- There is no pause within a look. It finds nothing that is not listed, and what is listed if
nothing else is said of it. -/
theorem look_learns (k : Nat) :
    pauses (w.looks.during k) = [] ∧ (w.Finds k → w.Sees k) ∧
      (Consistent (w.looks.during k) w.id.group → w.Sees k → w.Finds k) := by
  obtain ⟨found, hrun, hresult⟩ := w.exists_run_look k
  obtain ⟨found', hfound', hpauses, hlists⟩ := learns_serves w.id
    (ends_run w.answer (serves w.id) (w.looks.beginning k).1 (w.looks.beginning k).2)
  rw [← during_looks] at hpauses hlists
  rw [hrun] at hfound'
  cases hfound'
  refine ⟨hpauses, ?_⟩
  unfold Finds Sees
  rw [hresult]
  cases found with
  | error e =>
      constructor
      · rintro ⟨⟩
      · rintro _ ⟨⟨b, ⟨⟩⟩, _⟩
  | ok b =>
      obtain ⟨hsound, hcomplete⟩ := hlists b rfl
      constructor
      · rintro ⟨⟩
        exact ⟨⟨true, rfl⟩, hsound rfl⟩
      · rintro hconsistent ⟨_, hlisted⟩
        rw [hcomplete hconsistent hlisted]
        rfl

/-! ## The loop -/

/-- What the loop does after a look. -/
def afterLook (id : KindId) (looks : Nat) (interval : UInt64) :
    Except Error Bool → Session Bool
  | .ok true => .done true
  | _ => .pause (.ofSeconds interval.toNat) (awaitKindFrom id looks (nextWait interval))

theorem awaitKindFrom_succ (id : KindId) (looks : Nat) (interval : UInt64) :
    awaitKindFrom id (looks + 1) interval = (serves id).bind (afterLook id looks interval) :=
  rfl

theorem afterLook_of_ne {id : KindId} {looks : Nat} {interval : UInt64}
    {found : Except Error Bool} (h : found ≠ .ok true) :
    afterLook id looks interval found =
      .pause (.ofSeconds interval.toNat) (awaitKindFrom id looks (nextWait interval)) := by
  unfold afterLook
  split
  · exact absurd rfl h
  · rfl

/-- A look that does not find the kind is followed by a pause and the next look. -/
theorem reaches_nextLook {k : Nat} (h : ¬ w.Finds k) (looks : Nat) :
    Reaches w.answer (w.looks.beginning k).1 (w.looks.beginning k).2
      (awaitKindFrom w.id (looks + 1) (intervalAfter k))
      (w.looks.during k ++ [.paused (w.looks.delay (k + 1))])
      (w.looks.beginning (k + 1)).1 (w.looks.beginning (k + 1)).2
      (awaitKindFrom w.id looks (intervalAfter (k + 1))) := by
  obtain ⟨found, hrun, hresult⟩ := w.exists_run_look k
  have hne : found ≠ .ok true := by
    rintro rfl
    exact h hresult
  have hdelay : w.looks.delay (k + 1) = .ofSeconds (intervalAfter k).toNat := by
    rw [toNat_intervalAfter]
    rfl
  have hlook := reaches_bind hrun (afterLook w.id looks (intervalAfter k))
  rw [afterLook_of_ne hne, ← during_looks] at hlook
  rw [awaitKindFrom_succ, hdelay]
  refine hlook.trans (.pause ?_)
  rw [← hdelay]
  exact .stay _ _ _

/-- As long as no look finds the kind, the loop comes to the next one. -/
theorem reaches_look {k : Nat} (h : ∀ j < k, ¬ w.Finds j) (looks : Nat) :
    Reaches w.answer w.clock w.state (awaitKind w.id (k + looks)) (w.looks.before k)
      (w.looks.beginning k).1 (w.looks.beginning k).2
      (awaitKindFrom w.id looks (intervalAfter k)) := by
  induction k generalizing looks with
  | zero =>
      rw [Nat.zero_add]
      exact .stay _ _ _
  | succ k ih =>
      have hreaches := ih (fun j hj => h j (Nat.lt_succ_of_lt hj)) (looks + 1)
      rw [show k + 1 + looks = k + (looks + 1) by omega]
      exact hreaches.trans (w.reaches_nextLook (h k (Nat.lt_succ_self k)) looks)

/-- The loop ends with the first look that finds the kind. -/
theorem found_at {k : Nat} (hbefore : ∀ j < k, ¬ w.Finds j) (hk : w.Finds k) {looks : Nat}
    (hlooks : k < looks) :
    (awaitKind w.id looks).run w.answer w.clock w.state =
        ⟨.ok true, (w.looks.call k).clock, (w.looks.call k).state⟩ ∧
      (awaitKind w.id looks).course w.answer w.clock w.state =
        w.looks.before k ++ w.looks.during k := by
  obtain ⟨more, rfl⟩ := Nat.exists_eq_add_of_lt hlooks
  have hrun := w.run_look_of_finds hk
  have hlook := reaches_bind hrun (afterLook w.id more (intervalAfter k))
  have hreaches := (w.reaches_look hbefore (more + 1)).trans hlook
  rw [← during_looks] at hreaches
  exact ⟨hreaches.run_eq, hreaches.course_eq.trans (List.append_nil _)⟩

/-- A loop that ends with the kind has seen it. -/
theorem exists_sees_of_found {n : Nat}
    (h : ((awaitKind w.id n).run w.answer w.clock w.state).result = .ok true) :
    ∃ k < n, w.Sees k := by
  by_contra hnone
  push Not at hnone
  have hreaches := w.reaches_look (fun j hj hfinds => hnone j hj ((w.look_learns j).2.1 hfinds)) 0
  rw [Nat.add_zero] at hreaches
  rw [hreaches.run_eq] at h
  cases h

theorem pauses_before (k : Nat) :
    pauses (w.looks.before k) =
      (List.range k).map fun i => .ofSeconds (min (10 * 2 ^ i) 60) := by
  induction k with
  | zero => rfl
  | succ k ih =>
      rw [Series.before, pauses_append, pauses_append, ih, (w.look_learns k).1,
        List.range_succ, List.map_append]
      rfl

/-- **Waiting polls on schedule and stops at the right moment.** Whatever the server answers, the
loop comes to the look after `k` others as long as none of these sees the kind listed. It comes
there with an interval of `min (10 * 2 ^ k) 60` seconds, which is from 10 to 60 and can be doubled
in 64 bits, and its pauses until then are the intervals before that one. The first look that sees
the kind listed is the last one, if the server does not contradict itself in it. Wherever the loop
is cut off, it is still waiting, or it has ended with a look that sees the kind listed; there is no
other end to it and no error. -/
theorem polls_until_listed (w : Wait σ) :
    (∀ k, (intervalAfter k).toNat = min (10 * 2 ^ k) 60 ∧ 10 ≤ (intervalAfter k).toNat ∧
      (intervalAfter k).toNat ≤ 60 ∧ (intervalAfter k).toNat * 2 < 2 ^ 64) ∧
    (∀ k, pauses (w.looks.before k) =
      (List.range k).map fun i => .ofSeconds (min (10 * 2 ^ i) 60)) ∧
    (∀ k, (∀ j < k, ¬ w.Sees j) → ∀ n,
      Reaches w.answer w.clock w.state (awaitKind w.id (k + n)) (w.looks.before k)
        (w.looks.beginning k).1 (w.looks.beginning k).2
        (awaitKindFrom w.id n (intervalAfter k))) ∧
    (∀ k, IsLeast {k | w.Sees k} k → Consistent (w.looks.during k) w.id.group → ∀ n, k < n →
      (awaitKind w.id n).run w.answer w.clock w.state =
          ⟨.ok true, (w.looks.call k).clock, (w.looks.call k).state⟩ ∧
        (awaitKind w.id n).course w.answer w.clock w.state =
          w.looks.before k ++ w.looks.during k) ∧
    ∀ n,
      ((awaitKind w.id n).run w.answer w.clock w.state =
          ⟨.ok false, (w.looks.beginning n).1, (w.looks.beginning n).2⟩ ∧
        (awaitKind w.id n).course w.answer w.clock w.state = w.looks.before n) ∨
      ∃ k < n, w.Sees k ∧
        (awaitKind w.id n).run w.answer w.clock w.state =
            ⟨.ok true, (w.looks.call k).clock, (w.looks.call k).state⟩ ∧
          (awaitKind w.id n).course w.answer w.clock w.state =
            w.looks.before k ++ w.looks.during k := by
  have hfinds : ∀ k, w.Finds k → w.Sees k := fun k => (w.look_learns k).2.1
  refine ⟨fun k => ?_, w.pauses_before, ?_, ?_, ?_⟩
  · have hpos : 0 < 2 ^ k := Nat.two_pow_pos k
    rw [toNat_intervalAfter]
    omega
  · intro k hnone n
    exact w.reaches_look (fun j hj h => hnone j hj (hfinds j h)) n
  · rintro k ⟨hk, hleast⟩ hconsistent n hn
    have hbefore : ∀ j < k, ¬ w.Finds j :=
      fun j hj h => absurd (hleast (hfinds j h)) (Nat.not_le.mpr hj)
    exact w.found_at hbefore ((w.look_learns k).2.2 hconsistent hk) hn
  · intro n
    by_cases hnone : ∀ j < n, ¬ w.Finds j
    · have hreaches := w.reaches_look hnone 0
      exact .inl ⟨hreaches.run_eq, hreaches.course_eq.trans (List.append_nil _)⟩
    · push Not at hnone
      classical
      obtain ⟨hn, hk⟩ := Nat.find_spec hnone
      have hbefore : ∀ j < Nat.find hnone, ¬ w.Finds j := by
        intro j hj h
        exact Nat.find_min hnone hj ⟨hj.trans hn, h⟩
      exact .inr ⟨Nat.find hnone, hn, hfinds _ hk, w.found_at hbefore hk hn⟩

end Wait

/-- The groups of a server with one group, which has one version. -/
def oneVersion (version : String) : Reply :=
  .answered 200 (.json (.object [("groups", .array [.object [
    ("name", .string "stores.example"),
    ("versions", .array [.object [
      ("groupVersion", .string ("stores.example/" ++ version)),
      ("version", .string version)]])]])]))

/-- The resources of a version with one kind. -/
def oneKind : Reply :=
  .answered 200 (.json (.object [("resources", .array [.object [
    ("name", .string "stores"), ("kind", .string "Store")]])]))

/-- Waits for a kind that cannot be looked for at first, and then is there in another version. -/
def arriving : Wait Nat where
  id := ⟨"stores.example", "v1", "Store"⟩
  answer _ asked _ :=
    (match asked with
      | 0 => .failed "connection refused"
      | 1 => oneVersion "v1beta1"
      | 2 => oneKind
      | 3 => oneVersion "v1"
      | _ => oneKind, asked + 1)
  clock := 0
  state := 0

/-- There is no contradiction in one version of one group. -/
theorem consistent_oneVersion {version path : String} (hpath : path ≠ "/apis") :
    Consistent [.asked ⟨.get, "/apis", none, none⟩ (oneVersion version),
      .asked ⟨.get, path, none, none⟩ oneKind] "stores.example" := by
  have hasked : ([⟨.get, "/apis", none, none⟩, ⟨.get, path, none, none⟩] : List Request).Nodup := by
    simp [Ne.symm hpath]
  have hgroups : (oneVersion version).receive readGroups =
      .ok [("stores.example", [⟨version, "/apis/" ++ ("stores.example/" ++ version)⟩])] := rfl
  have htells : Tells [.asked ⟨.get, "/apis", none, none⟩ (oneVersion version),
      .asked ⟨.get, path, none, none⟩ oneKind] "/apis" readGroups _ :=
    ⟨_, _, rfl, List.mem_cons_self, hgroups⟩
  exact consistent_of_nodup hasked (by decide) htells rfl (List.nodup_singleton _)

/-- The look that fails and the one that sees another version are followed by a pause, and the third
one is the last. -/
theorem third_look_finds :
    IsLeast {k | arriving.Sees k} 2 ∧
      Consistent (arriving.looks.during 2) arriving.id.group ∧
      (awaitKind arriving.id 5).run arriving.answer 0 0 = ⟨.ok true, 30000, 5⟩ ∧
      pauses ((awaitKind arriving.id 5).course arriving.answer 0 0) =
        [.ofSeconds 10, .ofSeconds 20] := by
  have hsecond : Consistent (arriving.looks.during 1) arriving.id.group :=
    consistent_oneVersion (by decide : "/apis/stores.example/v1beta1" ≠ "/apis")
  have hthird : Consistent (arriving.looks.during 2) arriving.id.group :=
    consistent_oneVersion (by decide : "/apis/stores.example/v1" ≠ "/apis")
  have hleast : IsLeast {k | arriving.Sees k} 2 := by
    refine ⟨(arriving.look_learns 2).2.1 rfl, fun k hk => ?_⟩
    by_contra hlt
    rcases (by omega : k = 0 ∨ k = 1) with rfl | rfl
    · obtain ⟨⟨found, hfound⟩, _⟩ := hk
      cases hfound
    · cases (arriving.look_learns 1).2.2 hsecond hk
  obtain ⟨_, hpauses, _, hstops, _⟩ := arriving.polls_until_listed
  obtain ⟨hrun, hcourse⟩ := hstops 2 hleast hthird 5 (by omega)
  refine ⟨hleast, hthird, hrun, ?_⟩
  have hwaited : pauses (arriving.looks.before 2 ++ arriving.looks.during 2) =
      [.ofSeconds 10, .ofSeconds 20] := by
    rw [pauses_append, hpauses 2]
    rfl
  rw [← hwaited]
  exact congrArg pauses hcourse

end SecretsWarden.Cluster
