import Mathlib.Data.List.Induction
import SecretsWarden.Proofs.Cluster.Discovery
import SecretsWarden.Usage.Informers
import SecretsWarden.Usage.Report

/-!
# The flag of the informers

A kind has a cache exactly if the API server was found to serve it. The flag is set exactly when the
waiting task has looked after the first list of every cache had come, whatever came in between and
in whatever order; from then on it stays set. A check refuses to answer before that, without a look
at any strategy, and never for this reason afterwards.
-/

namespace SecretsWarden.Usage

open Dialogue Cluster Resource

variable {σ : Type} {answer : Answerer σ Request Reply} {clock : Nat} {state : σ}

/-! ## Which kinds have a cache -/

/-- The kinds are looked for one after the other, each with its outcome. -/
inductive Discovers (answer : Answerer σ Request Reply) :
    (clock : Nat) → (state : σ) → List (Store.Kind × Except Cluster.Error Bool) →
      (clock' : Nat) → (state' : σ) → Prop where
  | nil (clock : Nat) (state : σ) : Discovers answer clock state [] clock state
  | cons {clock clock₁ clock₂ : Nat} {state state₁ state₂ : σ} {kind : Store.Kind}
      {served : Except Cluster.Error Bool} {rest : List (Store.Kind × Except Cluster.Error Bool)}
      (h : (serves (storeKindId kind)).run answer clock state = ⟨.ok served, clock₁, state₁⟩)
      (hrest : Discovers answer clock₁ state₁ rest clock₂ state₂) :
      Discovers answer clock state ((kind, served) :: rest) clock₂ state₂

/-- The kinds that were found to be served. -/
def found (outcomes : List (Store.Kind × Except Cluster.Error Bool)) : List Store.Kind :=
  outcomes.filterMap fun
    | (kind, .ok true) => some kind
    | _ => none

theorem mem_found {outcomes : List (Store.Kind × Except Cluster.Error Bool)} {kind : Store.Kind} :
    kind ∈ found outcomes ↔ (kind, .ok true) ∈ outcomes := by
  unfold found
  rw [List.mem_filterMap]
  constructor
  · rintro ⟨⟨k, served⟩, hmem, hsome⟩
    split at hsome
    · cases hsome
      rename_i heq
      cases heq
      exact hmem
    · cases hsome
  · intro hmem
    exact ⟨_, hmem, rfl⟩

theorem run_servedKinds (answer : Answerer σ Request Reply) (clock : Nat) (state : σ)
    (kinds : List Store.Kind) :
    ∃ outcomes clock' state', Discovers answer clock state outcomes clock' state' ∧
      outcomes.map Prod.fst = kinds ∧
      (servedKinds kinds).run answer clock state = ⟨.ok (found outcomes), clock', state'⟩ := by
  induction kinds generalizing clock state with
  | nil => exact ⟨[], clock, state, .nil clock state, rfl, rfl⟩
  | cons kind rest ih =>
      obtain ⟨served, clock₁, state₁, hserved⟩ :=
        (completes_serves (storeKindId kind)).exists_run answer clock state
      obtain ⟨outcomes, clock₂, state₂, hrest, hkinds, hrun⟩ := ih clock₁ state₁
      refine ⟨(kind, served) :: outcomes, clock₂, state₂, .cons hserved hrest, ?_, ?_⟩
      · rw [List.map_cons, hkinds]
      · rw [servedKinds, run_bind, hserved]
        simp only [run_bind, hrun]
        rcases served with e | served
        · rfl
        · cases served <;> rfl

namespace Informers

variable {i : Informers} {kind : Store.Kind}

/-- The kinds that have a cache. -/
def kinds (i : Informers) : List Store.Kind := i.started.map (·.kind)

theorem isSome_index : (i.index kind).isSome = true ↔ kind ∈ i.kinds := by
  simp [index, kinds, List.find?_isSome]

@[simp] theorem kinds_ofKinds (ks : List Store.Kind) : (ofKinds ks).kinds = ks := by
  simp [ofKinds, kinds, Function.comp_def]

/-! ## Which first lists have come -/

/-- The kinds that have a cache, each with whether its first list has come. -/
def marks (i : Informers) : List (Store.Kind × Bool) := i.started.map fun x => (x.kind, x.listed)

/-- Whether the change is a list of a kind. -/
def lists (kind : Store.Kind) : InformerChange → Bool
  | .listed k _ => k = kind
  | .applied .. | .deleted .. | .awaited => false

theorem any_lists_iff {changes : List InformerChange} :
    changes.any (lists kind) = true ↔ ∃ stores, .listed kind stores ∈ changes := by
  rw [List.any_eq_true]
  constructor
  · rintro ⟨c, hc, hlists⟩
    cases c with
    | listed k stores =>
        have hk : k = kind := of_decide_eq_true hlists
        exact ⟨stores, hk ▸ hc⟩
    | applied k s => cases hlists
    | deleted k s => cases hlists
    | awaited => cases hlists
  · rintro ⟨stores, hmem⟩
    exact ⟨_, hmem, decide_eq_true rfl⟩

theorem kinds_eq_marks (i : Informers) : i.kinds = i.marks.map Prod.fst := by
  simp [kinds, marks]

/-- A change marks the kind of which it is a list, and no other. -/
theorem marks_step (i : Informers) (c : InformerChange) :
    (i.step c).marks = i.marks.map fun m => (m.1, m.2 || lists m.1 c) := by
  cases c with
  | listed k stores =>
      simp only [step, update, marks, List.map_map]
      refine List.map_congr_left fun x _ => ?_
      by_cases hk : x.kind = k
      · simp [hk, Informer.list, lists]
      · have hne : ¬ k = x.kind := fun h => hk h.symm
        simp [hk, hne, lists]
  | applied k s =>
      simp only [step, update, marks, List.map_map]
      refine List.map_congr_left fun x _ => ?_
      by_cases hk : x.kind = k <;> simp [hk, Informer.apply, lists]
  | deleted k s =>
      simp only [step, update, marks, List.map_map]
      refine List.map_congr_left fun x _ => ?_
      by_cases hk : x.kind = k <;> simp [hk, Informer.delete, lists]
  | awaited => simp [step, marks, lists]

/-- The informers after some changes. -/
def after (i : Informers) (changes : List InformerChange) : Informers := changes.foldl step i

@[simp] theorem after_nil (i : Informers) : i.after [] = i := rfl

theorem after_snoc (i : Informers) (changes : List InformerChange) (c : InformerChange) :
    i.after (changes ++ [c]) = (i.after changes).step c := by
  unfold after
  rw [List.foldl_append]
  rfl

theorem after_append (i : Informers) (changes more : List InformerChange) :
    i.after (changes ++ more) = (i.after changes).after more :=
  List.foldl_append

theorem marks_after (i : Informers) (changes : List InformerChange) :
    (i.after changes).marks = i.marks.map fun m => (m.1, m.2 || changes.any (lists m.1)) := by
  induction changes using List.reverseRecOn with
  | nil => simp
  | append_singleton changes c ih =>
      rw [after_snoc, marks_step, ih, List.map_map]
      refine List.map_congr_left fun m _ => ?_
      simp [Bool.or_assoc]

@[simp] theorem kinds_after (i : Informers) (changes : List InformerChange) :
    (i.after changes).kinds = i.kinds := by
  rw [kinds_eq_marks, marks_after, List.map_map, kinds_eq_marks]
  rfl

variable {ks : List Store.Kind}

theorem marks_ofKinds_after (ks : List Store.Kind) (changes : List InformerChange) :
    ((ofKinds ks).after changes).marks = ks.map fun k => (k, changes.any (lists k)) := by
  rw [marks_after]
  simp [ofKinds, marks, Function.comp_def]

theorem all_listed_iff (i : Informers) :
    i.started.all (·.listed) = i.marks.all Prod.snd := by
  simp [marks, List.all_map, Function.comp_def]

/-- All caches have their first list exactly if one has come for each kind. -/
theorem all_listed_after (ks : List Store.Kind) (changes : List InformerChange) :
    ((ofKinds ks).after changes).started.all (·.listed) = true ↔
      ∀ k ∈ ks, ∃ stores, .listed k stores ∈ changes := by
  rw [all_listed_iff, marks_ofKinds_after]
  simp only [List.all_map, List.all_eq_true, Function.comp_apply, any_lists_iff]

/-! ## When the flag is set -/

theorem synced_step {c : InformerChange} :
    (i.step c).synced = true ↔
      i.synced = true ∨ c = .awaited ∧ i.started.all (·.listed) = true := by
  cases c <;> simp [step, update]

theorem exists_split_snoc {c e : InformerChange} {changes : List InformerChange}
    {P : List InformerChange → Prop} :
    (∃ before later, changes ++ [c] = before ++ e :: later ∧ P before) ↔
      (∃ before later, changes = before ++ e :: later ∧ P before) ∨ c = e ∧ P changes := by
  constructor
  · rintro ⟨before, later, heq, hP⟩
    rcases List.eq_nil_or_concat later with rfl | ⟨later, last, rfl⟩
    · obtain ⟨rfl, hc⟩ := List.append_inj' heq rfl
      exact Or.inr ⟨List.singleton_inj.mp hc, hP⟩
    · rw [List.concat_eq_append, ← List.cons_append, ← List.append_assoc] at heq
      exact Or.inl ⟨before, later, (List.append_inj' heq rfl).1, hP⟩
  · rintro (⟨before, later, rfl, hP⟩ | ⟨rfl, hP⟩)
    · exact ⟨before, later ++ [c], by simp, hP⟩
    · exact ⟨changes, [], rfl, hP⟩

/-- The flag is set exactly if the waiting task has looked after the first list of every kind. -/
theorem synced_after_iff (ks : List Store.Kind) (changes : List InformerChange) :
    ((ofKinds ks).after changes).synced = true ↔
      ∃ before later, changes = before ++ .awaited :: later ∧
        ∀ k ∈ ks, ∃ stores, .listed k stores ∈ before := by
  induction changes using List.reverseRecOn with
  | nil => simp [ofKinds]
  | append_singleton changes c ih =>
      rw [after_snoc, synced_step, ih, all_listed_after, exists_split_snoc]

/-- A look between the first lists is too early, and none has come after them. -/
example : ((ofKinds [.secretStore, .clusterSecretStore]).after [.listed .clusterSecretStore [],
    .awaited, .listed .secretStore []]).synced = false := by decide

/-! ## One cache after the other -/

/-- Whether the first list of a kind has come. -/
def isListed (i : Informers) (kind : Store.Kind) : Bool := i.marks.contains (kind, true)

theorem isListed_after (hkind : kind ∈ ks) (changes : List InformerChange) :
    ((ofKinds ks).after changes).isListed kind = changes.any (lists kind) := by
  rw [isListed, marks_ofKinds_after, Bool.eq_iff_iff, List.contains_iff_mem, List.mem_map]
  constructor
  · rintro ⟨k, _, heq⟩
    obtain ⟨rfl, hany⟩ := Prod.mk.inj heq
    exact hany
  · intro h
    exact ⟨kind, hkind, by rw [h]⟩

end Informers

/-- The task that waits for the first lists. It waits for one cache after the other, and it does not
come back to one whose list it has seen. -/
structure Waiter where
  ahead : List Store.Kind
  /-- Whether it has come to the end. -/
  isThrough : Bool := false

/-- Goes on as far as first lists have come. -/
def Waiter.look (i : Informers) (w : Waiter) : Waiter :=
  let ahead := w.ahead.dropWhile i.isListed
  ⟨ahead, w.isThrough || ahead.isEmpty⟩

/-- A change of the informers, under the eyes of the waiting task. -/
def watchedStep : Informers × Waiter → InformerChange → Informers × Waiter
  | (i, w), .awaited => (i.step .awaited, w.look i)
  | (i, w), c => (i.step c, w)

/-- The informers of some kinds after some changes, and how far the waiting task is. -/
def watched (ks : List Store.Kind) (changes : List InformerChange) : Informers × Waiter :=
  changes.foldl watchedStep (.ofKinds ks, ⟨ks, false⟩)

theorem watched_snoc (ks : List Store.Kind) (changes : List InformerChange) (c : InformerChange) :
    watched ks (changes ++ [c]) = watchedStep (watched ks changes) c := by
  unfold watched
  rw [List.foldl_append]
  rfl

theorem watchedStep_of_ne {c : InformerChange} (h : c ≠ .awaited) (s : Informers × Waiter) :
    watchedStep s c = (s.1.step c, s.2) := by
  cases c with
  | awaited => exact absurd rfl h
  | listed k stores => rfl
  | applied k s => rfl
  | deleted k s => rfl

theorem watchedStep_awaited (s : Informers × Waiter) :
    watchedStep s .awaited = (s.1.step .awaited, s.2.look s.1) := rfl

/-- The first lists that the task has seen have come. -/
theorem exists_passed (ks : List Store.Kind) (changes : List InformerChange) :
    (watched ks changes).1 = (Informers.ofKinds ks).after changes ∧
      ∃ passed, ks = passed ++ (watched ks changes).2.ahead ∧
        ∀ k ∈ passed, ∃ stores, .listed k stores ∈ changes := by
  induction changes using List.reverseRecOn with
  | nil => exact ⟨rfl, [], rfl, by simp⟩
  | append_singleton changes c ih =>
      rw [watched_snoc, Informers.after_snoc]
      generalize watched ks changes = s at ih
      obtain ⟨i, ahead, isThrough⟩ := s
      obtain ⟨hinformers, passed, hks, hpassed⟩ := ih
      simp only at hinformers hks
      have hlater : ∀ k ∈ passed, ∃ stores, .listed k stores ∈ changes ++ [c] := by
        intro k hk
        obtain ⟨stores, hstores⟩ := hpassed k hk
        exact ⟨stores, List.mem_append_left _ hstores⟩
      by_cases hc : c = .awaited
      · subst hc
        rw [watchedStep_awaited]
        refine ⟨by rw [← hinformers], passed ++ ahead.takeWhile i.isListed, ?_, ?_⟩
        · simp only [Waiter.look, List.append_assoc, List.takeWhile_append_dropWhile, hks]
        · intro k hk
          rcases List.mem_append.mp hk with hk | hk
          · exact hlater k hk
          · have hlisted := List.mem_takeWhile_imp hk
            have hmem : k ∈ ks := by
              rw [hks]
              exact List.mem_append_right _ ((List.takeWhile_sublist _).mem hk)
            rw [hinformers, Informers.isListed_after hmem, Informers.any_lists_iff] at hlisted
            obtain ⟨stores, hstores⟩ := hlisted
            exact ⟨stores, List.mem_append_left _ hstores⟩
      · rw [watchedStep_of_ne hc]
        exact ⟨by rw [hinformers], passed, hks, hlater⟩

/-- The task comes to the end when the flag is set, and only then. -/
theorem isThrough_watched (ks : List Store.Kind) (changes : List InformerChange) :
    (watched ks changes).2.isThrough = ((Informers.ofKinds ks).after changes).synced := by
  induction changes using List.reverseRecOn with
  | nil => rfl
  | append_singleton changes c ih =>
      obtain ⟨hinformers, passed, hks, hpassed⟩ := exists_passed ks changes
      rw [watched_snoc, Informers.after_snoc, Bool.eq_iff_iff, Informers.synced_step, ← ih]
      by_cases hc : c = .awaited
      · subst hc
        -- the kinds that are left all have their list exactly if all kinds have it
        have hahead : ((watched ks changes).2.ahead.dropWhile
            (watched ks changes).1.isListed).isEmpty = true ↔
              ∀ k ∈ ks, ∃ stores, .listed k stores ∈ changes := by
          rw [List.isEmpty_iff, List.dropWhile_eq_nil_iff, hinformers]
          constructor
          · intro hleft k hk
            rcases List.mem_append.mp (hks ▸ hk) with hmem | hmem
            · exact hpassed k hmem
            · have hlisted := hleft k hmem
              rwa [Informers.isListed_after hk, Informers.any_lists_iff] at hlisted
          · intro hall k hmem
            have hk : k ∈ ks := hks ▸ List.mem_append_right _ hmem
            rw [Informers.isListed_after hk, Informers.any_lists_iff]
            exact hall k hk
        rw [watchedStep_awaited, Waiter.look, Bool.or_eq_true, hahead,
          Informers.all_listed_after]
        simp
      · rw [watchedStep_of_ne hc]
        simp [hc]

/-! ## What a check answers -/

section Check

variable {q r : Type} {strategies : List (Strategy q r)} {provider : String} {c : Course q r}

/-- Looking up stores never fails for want of a filled cache. -/
theorem ends_collect_ne {found : List String} {kinds : List Store.Kind}
    {answer : Except Failure (List String)}
    (h : Ends (collect strategies provider found kinds) c (.ok answer)) :
    answer ≠ .error .cacheNotFilled := by
  induction kinds generalizing found c with
  | nil =>
      obtain ⟨-, hanswer⟩ := ends_done.mp h
      cases hanswer
      exact nofun
  | cons kind rest ih =>
      rcases ends_bind.mp h with ⟨result, c₁, c₂, -, -, hrest⟩ | ⟨fault, habort, -⟩
      · cases result with
        | ok more => exact ih hrest
        | error e =>
            obtain ⟨-, hanswer⟩ := ends_done.mp hrest
            cases hanswer
            exact nofun
      · cases habort

theorem ends_check_ne {usage : Except Failure Report}
    (h : Ends (check strategies provider (some true)) c (.ok usage)) :
    usage ≠ .error .cacheNotFilled := by
  rw [check, if_neg (by decide)] at h
  rcases ends_bind.mp h with ⟨answer, c₁, c₂, -, hcollect, hdone⟩ | ⟨fault, habort, -⟩
  · have hanswer := ends_collect_ne hcollect
    obtain ⟨-, husage⟩ := ends_done.mp hdone
    cases husage
    cases answer with
    | ok stores => exact nofun
    | error e =>
        intro hfault
        cases hfault
        exact hanswer rfl
  · cases habort

end Check

/-- What the flag tells after some changes, and what a check makes of it. -/
structure FlagExact (ks : List Store.Kind) (changes : List InformerChange) (i : Informers) :
    Prop where
  cached (kind : Store.Kind) : (i.index kind).isSome = true ↔ kind ∈ ks
  set_iff : i.synced = true ↔
    ∃ before later, changes = before ++ .awaited :: later ∧
      ∀ k ∈ ks, ∃ stores, .listed k stores ∈ before
  reader_by_reader : (watched ks changes).2.isThrough = i.synced
  stays : i.synced = true → ∀ more, (i.after more).synced = true
  /-- No strategy is looked at. -/
  refuses : i.synced = false → ∀ {q r : Type} (strategies : List (Strategy q r))
    (provider : String), check strategies provider (some i.synced) = .done (.error .cacheNotFilled)
  answers : i.synced = true → ∀ {q r : Type} (strategies : List (Strategy q r))
    (provider : String) (c : Course q r) (usage : Except Failure Report),
      Ends (check strategies provider (some i.synced)) c (.ok usage) →
        usage ≠ .error .cacheNotFilled

theorem flagExact_after (ks : List Store.Kind) (changes : List InformerChange) :
    FlagExact ks changes ((Informers.ofKinds ks).after changes) where
  cached kind := by rw [Informers.isSome_index, Informers.kinds_after, Informers.kinds_ofKinds]
  set_iff := Informers.synced_after_iff ks changes
  reader_by_reader := isThrough_watched ks changes
  stays hset more := by
    rw [Informers.synced_after_iff] at hset
    obtain ⟨before, later, rfl, hlisted⟩ := hset
    rw [← Informers.after_append, Informers.synced_after_iff]
    exact ⟨before, later ++ more, by simp, hlisted⟩
  refuses hunset _ _ strategies provider := by
    rw [hunset]
    rfl
  answers hset _ _ strategies provider c usage hends := by
    rw [hset] at hends
    exact ends_check_ne hends

/-! ## In the course of time -/

/-- Some changes lead from the one state of the informers to the other. -/
def Informers.Becomes (i j : Informers) : Prop := ∃ changes, j = i.after changes

theorem Informers.becomes_refl (i : Informers) : i.Becomes i := ⟨[], rfl⟩

theorem Informers.Becomes.trans {i j k : Informers} (hij : i.Becomes j) (hjk : j.Becomes k) :
    i.Becomes k := by
  obtain ⟨changes, rfl⟩ := hij
  obtain ⟨more, rfl⟩ := hjk
  exact ⟨changes ++ more, (i.after_append changes more).symm⟩

/-- After a look of the waiting task, the flag is set exactly if all caches have their first
list. -/
theorem Informers.synced_awaited {ks : List Store.Kind} {i : Informers}
    (h : (ofKinds ks).Becomes i) :
    (i.step .awaited).synced = (i.step .awaited).started.all (·.listed) := by
  obtain ⟨changes, rfl⟩ := h
  have hlisted : ((ofKinds ks).after changes).synced = true →
      ((ofKinds ks).after changes).started.all (·.listed) = true := by
    rw [synced_after_iff, all_listed_after]
    rintro ⟨before, later, rfl, hbefore⟩ k hk
    obtain ⟨stores, hstores⟩ := hbefore k hk
    exact ⟨stores, List.mem_append_left _ hstores⟩
  rw [Bool.eq_iff_iff, synced_step]
  constructor
  · rintro (hset | ⟨-, hall⟩)
    · exact hlisted hset
    · exact hall
  · exact fun hall => Or.inr ⟨rfl, hall⟩

namespace InformerRun

theorem becomes_take (answer : Answerer σ Request Reply) (f : Follower) (r : InformerRun)
    (server : σ) : r.informers.Becomes (r.take answer f server).1.informers := by
  unfold take
  simp only
  split
  · exact ⟨_, rfl⟩
  · exact Informers.becomes_refl _

theorem becomes_run (answer : Answerer σ Request Reply) (deadline turns : Nat)
    (r : InformerRun) (server : σ) :
    r.informers.Becomes (r.run answer deadline turns server).1.informers := by
  induction turns generalizing r server with
  | zero => exact Informers.becomes_refl _
  | succ turns ih =>
      unfold run
      split
      · rename_i time f hturn
        split
        · exact (becomes_take answer f { r with clock := max r.clock time } server).trans (ih _ _)
        · exact Informers.becomes_refl _
      · exact Informers.becomes_refl _

/-- The waiting task has its turn when some time has passed. -/
theorem exists_advance (answer : Answerer σ Request Reply) (millis : Nat) (r : InformerRun)
    (server : σ) :
    ∃ j, r.informers.Becomes j ∧
      (r.advance answer millis server).1.informers = j.step .awaited :=
  ⟨_, becomes_run answer (r.clock + (millis - 1)) (turnLimit millis) r server, rfl⟩

/-- The informers and the server after one wait and another. -/
def waited (answer : Answerer σ Request Reply) (waits : List Nat) (r : InformerRun)
    (server : σ) : InformerRun × σ :=
  waits.foldl (fun x millis => x.1.advance answer millis x.2) (r, server)

theorem waited_snoc (answer : Answerer σ Request Reply) (waits : List Nat) (millis : Nat)
    (r : InformerRun) (server : σ) :
    r.waited answer (waits ++ [millis]) server =
      (r.waited answer waits server).1.advance answer millis (r.waited answer waits server).2 := by
  unfold waited
  rw [List.foldl_append, List.foldl_cons, List.foldl_nil]

theorem becomes_waited (answer : Answerer σ Request Reply) (waits : List Nat)
    (r : InformerRun) (server : σ) :
    r.informers.Becomes (r.waited answer waits server).1.informers := by
  induction waits using List.reverseRecOn with
  | nil => exact Informers.becomes_refl _
  | append_singleton waits millis ih =>
      obtain ⟨j, hj, hadvance⟩ := exists_advance answer millis (r.waited answer waits server).1
        (r.waited answer waits server).2
      rw [waited_snoc, hadvance]
      exact (ih.trans hj).trans ⟨[.awaited], rfl⟩

/-! ## Followers -/

/-- The kinds that are followed. -/
def followed (r : InformerRun) : List Store.Kind := r.followers.map (·.kind)

/-- A follower takes its own place again. -/
theorem followed_take (answer : Answerer σ Request Reply) (f : Follower) (r : InformerRun)
    (server : σ) : (r.take answer f server).1.followed = r.followed := by
  unfold take followed
  simp only
  split
  · rw [List.map_map]
    refine List.map_congr_left fun g _ => ?_
    rw [Function.comp_apply]
    split
    · exact Eq.symm ‹_›
    · rfl
  · rfl

theorem followed_run (answer : Answerer σ Request Reply) (deadline turns : Nat)
    (r : InformerRun) (server : σ) :
    (r.run answer deadline turns server).1.followed = r.followed := by
  induction turns generalizing r server with
  | zero => rfl
  | succ turns ih =>
      unfold run
      split
      · rename_i time f hturn
        split
        · rw [ih]
          exact followed_take answer f { r with clock := max r.clock time } server
        · rfl
      · rfl

theorem followed_advance (answer : Answerer σ Request Reply) (millis : Nat) (r : InformerRun)
    (server : σ) : (r.advance answer millis server).1.followed = r.followed :=
  followed_run answer (r.clock + (millis - 1)) (turnLimit millis) r server

theorem followed_waited (answer : Answerer σ Request Reply) (waits : List Nat)
    (r : InformerRun) (server : σ) : (r.waited answer waits server).1.followed = r.followed := by
  induction waits using List.reverseRecOn with
  | nil => rfl
  | append_singleton waits millis ih =>
      rw [waited_snoc, followed_advance, ih]

/-- Informers that have just been started. Each cache is kept up by a follower of its own. -/
theorem exists_start {ks : List Store.Kind} {clock' : Nat} {state' : σ}
    (h : startInformers.run answer clock state = ⟨.ok (.ofKinds ks), clock', state'⟩)
    (spread : Store.Kind → Nat → Nat) :
    ∃ r, (start spread).run answer clock state = ⟨.ok r, clock', state'⟩ ∧
      r.informers = .ofKinds ks ∧ r.followed = ks := by
  rw [start, run_bind, h]
  exact ⟨_, rfl, rfl, by simp [followed, Informers.ofKinds, Function.comp_def]⟩

/-- Once time has passed, the flag is set exactly if all caches have their first list. -/
theorem synced_waited {ks : List Store.Kind} {r : InformerRun}
    (h : (Informers.ofKinds ks).Becomes r.informers) (answer : Answerer σ Request Reply)
    {waits : List Nat} (hwaits : waits ≠ []) (server : σ) :
    (r.waited answer waits server).1.informers.synced =
      (r.waited answer waits server).1.informers.started.all (·.listed) := by
  obtain ⟨waits, millis, rfl⟩ := (List.eq_nil_or_concat waits).resolve_left hwaits
  obtain ⟨j, hj, hadvance⟩ := exists_advance answer millis (r.waited answer waits server).1
    (r.waited answer waits server).2
  rw [List.concat_eq_append, waited_snoc, hadvance]
  exact Informers.synced_awaited ((h.trans (becomes_waited answer waits r server)).trans hj)

end InformerRun

/-- **The flag is exact.** There is a cache for exactly the kinds that were found to be served, and
each of them is followed all the time. Whatever becomes of the informers, the flag is set exactly
when the waiting task has looked after the first list of each cache, and checks are refused exactly
until then. -/
theorem flag_set_after_first_lists (answer : Answerer σ Request Reply) (clock : Nat)
    (state : σ) :
    ∃ outcomes clock' state', Discovers answer clock state outcomes clock' state' ∧
      outcomes.map Prod.fst = Store.Kind.all ∧
      ∃ started : Informers,
        startInformers.run answer clock state = ⟨.ok started, clock', state'⟩ ∧
        (∀ kind, (started.index kind).isSome = true ↔ (kind, .ok true) ∈ outcomes) ∧
        (∀ changes, FlagExact (found outcomes) changes (started.after changes)) ∧
        ∀ spread, ∃ r : InformerRun,
          (InformerRun.start spread).run answer clock state = ⟨.ok r, clock', state'⟩ ∧
          ∀ waits, started.Becomes (r.waited answer waits state').1.informers ∧
            (r.waited answer waits state').1.followed = started.kinds ∧
            (waits ≠ [] → (r.waited answer waits state').1.informers.synced =
              (r.waited answer waits state').1.informers.started.all (·.listed)) := by
  obtain ⟨outcomes, clock', state', hdiscovers, hkinds, hserved⟩ :=
    run_servedKinds answer clock state Store.Kind.all
  have hstart : startInformers.run answer clock state =
      ⟨.ok (.ofKinds (found outcomes)), clock', state'⟩ := by
    rw [startInformers, run_bind, hserved]
    rfl
  refine ⟨outcomes, clock', state', hdiscovers, hkinds, .ofKinds (found outcomes), hstart,
    fun kind => ?_, flagExact_after (found outcomes), fun spread => ?_⟩
  · rw [Informers.isSome_index, Informers.kinds_ofKinds, mem_found]
  · obtain ⟨r, hr, hinformers, hfollowed⟩ := InformerRun.exists_start hstart spread
    have hbecomes : (Informers.ofKinds (found outcomes)).Becomes r.informers :=
      hinformers ▸ Informers.becomes_refl _
    refine ⟨r, hr, fun waits => ⟨?_, ?_, fun hwaits => ?_⟩⟩
    · exact hbecomes.trans (InformerRun.becomes_waited answer waits r state')
    · rw [InformerRun.followed_waited, hfollowed, Informers.kinds_ofKinds]
    · exact InformerRun.synced_waited hbecomes answer hwaits state'

end SecretsWarden.Usage
