import Mathlib.Data.Int.ConditionallyCompleteOrder
import Mathlib.Data.List.Induction
import Mathlib.Order.ConditionallyCompleteLattice.Basic
import SecretsWarden.Proofs.Reconcile.Interleaving

/-!
# Generations that passes report

A pass reports the generation that it read at first, and keeps to it in all its tries. Under edits
that leave the conditions alone and do not lower the generation, the reported generation is never
ahead of the object. It falls only by a pass that was overtaken: one whose first reading was of an
older generation than the one that another pass has reported since.
-/

namespace SecretsWarden.Reconcile

open Cluster Dialogue Json Resource StatusRecord ApiServer

/-! ## Generations of an object -/

/-- Generations in their order, below all of them none. -/
def rank : Option Int64 → WithBot Int
  | none => ⊥
  | some n => (n.toInt : WithBot Int)

/-- The generation of the object. -/
def generation (config : SecretsConfig) : WithBot Int := rank config.metadata.generation

/-- The generation that the condition was reported for. -/
def reported (config : SecretsConfig) : WithBot Int :=
  rank ((config.condition? conditionType).bind (·.observedGeneration))

variable {p : Policy} {s server : ApiServer} {passes : List Pass} {r : Pass}
  {config start before after : SecretsConfig} {outcome : Except Failure Unit}
  {schedule : List Action}

theorem reported_congr (h : after.conditions = before.conditions) :
    reported after = reported before := by
  rw [reported, reported, SecretsConfig.condition?, SecretsConfig.condition?, h]

/-- What a pass merges is reported for the generation that it read. -/
theorem reported_merged
    (h : (r.condition config outcome).merge? before.conditions = some after.conditions) :
    reported after = generation config := by
  have hmerge : (r.condition config outcome).merge before.conditions = after.conditions := by
    rw [Condition.merge, h, Option.getD_some]
  obtain ⟨c, hfind, hequivalent⟩ :=
    Condition.find?_merge (r.condition config outcome) before.conditions
  rw [hmerge] at hfind
  have hcondition : after.condition? conditionType = some c := hfind
  rw [reported, hcondition, Option.bind_some, (Condition.equivalent_iff.mp hequivalent).2.2.2.2]
  rfl

/-! ## Orderly schedules -/

/-- What is written instead of the object leaves the conditions alone and does not lower the
generation. -/
def EditsSpec (p : Policy) (s : ApiServer) (config : Option Value) : Prop :=
  ∃ before after, s.config? p = some before ∧ (s.write config).config? p = some after ∧
    after.conditions = before.conditions ∧ generation before ≤ generation after

/-- Besides the sessions there are only edits of the specification. -/
def Orderly {α : Type} (p : Policy) : System α → List Action → Prop
  | _, [] => True
  | S, .turn i passage :: rest => Orderly p (S.step p (.turn i passage)) rest
  | S, .edit config definitions :: rest =>
    EditsSpec p S.server config ∧ Orderly p (S.step p (.edit config definitions)) rest

theorem orderly_append {α : Type} {S : System α} {earlier later : List Action} :
    Orderly p S (earlier ++ later) ↔ Orderly p S earlier ∧ Orderly p (S.run p earlier) later := by
  induction earlier generalizing S with
  | nil => simp [Orderly, System.run]
  | cons action rest ih =>
      cases action with
      | turn i passage => exact ih
      | edit config definitions =>
          simp only [List.cons_append, Orderly, and_assoc]
          exact and_congr_right fun _ => ih

/-- Turns are orderly. -/
theorem orderly_of_turns {α : Type} {S : System α}
    (h : ∀ action ∈ schedule, ∃ i passage, action = .turn i passage) : Orderly p S schedule := by
  induction schedule generalizing S with
  | nil => trivial
  | cons action rest ih =>
      obtain ⟨i, passage, rfl⟩ := h action List.mem_cons_self
      exact ih fun action' hmem => h action' (List.mem_cons_of_mem _ hmem)

/-! ## Steps and runs -/

/-- The passes on an orderly schedule. -/
def OrderlyPasses (p : Policy) (server : ApiServer) (passes : List Pass)
    (schedule : List Action) : Prop :=
  Orderly p ⟨server, passes.map Pass.session⟩ schedule

/-- What an action does to the generations. -/
theorem generation_step {action : Action}
    (horderly : OrderlyPasses p server passes (schedule ++ [action]))
    (hbefore : (passSystem p server passes schedule).server.config? p = some before) :
    ∃ after, (passSystem p server passes (schedule ++ [action])).server.config? p = some after ∧
      generation before ≤ generation after ∧
      (reported after = reported before ∨
        ∃ r config, StatusTurn p server passes schedule action r config ∧
          reported after = generation config) := by
  cases action with
  | edit written definitions =>
      obtain ⟨_, hedit, _⟩ := orderly_append.mp horderly
      obtain ⟨before', after, hbefore', hafter, hconditions, hgeneration⟩ := hedit
      obtain rfl : before = before' := Option.some.inj (hbefore.symm.trans hbefore')
      refine ⟨after, ?_, hgeneration, Or.inl (reported_congr hconditions)⟩
      rw [passSystem_snoc]
      exact hafter
  | turn i passage =>
      rcases config?_step_turn p server passes schedule i passage with
        hsame | ⟨r, config, outcome, before', after, hturn, hbefore', hafter, hgeneration, hmerge⟩
      · exact ⟨before, hsame.trans hbefore, le_refl _, Or.inl rfl⟩
      · obtain rfl : before = before' := Option.some.inj (hbefore.symm.trans hbefore')
        refine ⟨after, hafter, ?_, Or.inr ⟨r, config, hturn, reported_merged hmerge⟩⟩
        rw [generation, generation, hgeneration]

/-- The generation does not fall on an orderly schedule. -/
theorem generation_mono (earlier : List Action) {later : List Action}
    (horderly : OrderlyPasses p server passes (earlier ++ later))
    (hbefore : (passSystem p server passes earlier).server.config? p = some before) :
    ∃ after, (passSystem p server passes (earlier ++ later)).server.config? p = some after ∧
      generation before ≤ generation after := by
  induction later using List.reverseRecOn with
  | nil => exact ⟨before, by rwa [List.append_nil], le_refl _⟩
  | append_singleton later action ih =>
      rw [← List.append_assoc] at horderly ⊢
      obtain ⟨between, hbetween, hle⟩ := ih (orderly_append.mp horderly).1
      obtain ⟨after, hafter, hle', _⟩ := generation_step horderly hbetween
      exact ⟨after, hafter, hle.trans hle'⟩

/-- What is reported is never ahead of the object, if it is not so at first. -/
theorem reported_le_generation (hstart : server.config? p = some start)
    (hreported : reported start ≤ generation start)
    (horderly : OrderlyPasses p server passes schedule)
    (hafter : (passSystem p server passes schedule).server.config? p = some after) :
    reported after ≤ generation after := by
  induction schedule using List.reverseRecOn generalizing after with
  | nil =>
      obtain rfl : start = after := Option.some.inj (hstart.symm.trans hafter)
      exact hreported
  | append_singleton schedule action ih =>
      have hschedule := (orderly_append.mp horderly).1
      obtain ⟨before, hbefore, _⟩ := generation_mono [] hschedule hstart
      obtain ⟨after', hafter', hle, hcase⟩ := generation_step horderly hbefore
      obtain rfl : after = after' := Option.some.inj (hafter.symm.trans hafter')
      rcases hcase with hsame | ⟨r, config, hturn, hnew⟩
      · exact hsame ▸ (ih hschedule hbefore).trans hle
      · -- What was read at first is no newer than what is there now.
        obtain ⟨earlier, later, rfl, hconfig⟩ := hturn.read
        obtain ⟨before', hbefore', hle'⟩ := generation_mono _ hschedule hconfig
        obtain rfl : before = before' := Option.some.inj (hbefore.symm.trans hbefore')
        exact hnew ▸ hle'.trans hle

/-- **Only an older reading turns the report back.** On an orderly schedule, an action of whatever
kind leaves the reported generation as it is or raises it; or it is the accepted write of a pass
that read an older generation at first than the one that is reported, and now reports the one that
it read. What is reported is at no time ahead of the object. -/
theorem lowered_only_by_older_reading {action : Action} (hstart : server.config? p = some start)
    (horderly : OrderlyPasses p server passes (schedule ++ [action])) :
    ∃ before after, (passSystem p server passes schedule).server.config? p = some before ∧
      (passSystem p server passes (schedule ++ [action])).server.config? p = some after ∧
      generation before ≤ generation after ∧
      (reported start ≤ generation start → reported after ≤ generation after) ∧
      (reported before ≤ reported after ∨
        ∃ r config, StatusTurn p server passes schedule action r config ∧
          generation config < reported before ∧ reported after = generation config) := by
  obtain ⟨before, hbefore, _⟩ :=
    generation_mono [] (orderly_append.mp horderly).1 hstart
  obtain ⟨after, hafter, hle, hcase⟩ := generation_step horderly hbefore
  refine ⟨before, after, hbefore, hafter, hle,
    fun hreported => reported_le_generation hstart hreported horderly hafter, ?_⟩
  rcases hcase with hsame | ⟨r, config, hturn, hnew⟩
  · exact Or.inl hsame.ge
  · rcases le_or_gt (reported before) (generation config) with hfresh | hold
    · exact Or.inl (hnew ▸ hfresh)
    · exact Or.inr ⟨r, config, hturn, hold, hnew⟩

/-- The object with a generation, before anything was reported. -/
def ofGeneration (n : Int) : Value :=
  .object [("metadata", .object [("name", .string "cluster"), ("generation", .ofInt n)]),
    ("spec", .object [("injectAnnotations", .bool true)])]

/-- What is stored after a schedule of two passes that find no definition. -/
def storedAfter (schedule : List Action) : Option SecretsConfig :=
  (passSystem (.counting fun _ => none) { config := some (ofGeneration 1) }
    [.onName "a.example", .onName "a.example"] schedule).server.config? (.counting fun _ => none)

/-- The first of two passes reads the object, which is then edited; the second one reads that and
reports it; the first one reads the object again. -/
def overtaking : List Action :=
  .turn 0 .clear :: .edit (some (ofGeneration 2)) [] ::
    (List.replicate 4 (.turn 1 .clear) ++ List.replicate 2 (.turn 0 .clear))

theorem orderly_overtaking :
    OrderlyPasses (.counting fun _ => none) { config := some (ofGeneration 1) }
      [.onName "a.example", .onName "a.example"] (overtaking ++ [.turn 0 .clear]) := by
  have hedit : EditsSpec (.counting fun _ => none) { config := some (ofGeneration 1) }
      (some (ofGeneration 2)) :=
    ⟨_, _, rfl, rfl, rfl, WithBot.coe_le_coe.mpr (by decide)⟩
  refine ⟨hedit, orderly_of_turns fun action hmem => ?_⟩
  rcases List.mem_append.mp hmem with hmem | hmem
  · rcases List.mem_append.mp hmem with hmem | hmem
    · exact ⟨1, .clear, List.eq_of_mem_replicate hmem⟩
    · exact ⟨0, .clear, List.eq_of_mem_replicate hmem⟩
  · exact ⟨0, .clear, List.mem_singleton.mp hmem⟩

/-- What is reported before the last turn of the first pass and after it. -/
theorem reports_overtaken :
    ∃ before after, storedAfter overtaking = some before ∧
      storedAfter (overtaking ++ [.turn 0 .clear]) = some after ∧
      reported before = rank (some 2) ∧ reported after = rank (some 1) := by
  have hreports :
      (storedAfter overtaking).map (fun config =>
          (config.condition? conditionType).bind (·.observedGeneration)) = some (some 2) ∧
        (storedAfter (overtaking ++ [.turn 0 .clear])).map (fun config =>
          (config.condition? conditionType).bind (·.observedGeneration)) = some (some 1) := by
    decide +kernel
  obtain ⟨before, hbefore, hreported⟩ := Option.map_eq_some_iff.mp hreports.1
  obtain ⟨after, hafter, hreported'⟩ := Option.map_eq_some_iff.mp hreports.2
  exact ⟨before, after, hbefore, hafter, congrArg rank hreported, congrArg rank hreported'⟩

theorem rank_one_lt_rank_two : rank (some 1) < rank (some 2) :=
  WithBot.coe_lt_coe.mpr (by decide)

/-- The first pass has read an older generation than the one that is reported, and reports it. -/
theorem older_reading_turns_back :
    ∃ before after config, storedAfter overtaking = some before ∧
      storedAfter (overtaking ++ [.turn 0 .clear]) = some after ∧
      generation config < reported before ∧ reported after = generation config := by
  obtain ⟨before, after, hbefore, hafter, hreported, hreported'⟩ := reports_overtaken
  obtain ⟨before', after', hbefore', hafter', _, _, hcase⟩ :=
    lowered_only_by_older_reading (p := .counting fun _ => none) rfl orderly_overtaking
  obtain rfl : before = before' := Option.some.inj (hbefore.symm.trans hbefore')
  obtain rfl : after = after' := Option.some.inj (hafter.symm.trans hafter')
  rcases hcase with hle | ⟨_, config, _, hold, hnew⟩
  · rw [hreported, hreported'] at hle
    exact absurd rank_one_lt_rank_two (not_lt_of_ge hle)
  · exact ⟨before, after, config, hbefore, hafter, hold, hnew⟩

/-- On an orderly schedule a pass reports an older generation than the one that was reported. -/
theorem report_turned_back :
    OrderlyPasses (.counting fun _ => none) { config := some (ofGeneration 1) }
        [.onName "a.example", .onName "a.example"] (overtaking ++ [.turn 0 .clear]) ∧
      ∃ before after, storedAfter overtaking = some before ∧
        storedAfter (overtaking ++ [.turn 0 .clear]) = some after ∧
        reported after < reported before := by
  obtain ⟨before, after, hbefore, hafter, hreported, hreported'⟩ := reports_overtaken
  refine ⟨orderly_overtaking, before, after, hbefore, hafter, ?_⟩
  rw [hreported, hreported']
  exact rank_one_lt_rank_two

end SecretsWarden.Reconcile
