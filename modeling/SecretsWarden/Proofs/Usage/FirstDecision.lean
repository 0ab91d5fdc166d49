import SecretsWarden.Proofs.Dialogue.Calls
import SecretsWarden.Usage.Strategy

/-!
# The first decision counts

A chain asks its strategies one after the other until one decides: with stores, or with the answer
that the kind does not exist. Any other error leaves the decision to the next strategy, and that of
the last one is the error of the chain. To say which strategies are asked, `visits` lets all of them
look, each from where the one before it ended; the chain makes the visits up to the first decision
and no more.

Strategies may do anything here. What they keep from one look-up to the next is part of the state of
the one who answers them.
-/

namespace SecretsWarden.Usage

open Dialogue Resource

/-- One look-up by one strategy: what happens in it, and how it ends. -/
structure Visit (σ q r : Type) where
  course : Course q r
  ending : Ending σ (Except LookupFault (List String))

variable {σ q r : Type} {answer : Answerer σ q r} {kind : Store.Kind} {provider : String}
  {clock : Nat} {state : σ} {s : Strategy q r} {strategies rest : List (Strategy q r)}
  {last e : LookupFault} {outcome : Except Duration.Fault (Except LookupFault (List String))}

/-- The look-up by a strategy at a time and in a state. -/
def visit (answer : Answerer σ q r) (kind : Store.Kind) (provider : String) (clock : Nat)
    (state : σ) (s : Strategy q r) : Visit σ q r where
  course := (s.find kind provider).course answer clock state
  ending := (s.find kind provider).run answer clock state

/-- The look-ups by all strategies, each beginning where the one before it ended. -/
def visits (answer : Answerer σ q r) (kind : Store.Kind) (provider : String) (clock : Nat)
    (state : σ) : List (Strategy q r) → List (Visit σ q r)
  | [] => []
  | s :: rest =>
    let v := visit answer kind provider clock state s
    v :: visits answer kind provider v.ending.clock v.ending.state rest

/-- What a look-up decides, if it does. Stores decide, and so does the answer that the kind does not
exist; a look-up that breaks off ends everything. -/
def Visit.decision? (v : Visit σ q r) :
    Option (Except Duration.Fault (Except LookupFault (List String))) :=
  match v.ending.result with
  | .ok (.ok found) => some (.ok (.ok found))
  | .ok (.error (.notInstalled _)) => some (.ok (.ok []))
  | .ok (.error _) => none
  | .error fault => some (.error fault)

/-- How the last of some look-ups ended, if there were any. -/
def lastEnding (start : Ending σ (Except LookupFault (List String))) :
    List (Visit σ q r) → Ending σ (Except LookupFault (List String))
  | [] => start
  | v :: rest => lastEnding v.ending rest

/-! ## One strategy -/

/-- Only another error than that the kind does not exist leaves the decision open. -/
theorem decision?_eq_none {v : Visit σ q r} :
    v.decision? = none ↔
      ∃ e, v.ending.result = .ok (.error e) ∧ ∀ name, e ≠ .notInstalled name := by
  unfold Visit.decision?
  constructor
  · intro h
    split at h
    · cases h
    · cases h
    · rename_i e hopen hresult
      exact ⟨e, hresult, hopen⟩
    · cases h
  · rintro ⟨e, hresult, hopen⟩
    rw [hresult]
    cases e with
    | notInstalled name => exact absurd rfl (hopen name)
    | unavailable reason => rfl
    | request cause => rfl

/-- What a chain does about the answer of a strategy. -/
def afterAnswer (kind : Store.Kind) (provider : String) (rest : List (Strategy q r)) :
    Except LookupFault (List String) → Dialogue q r (Except LookupFault (List String))
  | .ok found => .done (.ok found)
  | .error (.notInstalled _) => .done (.ok [])
  | .error e => findAfter e kind provider rest

theorem findAfter_cons (last : LookupFault) (kind : Store.Kind) (provider : String)
    (s : Strategy q r) (rest : List (Strategy q r)) :
    findAfter last kind provider (s :: rest) =
      (s.find kind provider).bind (afterAnswer kind provider rest) :=
  rfl

/-- A look-up that comes to an answer leads to what the chain does about it. -/
theorem reaches_afterAnswer {found : Except LookupFault (List String)} (last : LookupFault)
    (rest : List (Strategy q r))
    (h : (visit answer kind provider clock state s).ending.result = .ok found) :
    Reaches answer clock state (findAfter last kind provider (s :: rest))
      (visit answer kind provider clock state s).course
      (visit answer kind provider clock state s).ending.clock
      (visit answer kind provider clock state s).ending.state
      (afterAnswer kind provider rest found) := by
  rw [findAfter_cons]
  apply reaches_bind
  rw [← h]
  rfl

/-- A decision is the end of the chain. -/
theorem findAfter_decided (last : LookupFault) (rest : List (Strategy q r))
    (h : (visit answer kind provider clock state s).decision? = some outcome) :
    (findAfter last kind provider (s :: rest)).run answer clock state =
        { (visit answer kind provider clock state s).ending with result := outcome } ∧
      (findAfter last kind provider (s :: rest)).course answer clock state =
        (visit answer kind provider clock state s).course := by
  have hdone : ∀ {found decided}, (visit answer kind provider clock state s).ending.result =
      .ok found → afterAnswer kind provider rest found = .done decided →
      (findAfter last kind provider (s :: rest)).run answer clock state =
          { (visit answer kind provider clock state s).ending with result := .ok decided } ∧
        (findAfter last kind provider (s :: rest)).course answer clock state =
          (visit answer kind provider clock state s).course := by
    intro found decided hfound hnext
    have hreaches := reaches_afterAnswer last rest hfound
    rw [hnext] at hreaches
    exact ⟨hreaches.run_eq, hreaches.course_eq.trans (List.append_nil _)⟩
  unfold Visit.decision? at h
  split at h
  · rename_i hresult
    cases h
    exact hdone hresult rfl
  · rename_i hresult
    cases h
    exact hdone hresult rfl
  · cases h
  · rename_i fault hresult
    cases h
    refine ⟨?_, course_bind_of_error hresult _⟩
    rw [findAfter_cons, run_bind]
    unfold visit at hresult ⊢
    generalize (s.find kind provider).run answer clock state = ending at hresult ⊢
    obtain ⟨result, clock', state'⟩ := ending
    cases hresult
    rfl

/-- A look-up that decides nothing leads to the rest of the chain. -/
theorem findAfter_undecided (last : LookupFault) (rest : List (Strategy q r))
    (h : (visit answer kind provider clock state s).decision? = none) :
    ∃ e, (visit answer kind provider clock state s).ending.result = .ok (.error e) ∧
      Reaches answer clock state (findAfter last kind provider (s :: rest))
        (visit answer kind provider clock state s).course
        (visit answer kind provider clock state s).ending.clock
        (visit answer kind provider clock state s).ending.state
        (findAfter e kind provider rest) := by
  obtain ⟨e, hresult, hopen⟩ := decision?_eq_none.mp h
  refine ⟨e, hresult, ?_⟩
  have hreaches := reaches_afterAnswer last rest hresult
  cases e with
  | notInstalled name => exact absurd rfl (hopen name)
  | unavailable reason => exact hreaches
  | request cause => exact hreaches

/-! ## A chain -/

/-- Look-ups that decide nothing lead to the rest of the chain, with the error of the last one. -/
theorem reaches_rest {start : Ending σ (Except LookupFault (List String))}
    (hstart : start.result = .ok (.error last)) (more : List (Strategy q r))
    (h : ∀ v ∈ visits answer kind provider start.clock start.state strategies,
      v.decision? = none) :
    ∃ e, (lastEnding start
          (visits answer kind provider start.clock start.state strategies)).result =
        .ok (.error e) ∧
      Reaches answer start.clock start.state (findAfter last kind provider (strategies ++ more))
        ((visits answer kind provider start.clock start.state strategies).flatMap (·.course))
        (lastEnding start (visits answer kind provider start.clock start.state strategies)).clock
        (lastEnding start (visits answer kind provider start.clock start.state strategies)).state
        (findAfter e kind provider more) := by
  induction strategies generalizing start last with
  | nil => exact ⟨last, hstart, .stay _ _ _⟩
  | cons s rest ih =>
      rw [visits, List.forall_mem_cons] at h
      obtain ⟨hfirst, hrest⟩ := h
      obtain ⟨e, hresult, hreaches⟩ := findAfter_undecided last (rest ++ more) hfirst
      obtain ⟨e', hlast, hmore⟩ := ih hresult hrest
      exact ⟨e', hlast, hreaches.trans hmore⟩

/-- Before any strategy was asked, there is none to name. -/
def atStart (clock : Nat) (state : σ) : Ending σ (Except LookupFault (List String)) :=
  ⟨.ok (.error (.unavailable "no lookup strategies configured")), clock, state⟩

theorem reaches_end {e : LookupFault} {d : Dialogue q r (Except LookupFault (List String))}
    {c : Course q r} {ending : Ending σ (Except LookupFault (List String))}
    (h : Reaches answer clock state d c ending.clock ending.state (findAfter e kind provider []))
    (hresult : ending.result = .ok (.error e)) :
    d.run answer clock state = ending ∧ d.course answer clock state = c := by
  refine ⟨?_, h.course_eq.trans (List.append_nil c)⟩
  rw [h.run_eq, findAfter, Dialogue.run, ← hresult]

/-- The strategies of the visits before one are those of the chain before one. -/
theorem exists_of_visits_eq (start : Ending σ (Except LookupFault (List String)))
    {before after : List (Visit σ q r)} {v : Visit σ q r}
    (h : visits answer kind provider start.clock start.state strategies = before ++ v :: after) :
    ∃ earlier s later, strategies = earlier ++ s :: later ∧
      before = visits answer kind provider start.clock start.state earlier ∧
      v = visit answer kind provider (lastEnding start before).clock
        (lastEnding start before).state s := by
  induction strategies generalizing start before with
  | nil => cases before <;> cases h
  | cons s rest ih =>
      cases before with
      | nil =>
          obtain ⟨hv, _⟩ := List.cons.inj h
          exact ⟨[], s, rest, rfl, rfl, hv.symm⟩
      | cons u before =>
          obtain ⟨hu, hrest⟩ := List.cons.inj h
          subst hu
          obtain ⟨earlier, s', later, rfl, hbefore, hv⟩ := ih _ hrest
          exact ⟨s :: earlier, s', later, rfl, congrArg (_ :: ·) hbefore, hv⟩

/-- A chain comes to the first decision, and asks no strategy after that. -/
theorem findFirst_decided {before after : List (Visit σ q r)} {v : Visit σ q r}
    (hvisits : visits answer kind provider clock state strategies = before ++ v :: after)
    (hbefore : ∀ u ∈ before, u.decision? = none) (hv : v.decision? = some outcome) :
    (findFirst strategies kind provider).run answer clock state =
        { v.ending with result := outcome } ∧
      (findFirst strategies kind provider).course answer clock state =
        (before ++ [v]).flatMap (·.course) := by
  have hstart : (atStart clock state).result =
      .ok (.error (.unavailable "no lookup strategies configured")) := rfl
  obtain ⟨earlier, s, rest, rfl, rfl, rfl⟩ :=
    exists_of_visits_eq (atStart clock state) hvisits
  obtain ⟨e, _, hreaches⟩ := reaches_rest hstart (s :: rest) hbefore
  obtain ⟨hrun, hcourse⟩ := findAfter_decided e rest hv
  refine ⟨hreaches.run_eq.trans hrun, ?_⟩
  rw [List.flatMap_append, List.flatMap_singleton, ← hcourse]
  exact hreaches.course_eq

/-- A chain in which nothing is decided asks all strategies and ends like the last one. -/
theorem findFirst_undecided
    (h : ∀ v ∈ visits answer kind provider clock state strategies, v.decision? = none) :
    (findFirst strategies kind provider).run answer clock state =
        lastEnding (atStart clock state) (visits answer kind provider clock state strategies) ∧
      (findFirst strategies kind provider).course answer clock state =
        (visits answer kind provider clock state strategies).flatMap (·.course) := by
  have hstart : (atStart clock state).result =
      .ok (.error (.unavailable "no lookup strategies configured")) := rfl
  obtain ⟨e, hresult, hreaches⟩ := reaches_rest hstart [] h
  rw [List.append_nil] at hreaches
  exact reaches_end hreaches hresult

/-- Strategies that decide nothing lead to the chain behind them, if that has a strategy at all. -/
theorem reaches_findFirst {failing : List (Strategy q r)} (hne : strategies ≠ [])
    (h : ∀ v ∈ visits answer kind provider clock state failing, v.decision? = none) :
    Reaches answer clock state (findFirst (failing ++ strategies) kind provider)
      ((visits answer kind provider clock state failing).flatMap (·.course))
      (lastEnding (atStart clock state) (visits answer kind provider clock state failing)).clock
      (lastEnding (atStart clock state) (visits answer kind provider clock state failing)).state
      (findFirst strategies kind provider) := by
  have hstart : (atStart clock state).result =
      .ok (.error (.unavailable "no lookup strategies configured")) := rfl
  obtain ⟨s, rest, rfl⟩ := List.exists_cons_of_ne_nil hne
  obtain ⟨e, _, hreaches⟩ := reaches_rest hstart (s :: rest) h
  -- A strategy that is there forgets the error of the one before it.
  exact hreaches

/-- The error of a chain is that of its last strategy, and nothing was decided before. -/
theorem undecided_of_error
    (h : ((findFirst strategies kind provider).run answer clock state).result = .ok (.error e)) :
    (∀ v ∈ visits answer kind provider clock state strategies, v.decision? = none) ∧
      (lastEnding (atStart clock state)
        (visits answer kind provider clock state strategies)).result = .ok (.error e) := by
  have hundecided :
      ∀ v ∈ visits answer kind provider clock state strategies, v.decision? = none := by
    by_contra hsome
    push Not at hsome
    obtain ⟨v, hv, hdecided⟩ := hsome
    have hfind : ((visits answer kind provider clock state strategies).find?
        (·.decision?.isSome)).isSome = true := by
      rw [List.find?_isSome]
      exact ⟨v, hv, Option.isSome_iff_ne_none.mpr hdecided⟩
    obtain ⟨first, hfirst⟩ := Option.isSome_iff_exists.mp hfind
    obtain ⟨hfirst, before, after, hvisits, hbefore⟩ := List.find?_eq_some_iff_append.mp hfirst
    obtain ⟨outcome, houtcome⟩ := Option.isSome_iff_exists.mp hfirst
    obtain ⟨hrun, _⟩ := findFirst_decided hvisits
      (fun u hu => by simpa using hbefore u hu) houtcome
    -- A decision is never an error of a strategy.
    rw [hrun] at h
    have hresult : outcome = .ok (.error e) := h
    subst hresult
    unfold Visit.decision? at houtcome
    split at houtcome <;> cases houtcome
  refine ⟨hundecided, ?_⟩
  rw [← (findFirst_undecided hundecided).1]
  exact h

/-- **The first decision counts.** Whatever the strategies do, they are asked in order up to the
first one that decides, and its decision is that of the chain; if none decides, all of them are
asked, and the error is that of the last one. So in front of a chain that has a strategy at all,
strategies that decide nothing only make it begin later. -/
theorem first_decision_counts (answer : Answerer σ q r) (kind : Store.Kind) (provider : String)
    (strategies : List (Strategy q r)) (clock : Nat) (state : σ) :
    (∀ before v after outcome,
      visits answer kind provider clock state strategies = before ++ v :: after →
      (∀ u ∈ before, u.decision? = none) → v.decision? = some outcome →
        (findFirst strategies kind provider).run answer clock state =
            { v.ending with result := outcome } ∧
          (findFirst strategies kind provider).course answer clock state =
            (before ++ [v]).flatMap (·.course)) ∧
    ((∀ v ∈ visits answer kind provider clock state strategies, v.decision? = none) →
      (findFirst strategies kind provider).run answer clock state =
          lastEnding (atStart clock state)
            (visits answer kind provider clock state strategies) ∧
        (findFirst strategies kind provider).course answer clock state =
          (visits answer kind provider clock state strategies).flatMap (·.course)) ∧
    ∀ failing : List (Strategy q r), strategies ≠ [] →
      (∀ v ∈ visits answer kind provider clock state failing, v.decision? = none) →
      ∃ later, later = lastEnding (atStart clock state)
          (visits answer kind provider clock state failing) ∧
        (findFirst (failing ++ strategies) kind provider).run answer clock state =
          (findFirst strategies kind provider).run answer later.clock later.state ∧
        (findFirst (failing ++ strategies) kind provider).course answer clock state =
          (visits answer kind provider clock state failing).flatMap (·.course) ++
            (findFirst strategies kind provider).course answer later.clock later.state := by
  refine ⟨?_, findFirst_undecided, ?_⟩
  · intro before v after outcome hvisits hbefore hv
    exact findFirst_decided hvisits hbefore hv
  · intro failing hne h
    have hreaches := reaches_findFirst hne h
    exact ⟨_, rfl, hreaches.run_eq, hreaches.course_eq⟩

/-- Asks whether it is ready, and finds one store if it is. -/
def hesitant : Strategy Unit Bool where
  name := "hesitant"
  find _ _ := .ask () fun ready =>
    .done (if ready then .ok ["SecretStore 'a'"] else .error (.unavailable "not ready"))

/-- Says yes from the second question on. -/
def readyAtSecond : Answerer Nat Unit Bool := fun _ asked _ => (0 < asked, asked + 1)

/-- Of three strategies the second one decides and the third one is not asked. One alone fails. -/
theorem second_strategy_decides :
    (findFirst [hesitant, hesitant, hesitant] .secretStore "aws").run readyAtSecond 0 0 =
        ⟨.ok (.ok ["SecretStore 'a'"]), 0, 2⟩ ∧
      (findFirst [hesitant] .secretStore "aws").run readyAtSecond 0 0 =
        ⟨.ok (.error (.unavailable "not ready")), 0, 1⟩ ∧
      (findFirst ([hesitant] ++ [hesitant]) .secretStore "aws").run readyAtSecond 0 0 =
        (findFirst [hesitant] .secretStore "aws").run readyAtSecond 0 1 := by
  have hfails : ∀ v ∈ visits readyAtSecond .secretStore "aws" 0 0 [hesitant],
      v.decision? = none := by
    intro v hv
    rw [List.mem_singleton.mp hv]
    rfl
  obtain ⟨hdecided, _, _⟩ := first_decision_counts readyAtSecond .secretStore "aws"
    [hesitant, hesitant, hesitant] 0 0
  obtain ⟨_, hundecided, hprepended⟩ := first_decision_counts readyAtSecond .secretStore "aws"
    [hesitant] 0 0
  refine ⟨(hdecided [_] _ [_] (.ok (.ok ["SecretStore 'a'"])) rfl hfails rfl).1,
    (hundecided hfails).1, ?_⟩
  obtain ⟨_, rfl, hrun, _⟩ := hprepended [hesitant] (List.cons_ne_nil _ _) hfails
  exact hrun

end SecretsWarden.Usage
