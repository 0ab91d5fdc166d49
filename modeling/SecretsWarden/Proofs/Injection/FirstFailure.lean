import Mathlib.Data.List.Forall2
import SecretsWarden.Proofs.Injection.Sweep

/-!
# A sweep patches a prefix

The definitions without the annotation are patched in the order of the list, each as often as it is
listed, up to the first patch that fails. How many were patched, where the sweep stopped and which
definition the error names all follow from the list and from that first failure.
-/

namespace SecretsWarden.Injection

open Cluster Dialogue Json Resource

/-- The definitions that need a patch, in the order of the list. -/
def pending (definitions : List Definition) : List Definition :=
  definitions.filter (!·.isAnnotated)

/-- What was asked to patch one definition, and what came of it. A patch that could not be built is
an attempt too, at which nothing was asked. -/
abbrev Attempt := Course Request Reply × Except Error Definition

def Attempt.Succeeded (a : Attempt) : Prop := ∃ d, a.2 = .ok d

/-- The attempts at a list of definitions up to the first failure, with the result that goes with
them. -/
structure PatchesPrefix (candidates : List Definition) (attempts : List Attempt)
    (result : Except Failure Nat) : Prop where
  attempted : List.Forall₂ (fun d a => Exchanged Definition.reader (patching d) a.1 a.2)
    (candidates.take attempts.length) attempts
  succeeded : (∀ a ∈ attempts, a.Succeeded) →
    attempts.length = candidates.length ∧ result = .ok candidates.length
  failed : ∀ k c e, attempts[k]? = some (c, .error e) →
    attempts.length = k + 1 ∧ (∀ a ∈ attempts.take k, a.Succeeded) ∧
      ∃ d, candidates[k]? = some d ∧ result = .error (.patchDefinition d.name e)

variable {d : Definition} {definitions candidates : List Definition} {attempts : List Attempt}
  {c : Course Request Reply} {result : Except Failure Nat}

theorem patchesPrefix_nil : PatchesPrefix [] [] (.ok 0) where
  attempted := .nil
  succeeded := fun _ => ⟨rfl, rfl⟩
  failed := by
    intro k c e hk
    cases hk

/-- The first patch failed, so there was no other. -/
theorem patchesPrefix_failed {e : Error}
    (h : Exchanged Definition.reader (patching d) c (.error e)) (rest : List Definition) :
    PatchesPrefix (d :: rest) [(c, .error e)] (.error (.patchDefinition d.name e)) where
  attempted := .cons h .nil
  succeeded := by
    intro hall
    obtain ⟨d', hd'⟩ := hall _ List.mem_cons_self
    cases hd'
  failed := by
    intro k c' e' hk
    cases k with
    | zero =>
        cases hk
        exact ⟨rfl, List.forall_mem_nil _, d, rfl, rfl⟩
    | succ k => cases hk

/-- One more definition before the others was patched with success. -/
theorem PatchesPrefix.cons {d' : Definition} (hrest : PatchesPrefix candidates attempts result)
    (h : Exchanged Definition.reader (patching d) c (.ok d')) :
    PatchesPrefix (d :: candidates) ((c, .ok d') :: attempts) (result.map (1 + ·)) where
  attempted := .cons h hrest.attempted
  succeeded := by
    intro hall
    obtain ⟨hlength, hresult⟩ := hrest.succeeded fun a ha => hall a (List.mem_cons_of_mem _ ha)
    subst hresult
    refine ⟨congrArg (· + 1) hlength, ?_⟩
    rw [List.length_cons, Nat.add_comm]
    rfl
  failed := by
    intro k c' e hk
    cases k with
    | zero => cases hk
    | succ k =>
        obtain ⟨hlength, hearlier, failing, hfailing, rfl⟩ := hrest.failed k c' e hk
        refine ⟨congrArg (· + 1) hlength, ?_, failing, hfailing, rfl⟩
        exact List.forall_mem_cons.mpr ⟨⟨d', rfl⟩, hearlier⟩

/-- A sweep is made of attempts at the definitions that need a patch. -/
theorem patchesPrefix_of_sweeps (h : Sweeps definitions c result) :
    ∃ attempts, c = attempts.flatMap Prod.fst ∧
      PatchesPrefix (pending definitions) attempts result := by
  unfold pending
  induction h with
  | done => exact ⟨[], rfl, patchesPrefix_nil⟩
  | @failed d rest c failure h =>
      obtain ⟨hbare, e, rfl, hsent⟩ := h.of_error
      rw [List.filter_cons_of_pos (by simp [hbare])]
      exact ⟨[(c, .error e)], (List.append_nil c).symm, patchesPrefix_failed hsent _⟩
  | @went d rest c₁ c₂ patched result h hrest ih =>
      obtain ⟨attempts, rfl, hattempts⟩ := ih
      rcases h.of_ok with ⟨hannotated, rfl, rfl⟩ | ⟨hbare, rfl, d', hsent⟩
      · rw [List.filter_cons_of_neg (by simp [hannotated])]
        refine ⟨attempts, rfl, ?_⟩
        show PatchesPrefix _ attempts (result.map (0 + ·))
        rwa [map_zero_add]
      · rw [List.filter_cons_of_pos (by simp [hbare])]
        exact ⟨(c₁, .ok d') :: attempts, rfl, hattempts.cons hsent⟩

/-- A definition that has the annotation is not asked about. -/
theorem patching_of_mem_annotates {answered : Except Failure Bool} (h : Annotates d c answered) :
    ∀ x ∈ exchanges c, d.isAnnotated = false ∧ patching d = .ok x.1 := by
  intro x hx
  cases h with
  | already hannotated => cases hx
  | sent hannotated hsent =>
      cases hsent with
      | unbuilt hbuilt => cases hx
      | sent hbuilt reply =>
          rw [List.mem_singleton.mp hx]
          exact ⟨hannotated, hbuilt⟩

theorem patching_of_mem_sweeps (h : Sweeps definitions c result) :
    ∀ x ∈ exchanges c, ∃ d ∈ definitions, d.isAnnotated = false ∧ patching d = .ok x.1 := by
  induction h with
  | done =>
      intro x hx
      cases hx
  | @failed d rest c e h =>
      intro x hx
      exact ⟨d, List.mem_cons_self, patching_of_mem_annotates h x hx⟩
  | @went d rest c₁ c₂ patched result h hrest ih =>
      intro x hx
      rw [exchanges_append] at hx
      rcases List.mem_append.mp hx with hx | hx
      · exact ⟨d, List.mem_cons_self, patching_of_mem_annotates h x hx⟩
      · obtain ⟨d', hd', hpatching⟩ := ih x hx
        exact ⟨d', List.mem_cons_of_mem _ hd', hpatching⟩

/-- **A sweep patches a prefix.** Whatever is answered, the definitions are listed at first. If that
fails, nothing else is asked, and the error says which ones were to be listed. Otherwise the listed
definitions without the annotation are patched in order, all of them or up to the first patch that
fails, and the result is their number or the error with the name of that one. No other definition
is patched. -/
theorem sweep_patches_prefix {σ : Type} (answer : Answerer σ Request Reply) (clock : Nat)
    (state : σ) :
    ∃ reply rest result,
      annotateAll.course answer clock state =
        .asked (.list Definition.path Definition.selectorQuery) reply :: rest ∧
      (annotateAll.run answer clock state).result = .ok result ∧
      (∀ e, reply.receive (listReader Definition.reader) = .error e →
        rest = [] ∧ result = .error (.listDefinitions Definition.selector e)) ∧
      ∀ definitions, reply.receive (listReader Definition.reader) = .ok definitions →
        (∃ attempts, rest = attempts.flatMap Prod.fst ∧
          PatchesPrefix (pending definitions) attempts result) ∧
        ∀ x ∈ exchanges rest, ∃ d ∈ definitions, d.isAnnotated = false ∧ patching d = .ok x.1 := by
  obtain ⟨result, hresult, h⟩ := gives_annotateAll (ends_run answer annotateAll clock state)
  generalize annotateAll.course answer clock state = course at h
  cases h with
  | @unlisted reply e hlist =>
      refine ⟨reply, [], _, rfl, hresult, ?_, ?_⟩
      · intro e' he'
        cases hlist.symm.trans he'
        exact ⟨rfl, rfl⟩
      · intro definitions hdefinitions
        cases hlist.symm.trans hdefinitions
  | @listed reply definitions rest result hlist hsweeps =>
      refine ⟨reply, rest, result, rfl, hresult, ?_, ?_⟩
      · intro e he
        cases hlist.symm.trans he
      · intro definitions' hdefinitions
        cases hlist.symm.trans hdefinitions
        exact ⟨patchesPrefix_of_sweeps hsweeps, patching_of_mem_sweeps hsweeps⟩

end SecretsWarden.Injection
