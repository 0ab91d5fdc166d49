import SecretsWarden.Operator
import SecretsWarden.Proofs.Cluster.Exchange
import SecretsWarden.Proofs.Json.Path

/-!
# Look-ups by caches and lists

What the chain of the operator asks and finds: for a kind with a cache nothing is asked and the
cache decides; for any other kind one list is asked for and its answer decides. Collecting over
kinds goes on as long as each kind is decided.

The two strategies look at a store in different ways, the caches by the names under
`spec.provider` and the lists by a path; `mem_providers` says that they agree.
-/

namespace SecretsWarden.Usage

open Dialogue Cluster Resource

/-! ## One store -/

/-- A store refers to a provider exactly if it is one of the store's providers. -/
theorem mem_providers {s : Store} {provider : String} :
    provider ∈ s.providers ↔ s.refersTo provider = true := by
  have hpath := s.content.at?_append ["spec", "provider"] [provider]
  rw [Store.refersTo, show ["spec", "provider", provider] = ["spec", "provider"] ++ [provider]
    from rfl, hpath, Store.providers]
  cases s.content.at? ["spec", "provider"] with
  | none => simp
  | some v =>
      rw [Option.bind_some, Json.Value.at?_cons, List.mem_mergeSort, Json.Value.mem_names]
      cases v.get? provider <;> simp

/-- What a cache finds are the stores that refer to the provider, in the order of the cache. -/
theorem matching_eq (order : Order) (c : Cache) (kind : Store.Kind) (provider : String) :
    Index.matching order c kind provider =
      ((order.arrange kind c.stores).filter (·.refersTo provider)).map (Store.inWords kind) := by
  unfold Index.matching
  congr 1
  refine List.filter_congr fun s _ => ?_
  rw [Bool.eq_iff_iff, List.contains_iff_mem, mem_providers]

theorem matching_eq_nil {order : Order} {c : Cache} {kind : Store.Kind} {provider : String} :
    Index.matching order c kind provider = [] ↔ ∀ s ∈ c.stores, s.refersTo provider = false := by
  simp only [matching_eq, List.map_eq_nil_iff, List.filter_eq_nil_iff, Bool.not_eq_true,
    (order.perm kind c.stores).mem_iff]

/-! ## One kind -/

/-- The answer of the chain after the answer of its last strategy. -/
def settle : Except LookupFault (List String) → Except LookupFault (List String)
  | .error (.notInstalled _) => .ok []
  | answer => answer

/-- A kind is looked up in its cache, or by a list if it has none. -/
inductive Finds (index : Index) (order : Order) (provider : String) (kind : Store.Kind) :
    Course Request Reply → Except LookupFault (List String) → Prop where
  | cached {cache : Cache} (h : index kind = some cache) :
      Finds index order provider kind [] (.ok (Index.matching order cache kind provider))
  | listed (h : index kind = none) (reply : Reply) :
      Finds index order provider kind [.asked (.list kind.path "") reply]
        (settle (readListing kind provider (reply.receive (listReader Store.reader))))

/-- The chain of caches and lists decides in one of the two ways. -/
theorem gives_findFirst (index : Index) (order : Order) (provider : String) (kind : Store.Kind) :
    (findFirst [index.strategy order, listing] kind provider).Gives
      (Finds index order provider kind) := by
  cases hindex : index kind with
  | some cache =>
      simp only [findFirst, findAfter, Index.strategy, Index.find, hindex, Dialogue.bind]
      exact gives_done (.cached hindex)
  | none =>
      simp only [findFirst, findAfter, Index.strategy, Index.find, hindex, Dialogue.bind, listing,
        Dialogue.bind_assoc]
      refine (gives_list _ _ _).bind ?_
      rintro _ _ ⟨reply, rfl, rfl⟩
      have hlisted : Finds index order provider kind _ _ := .listed hindex reply
      cases hread : readListing kind provider (reply.receive (listReader Store.reader)) with
      | ok found =>
          rw [hread] at hlisted
          exact gives_done_append hlisted
      | error fault =>
          rw [hread] at hlisted
          cases fault <;> exact gives_done_append hlisted

/-! ## All kinds -/

/-- The kinds are looked up one after the other, up to the first that cannot be decided. -/
inductive Collects (index : Index) (order : Order) (provider : String) :
    List Store.Kind → Course Request Reply → Except Failure (List String) → Prop where
  | done : Collects index order provider [] [] (.ok [])
  | failed {kind : Store.Kind} {rest : List Store.Kind} {c : Course Request Reply}
      {e : LookupFault} (h : Finds index order provider kind c (.error e)) :
      Collects index order provider (kind :: rest) c (.error (.findStores kind.name e.message))
  | found {kind : Store.Kind} {rest : List Store.Kind} {c₁ c₂ : Course Request Reply}
      {more : List String} {answer : Except Failure (List String)}
      (h : Finds index order provider kind c₁ (.ok more))
      (hrest : Collects index order provider rest c₂ answer) :
      Collects index order provider (kind :: rest) (c₁ ++ c₂) (answer.map (more ++ ·))

theorem gives_collect (index : Index) (order : Order) (provider : String) (found : List String)
    (kinds : List Store.Kind) :
    (collect [index.strategy order, listing] provider found kinds).Gives fun c all =>
      ∃ answer, all = answer.map (found ++ ·) ∧
        Collects index order provider kinds c answer := by
  induction kinds generalizing found with
  | nil => exact gives_done ⟨.ok [], by simp [Except.map], .done⟩
  | cons kind rest ih =>
      refine (gives_findFirst index order provider kind).bind fun result c hfinds => ?_
      cases result with
      | error e =>
          refine gives_done ⟨.error (.findStores kind.name e.message), rfl, ?_⟩
          rw [List.append_nil]
          exact .failed hfinds
      | ok more =>
          refine (ih (found ++ more)).imp ?_
          rintro c' _ ⟨answer, rfl, hrest⟩
          refine ⟨_, ?_, .found hfinds hrest⟩
          cases answer <;> simp [Except.map]

/-- A check with filled caches reports what is collected over all kinds. -/
theorem gives_check (index : Index) (order : Order) (provider : String) :
    (check [index.strategy order, listing] provider (some true)).Gives fun c usage =>
      ∃ answer, usage = answer.map Report.ofStores ∧
        Collects index order provider Store.Kind.all c answer := by
  rw [check, if_neg (by decide)]
  refine (gives_collect index order provider [] Store.Kind.all).map ?_
  rintro c _ ⟨answer, rfl, hcollects⟩
  refine ⟨answer, ?_, hcollects⟩
  cases answer <;> simp [Except.map]

end SecretsWarden.Usage
