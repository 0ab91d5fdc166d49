import SecretsWarden.Proofs.Usage.Lookup

/-!
# Caches and lists agree

A cache looks at the names under `spec.provider`, a list walks the path to one name. For the same
stores both find the same ones, and name each of them as often. This holds whatever the stores
contain and in whatever order they came into the cache or stand in the list.
-/

namespace SecretsWarden.Usage

open Dialogue Cluster Resource

/-! ## What a cache holds -/

namespace Cache

/-- A store with a new key is added at the end. -/
theorem replaceIn_fresh {stores : List Store} {s : Store}
    (h : s.metadata.key? ∉ stores.map (·.metadata.key?)) : replaceIn s stores = stores ++ [s] := by
  induction stores with
  | nil => rfl
  | cons old rest ih =>
      rw [List.map_cons, List.mem_cons, not_or] at h
      rw [replaceIn, if_neg fun heq => h.1 heq.symm, ih h.2, List.cons_append]

theorem stores_foldl_insert {arrived : List Store} {c : Cache}
    (h : ((c.stores ++ arrived).map (·.metadata.key?)).Nodup) :
    (arrived.foldl insert c).stores = c.stores ++ arrived := by
  induction arrived generalizing c with
  | nil => rw [List.foldl_nil, List.append_nil]
  | cons s rest ih =>
      have hfresh : s.metadata.key? ∉ c.stores.map (·.metadata.key?) := by
        intro hmem
        rw [List.map_append, List.nodup_append] at h
        exact h.2.2 _ hmem _ (by simp) rfl
      have hinsert : (c.insert s).stores = c.stores ++ [s] := replaceIn_fresh hfresh
      rw [List.foldl_cons, ih (by simpa [hinsert] using h), hinsert, List.append_assoc,
        List.singleton_append]

/-- Stores that have keys of their own do not take each other's place. -/
theorem stores_ofList {arrived : List Store} (h : (arrived.map (·.metadata.key?)).Nodup) :
    (ofList arrived).stores = arrived := by
  unfold ofList
  rw [stores_foldl_insert (by simpa using h)]
  rfl

end Cache

/-- Stores with names have keys of their own if no two of them have both the same name and the
same namespace. -/
theorem nodup_key? {stores : List Store} (hnamed : ∀ s ∈ stores, s.metadata.name ≠ none)
    (hdistinct : (stores.map fun s => (s.metadata.namespaceName, s.metadata.name)).Nodup) :
    (stores.map (·.metadata.key?)).Nodup := by
  rw [List.Nodup, List.pairwise_map] at hdistinct ⊢
  refine hdistinct.imp_of_mem ?_
  intro s t hs _ hne hkey
  obtain ⟨name, hname⟩ := Option.ne_none_iff_exists'.mp (hnamed s hs)
  simp only [Meta.key?, hname, Option.map_some] at hkey
  obtain ⟨other, hother, hsame⟩ := Option.map_eq_some_iff.mp hkey.symm
  obtain ⟨hspace, hothername⟩ := Key.mk.inj hsame
  exact hne (by rw [hname, hother, hspace, hothername])

/-! ## The same stores are found -/

/-- What a cache finds are the stores that refer to the provider, each by its words. -/
theorem matching_perm (order : Order) (c : Cache) (kind : Store.Kind) (provider : String) :
    (Index.matching order c kind provider).Perm
      ((c.stores.filter (·.refersTo provider)).map (Store.inWords kind)) := by
  rw [matching_eq]
  exact ((order.perm kind c.stores).filter _).map _

variable {σ : Type}

theorem run_index {index : Index} {kind : Store.Kind} {c : Cache} (h : index kind = some c)
    (order : Order) (provider : String) (answer : Answerer σ Request Reply) (clock : Nat)
    (state : σ) :
    (((index.strategy order).find kind provider).run answer clock state).result =
      .ok (.ok (Index.matching order c kind provider)) := by
  show Except.ok (index.find kind provider order) = _
  rw [Index.find, h]

theorem run_listing {answer : Answerer σ Request Reply} {clock : Nat} {state : σ}
    {kind : Store.Kind} {stores : List Store}
    (h : (answer clock state (.list kind.path "")).1.receive (listReader Store.reader) = .ok stores)
    (provider : String) :
    ((listing.find kind provider).run answer clock state).result =
      .ok (.ok ((stores.filter (·.refersTo provider)).map (Store.inWords kind))) := by
  show Except.ok (readListing kind provider _) = _
  rw [h]
  rfl

/-- **Caches and lists agree.** A cache that holds some stores, and a list of the same stores in any
order, find the same words the same number of times: those of the stores that refer to the provider.
In which order the cache gives them out does not matter. They could not differ on a single store,
whatever it contains. A cache holds the stores that came into it, in whatever order they came. -/
theorem cache_agrees_with_list {stores listed : List Store}
    (hnamed : ∀ s ∈ stores, s.metadata.name ≠ none)
    (hdistinct : (stores.map fun s => (s.metadata.namespaceName, s.metadata.name)).Nodup)
    {index : Index} {kind : Store.Kind} {cache : Cache} (hindex : index kind = some cache)
    (order : Order) (hheld : cache.stores.Perm stores) (hlisted : listed.Perm stores)
    {answer : Answerer σ Request Reply} {clock : Nat} {state : σ}
    (hanswer : (answer clock state (.list kind.path "")).1.receive (listReader Store.reader) =
      .ok listed) (provider : String) :
    (∃ cached found,
      (((index.strategy order).find kind provider).run answer clock state).result =
          .ok (.ok cached) ∧
        ((listing.find kind provider).run answer clock state).result = .ok (.ok found) ∧
        cached.Perm found ∧
        found.Perm ((stores.filter (·.refersTo provider)).map (Store.inWords kind))) ∧
      (∀ s : Store, provider ∈ s.providers ↔ s.refersTo provider = true) ∧
      ∀ arrived : List Store, arrived.Perm stores → (Cache.ofList arrived).stores = arrived := by
  have hcached := matching_perm order cache kind provider
  have hsame := ((hheld.trans hlisted.symm).filter (·.refersTo provider)).map (Store.inWords kind)
  refine ⟨⟨_, _, run_index hindex order provider answer clock state, run_listing hanswer provider,
    hcached.trans hsame, (hlisted.filter _).map _⟩, fun _ => mem_providers, ?_⟩
  intro arrived harrived
  exact Cache.stores_ofList (((harrived.map _).nodup_iff).mpr (nodup_key? hnamed hdistinct))

/-- A store with this value at `spec.provider`. -/
def storeWith (space name : String) (provider : Json.Value) : Store where
  metadata := { name := some name, namespaceName := some space }
  content := .object [
    ("metadata", .object [("name", .string name), ("namespace", .string space)]),
    ("spec", .object [("provider", provider)])]

/-- One provider is bound to null, one is an item of an array, and two stores are called alike. -/
def oddStores : List Store := [storeWith "b" "x" (.object [("aws", .null)]),
  storeWith "a" "x" (.array [.string "aws"]), storeWith "a" "y" (.object [("aws", .bool false)])]

/-- Lists the odd stores, the last one first. -/
def listOddStores : Answerer Unit Request Reply := fun _ _ _ =>
  (.answered 200 (.json (.object [("items", .array (oddStores.reverse.map (·.content)))])), ())

theorem odd_stores_found_by_both :
    ∃ cached found,
      ((Index.strategy (fun _ => some (.ofList oddStores)) |>.find .secretStore "aws").run
          listOddStores 0 ()).result = .ok (.ok cached) ∧
        ((listing.find .secretStore "aws").run listOddStores 0 ()).result = .ok (.ok found) ∧
        cached.Perm found ∧ found.Perm ["SecretStore 'b/x'", "SecretStore 'a/y'"] := by
  have hheld : (Cache.ofList oddStores).stores.Perm oddStores :=
    .of_eq (Cache.stores_ofList (by decide))
  obtain ⟨hfound, _⟩ := @cache_agrees_with_list Unit oddStores oddStores.reverse (by decide)
    (by decide) (fun _ => some (.ofList oddStores)) .secretStore (.ofList oddStores) rfl .byWords
    hheld (List.reverse_perm _) listOddStores 0 () rfl "aws"
  exact hfound

end SecretsWarden.Usage
