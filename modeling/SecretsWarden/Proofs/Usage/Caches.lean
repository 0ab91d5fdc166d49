import SecretsWarden.Proofs.Usage.FirstLists

/-!
# What the caches of the informers hold

Each change of the informers is one of a single kind, and only the cache of that kind follows it. Of
each key a cache holds what was said of it last: a list says of all keys at once what there is, a
new or changed store takes the place of the one before it, and a store that is gone leaves none.
-/

namespace SecretsWarden.Usage

open Resource

/-! ## One cache -/

namespace Cache

/-- The store of a key. -/
def get? (c : Cache) (key : Option Key) : Option Store :=
  c.stores.find? (·.metadata.key? = key)

variable {key : Option Key}

theorem find?_replaceIn (s : Store) (stores : List Store) :
    (replaceIn s stores).find? (·.metadata.key? = key) =
      if s.metadata.key? = key then some s else stores.find? (·.metadata.key? = key) := by
  induction stores with
  | nil => by_cases hs : s.metadata.key? = key <;> simp [replaceIn, hs]
  | cons old rest ih =>
      unfold replaceIn
      by_cases hold : old.metadata.key? = s.metadata.key?
      · by_cases hs : s.metadata.key? = key <;> simp [hold, hs]
      · rw [if_neg hold, List.find?_cons, List.find?_cons, ih]
        by_cases hkey : old.metadata.key? = key
        · have hs : s.metadata.key? ≠ key := fun hs => hold (hkey.trans hs.symm)
          simp [hkey, hs]
        · simp [hkey]

theorem get?_insert (c : Cache) (s : Store) :
    (c.insert s).get? key = if s.metadata.key? = key then some s else c.get? key :=
  find?_replaceIn s c.stores

theorem get?_erase (c : Cache) (s : Store) :
    (c.erase s).get? key = if s.metadata.key? = key then none else c.get? key := by
  unfold erase get?
  rw [List.find?_filter]
  by_cases hs : s.metadata.key? = key
  · rw [if_pos hs, List.find?_eq_none]
    simp [hs]
  · rw [if_neg hs]
    congr 1
    funext old
    by_cases hold : old.metadata.key? = key
    · have hne : ¬ key = s.metadata.key? := fun h => hs h.symm
      simp [hold, hne]
    · simp [hold]

/-- Of stores that came one after the other, the last one with a key is held. -/
theorem get?_ofList (arrived : List Store) :
    (ofList arrived).get? key = arrived.reverse.find? (·.metadata.key? = key) := by
  induction arrived using List.reverseRecOn with
  | nil => rfl
  | append_singleton earlier s ih =>
      have hlast : ofList (earlier ++ [s]) = (ofList earlier).insert s := List.foldl_append
      rw [hlast, get?_insert, ih, List.reverse_append, List.reverse_singleton,
        List.singleton_append, List.find?_cons]
      by_cases hs : s.metadata.key? = key <;> simp [hs]

/-- No two stores have the same key. -/
def Distinct (c : Cache) : Prop := (c.stores.map (·.metadata.key?)).Nodup

theorem keys_replaceIn (s : Store) (stores : List Store) :
    (replaceIn s stores).map (·.metadata.key?) =
      if s.metadata.key? ∈ stores.map (·.metadata.key?) then stores.map (·.metadata.key?)
      else stores.map (·.metadata.key?) ++ [s.metadata.key?] := by
  induction stores with
  | nil => simp [replaceIn]
  | cons old rest ih =>
      unfold replaceIn
      by_cases hold : old.metadata.key? = s.metadata.key?
      · simp [hold]
      · rw [if_neg hold, List.map_cons, ih, List.map_cons]
        by_cases hmem : s.metadata.key? ∈ rest.map (·.metadata.key?)
        · rw [if_pos hmem, if_pos (List.mem_cons_of_mem _ hmem)]
        · rw [if_neg hmem, if_neg, List.cons_append]
          rw [List.mem_cons, not_or]
          exact ⟨Ne.symm hold, hmem⟩

theorem Distinct.insert {c : Cache} (h : c.Distinct) (s : Store) : (c.insert s).Distinct := by
  show ((replaceIn s c.stores).map (·.metadata.key?)).Nodup
  rw [keys_replaceIn]
  by_cases hmem : s.metadata.key? ∈ c.stores.map (·.metadata.key?)
  · rw [if_pos hmem]
    exact h
  · rw [if_neg hmem, ← List.concat_eq_append]
    exact List.Nodup.concat hmem h

theorem Distinct.foldl_insert {c : Cache} (h : c.Distinct) (arrived : List Store) :
    (arrived.foldl Cache.insert c).Distinct := by
  induction arrived generalizing c with
  | nil => exact h
  | cons s rest ih => exact ih (h.insert s)

/-- What a store of the cache is like shows in what is held of the keys. -/
theorem Distinct.forall_stores {c : Cache} (h : c.Distinct) {P : Store → Prop} :
    (∀ s ∈ c.stores, P s) ↔ ∀ key s, c.get? key = some s → P s := by
  constructor
  · intro hall key s hs
    exact hall s (List.mem_of_find?_eq_some hs)
  · intro hall s hs
    obtain ⟨held, hheld⟩ : ∃ held, c.get? s.metadata.key? = some held := by
      rw [← Option.isSome_iff_exists, get?, List.find?_isSome]
      exact ⟨s, hs, by simp⟩
    have hkey : held.metadata.key? = s.metadata.key? := by simpa using List.find?_some hheld
    have hsame := List.inj_on_of_nodup_map h (List.mem_of_find?_eq_some hheld) hs hkey
    exact hsame ▸ hall _ held hheld

/-- What a change makes of the cache of a kind. -/
def follow (kind : Store.Kind) (c : Cache) : InformerChange → Cache
  | .listed k stores => if k = kind then .ofList stores else c
  | .applied k s => if k = kind then c.insert s else c
  | .deleted k s => if k = kind then c.erase s else c
  | .awaited => c

theorem Distinct.follow {c : Cache} (h : c.Distinct) (kind : Store.Kind)
    (change : InformerChange) : (c.follow kind change).Distinct := by
  have hempty : Distinct {} := .nil
  cases change with
  | awaited => exact h
  | listed k stores =>
      rw [Cache.follow]
      split
      · exact hempty.foldl_insert stores
      · exact h
  | applied k s =>
      rw [Cache.follow]
      split
      · exact h.insert s
      · exact h
  | deleted k s =>
      rw [Cache.follow]
      split
      · exact h.sublist (List.filter_sublist.map _)
      · exact h

end Cache

/-- What is held of a key after a change, if that much was held of it before. -/
def hear (kind : Store.Kind) (key : Option Key) (held : Option Store) :
    InformerChange → Option Store
  | .listed k stores =>
    if k = kind then stores.reverse.find? (·.metadata.key? = key) else held
  | .applied k s => if k = kind ∧ s.metadata.key? = key then some s else held
  | .deleted k s => if k = kind ∧ s.metadata.key? = key then none else held
  | .awaited => held

theorem Cache.get?_follow (kind : Store.Kind) (key : Option Key) (c : Cache)
    (change : InformerChange) :
    (c.follow kind change).get? key = hear kind key (c.get? key) change := by
  cases change with
  | awaited => rfl
  | listed k stores =>
      by_cases hk : k = kind
      · simp [follow, hear, hk, get?_ofList]
      · simp [follow, hear, hk]
  | applied k s =>
      by_cases hk : k = kind
      · simp [follow, hear, hk, get?_insert]
      · simp [follow, hear, hk]
  | deleted k s =>
      by_cases hk : k = kind
      · simp [follow, hear, hk, get?_erase]
      · simp [follow, hear, hk]

/-! ## All caches -/

namespace Informers

variable {kind : Store.Kind}

theorem find?_update (i : Informers) (k : Store.Kind) (f : Informer → Informer)
    (hf : ∀ x, (f x).kind = x.kind) :
    (i.update k f).started.find? (·.kind = kind) =
      (i.started.find? (·.kind = kind)).map fun x => if x.kind = k then f x else x := by
  unfold update
  rw [List.find?_map]
  congr 1
  refine congrArg (List.find? · i.started) (funext fun x => ?_)
  by_cases hk : x.kind = k <;> simp [hk, hf]

/-- Only the cache of its kind follows a change. -/
theorem index_step (i : Informers) (change : InformerChange) :
    (i.step change).index kind = (i.index kind).map (Cache.follow kind · change) := by
  have hindex : ∀ i : Informers,
      i.index kind = (i.started.find? (·.kind = kind)).map (·.cache) := fun _ => rfl
  have hupdate : ∀ (k : Store.Kind) (f : Informer → Informer), (∀ x, (f x).kind = x.kind) →
      (∀ x : Informer, (if kind = k then f x else x).cache = x.cache.follow kind change) →
      (i.update k f).index kind = (i.index kind).map (Cache.follow kind · change) := by
    intro k f hf hcache
    rw [hindex, hindex, find?_update i k f hf, Option.map_map, Option.map_map]
    cases hfound : i.started.find? (·.kind = kind) with
    | none => rfl
    | some x =>
        have hkind : x.kind = kind := by simpa using List.find?_some hfound
        simp only [Option.map_some, Function.comp_apply, hkind, hcache]
  cases change with
  | awaited => exact Option.map_id'.symm
  | listed k stores =>
      refine hupdate k _ (fun _ => rfl) fun x => ?_
      by_cases hk : k = kind
      · simp [hk, Cache.follow, Informer.list]
      · simp [hk, Ne.symm hk, Cache.follow]
  | applied k s =>
      refine hupdate k _ (fun _ => rfl) fun x => ?_
      by_cases hk : k = kind
      · simp [hk, Cache.follow, Informer.apply]
      · simp [hk, Ne.symm hk, Cache.follow]
  | deleted k s =>
      refine hupdate k _ (fun _ => rfl) fun x => ?_
      by_cases hk : k = kind
      · simp [hk, Cache.follow, Informer.delete]
      · simp [hk, Ne.symm hk, Cache.follow]

theorem index_after (i : Informers) (changes : List InformerChange) :
    (i.after changes).index kind =
      (i.index kind).map fun c => changes.foldl (Cache.follow kind) c := by
  induction changes using List.reverseRecOn with
  | nil => simp
  | append_singleton changes change ih =>
      rw [after_snoc, index_step, ih, Option.map_map]
      refine congrArg (Option.map · (i.index kind)) (funext fun c => ?_)
      rw [List.foldl_append]
      rfl

theorem index_ofKinds (ks : List Store.Kind) :
    (ofKinds ks).index kind = if kind ∈ ks then some {} else none := by
  induction ks with
  | nil => rfl
  | cons k rest ih =>
      have hcons : (ofKinds (k :: rest)).index kind =
          if k = kind then some {} else (ofKinds rest).index kind := by
        by_cases hk : k = kind <;> simp [index, ofKinds, hk]
      rw [hcons, ih]
      by_cases hk : k = kind
      · simp [hk]
      · simp [hk, Ne.symm hk]

theorem distinct_after (kind : Store.Kind) (changes : List InformerChange) {c : Cache}
    (h : c.Distinct) : (changes.foldl (Cache.follow kind) c).Distinct := by
  induction changes generalizing c with
  | nil => exact h
  | cons change rest ih => exact ih (h.follow kind change)

theorem get?_after (kind : Store.Kind) (key : Option Key) (changes : List InformerChange)
    (c : Cache) : (changes.foldl (Cache.follow kind) c).get? key =
      changes.foldl (hear kind key) (c.get? key) := by
  induction changes generalizing c with
  | nil => rfl
  | cons change rest ih => rw [List.foldl_cons, ih, Cache.get?_follow, List.foldl_cons]

/-- **A cache holds the last word.** After any changes each kind that is followed has a cache, and
no other kind has one. Of each key the cache holds what was said of it last in the changes of that
kind, and it holds nothing else. -/
theorem cache_after (ks : List Store.Kind) (changes : List InformerChange) (kind : Store.Kind) :
    (kind ∉ ks → ((ofKinds ks).after changes).index kind = none) ∧
      (kind ∈ ks → ∃ cache, ((ofKinds ks).after changes).index kind = some cache ∧
        cache.Distinct ∧ ∀ key, cache.get? key = changes.foldl (hear kind key) none) := by
  rw [index_after, index_ofKinds]
  constructor
  · intro hkind
    rw [if_neg hkind]
    rfl
  · intro hkind
    rw [if_pos hkind]
    exact ⟨_, rfl, distinct_after kind changes .nil, fun key => get?_after kind key changes {}⟩

end Informers

end SecretsWarden.Usage
