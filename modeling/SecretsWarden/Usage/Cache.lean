import SecretsWarden.Resource.Store

/-!
# A cache of stores

A cache holds one store for each key. A new store takes the place of the one it replaces. A
store without a key cannot be cached.
-/

namespace SecretsWarden.Usage

open Resource

structure Cache where
  stores : List Store := []
  deriving Repr, Inhabited

namespace Cache

def replaceIn (s : Store) : List Store → List Store
  | [] => [s]
  | old :: rest =>
    if old.metadata.key? = s.metadata.key? then s :: rest else old :: replaceIn s rest

def insert (c : Cache) (s : Store) : Cache := ⟨replaceIn s c.stores⟩

/-- Takes the store with the key of another out of the cache. -/
def erase (c : Cache) (s : Store) : Cache :=
  ⟨c.stores.filter fun old => old.metadata.key? ≠ s.metadata.key?⟩

def ofList (stores : List Store) : Cache := stores.foldl insert {}

/-- The cache of some stores, if all of them have keys. -/
def ofList? (stores : List Store) : Option Cache :=
  if stores.all fun s => s.metadata.key?.isSome then some (ofList stores) else none

end Cache

end SecretsWarden.Usage
