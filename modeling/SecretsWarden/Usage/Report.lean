import SecretsWarden.Failure
import SecretsWarden.Usage.Strategy

/-!
# Whether a provider is in use

The stores of all kinds that refer to the provider are put together. A kind that cannot be
looked up makes the whole check fail, and so does a cache that is not yet filled. The first few
stores are named, the rest counted.
-/

namespace SecretsWarden.Usage

open Resource

/-- How many stores are named. -/
def maxNamed : Nat := 5

/-- The first few stores by name, and how many more there are. -/
def summarize (stores : List String) : String :=
  if stores.length ≤ maxNamed then ", ".intercalate stores
  else ", ".intercalate (stores.take maxNamed) ++ s!", and {stores.length - maxNamed} more"

structure Report where
  inUse : Bool := false
  /-- The stores in words, empty if there are none. -/
  summary : String := ""
  deriving DecidableEq, Repr

def Report.ofStores (stores : List String) : Report := ⟨!stores.isEmpty, summarize stores⟩

/-- Collects the stores of the given kinds, up to the first failure. -/
def collect (strategies : List (Strategy q r)) (provider : String) (found : List String) :
    List Store.Kind → Dialogue q r (Except Failure (List String))
  | [] => .done (.ok found)
  | kind :: rest =>
    (findFirst strategies kind provider).bind fun
      | .ok more => collect strategies provider (found ++ more) rest
      | .error e => .done (.error (.findStores kind.name e.message))

/-- Checks whether a provider is in use. `synced` is the state of the caches, if they have to
be waited for. -/
def check (strategies : List (Strategy q r)) (provider : String) (synced : Option Bool) :
    Dialogue q r (Except Failure Report) :=
  if synced = some false then .done (.error .cacheNotFilled)
  else
    (collect strategies provider [] Store.Kind.all).bind fun answer =>
      .done (answer.map Report.ofStores)

end SecretsWarden.Usage
