import SecretsWarden.Cluster.Client
import SecretsWarden.Resource.Store
import SecretsWarden.Usage.Cache

/-!
# Finding the stores that refer to a provider

A strategy finds the stores of one kind that refer to a provider, or says why it cannot. A
chain of strategies takes the first answer that decides: stores found, or that the kind does not
exist, so that there are none. Any other error goes on to the next strategy.
-/

namespace SecretsWarden.Usage

open Cluster Resource

/-- Why a strategy has no answer. -/
inductive LookupFault where
  /-- The kind is not installed, so nothing refers to the provider. -/
  | notInstalled (kind : String)
  | unavailable (reason : String)
  | request (cause : Cluster.Error)
  deriving DecidableEq, Repr

def LookupFault.message : LookupFault → String
  | .notInstalled kind => s!"{kind} is not installed"
  | .unavailable reason => reason
  | .request e => s!"Kubernetes API error: {e.message}"

/-- A way to find stores. Stores are given in words. -/
structure Strategy (q r : Type) where
  name : String
  find : Store.Kind → (provider : String) → Dialogue q r (Except LookupFault (List String))

/-- The order in which caches give out their stores. It is their own business; all that is known of
it is that no store is lost and none comes twice. -/
structure Order where
  arrange : Store.Kind → List Store → List Store
  perm (kind : Store.Kind) (stores : List Store) : (arrange kind stores).Perm stores

/-- The order of the words for the stores. -/
def Order.byWords : Order where
  arrange kind stores := stores.mergeSort fun a b => !decide (b.inWords kind < a.inWords kind)
  perm _ _ := List.mergeSort_perm _ _

/-- The caches that there are, one for a kind at most. -/
abbrev Index := Store.Kind → Option Cache

namespace Index

/-- The cached stores that refer to a provider. -/
def matching (order : Order) (c : Cache) (kind : Store.Kind) (provider : String) : List String :=
  ((order.arrange kind c.stores).filter fun s => s.providers.contains provider).map
    (Store.inWords kind)

def find (index : Index) (kind : Store.Kind) (provider : String) (order : Order := .byWords) :
    Except LookupFault (List String) :=
  match index kind with
  | some cache => .ok (matching order cache kind provider)
  | none => .error (.unavailable s!"no provider index for {kind.name}")

/-- Looks into the caches and asks nothing. -/
def strategy (index : Index) (order : Order := .byWords) : Strategy q r where
  name := "index"
  find kind provider := .done (index.find kind provider order)

end Index

/-- What the answer to a list request says. A kind that is not found is told apart. -/
def readListing (kind : Store.Kind) (provider : String) :
    Except Cluster.Error (List Store) → Except LookupFault (List String)
  | .ok stores => .ok ((stores.filter (·.refersTo provider)).map (Store.inWords kind))
  | .error e => .error (if e.isNotFound then .notInstalled kind.name else .request e)

def listing : Strategy Request Reply where
  name := "list"
  find kind provider :=
    (list kind.path "" Store.reader).bind fun answer => .done (readListing kind provider answer)

/-- Goes on with the strategies after the error of the one before. -/
def findAfter (last : LookupFault) (kind : Store.Kind) (provider : String) :
    List (Strategy q r) → Dialogue q r (Except LookupFault (List String))
  | [] => .done (.error last)
  | s :: rest =>
    (s.find kind provider).bind fun
      | .ok found => .done (.ok found)
      | .error (.notInstalled _) => .done (.ok [])
      | .error e => findAfter e kind provider rest

/-- Tries strategies in order up to the first that decides. -/
def findFirst (strategies : List (Strategy q r)) (kind : Store.Kind) (provider : String) :
    Dialogue q r (Except LookupFault (List String)) :=
  findAfter (.unavailable "no lookup strategies configured") kind provider strategies

/-- The same strategy where other questions are asked. -/
def Strategy.translate (f : q → q') (s : Strategy q r) : Strategy q' r where
  name := s.name
  find kind provider := (s.find kind provider).translate f

end SecretsWarden.Usage
