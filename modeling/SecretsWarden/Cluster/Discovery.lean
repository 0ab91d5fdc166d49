import SecretsWarden.Cluster.Client
import SecretsWarden.Json.Shape

/-!
# Which kinds the API server serves

The API server lists its groups with their versions, and for each version the resources. Of
several groups of one name the last one counts, of several entries for one version the first.
The group without a name is the core group and is asked for elsewhere.
-/

namespace SecretsWarden.Cluster

open Json

/-- What names a kind of objects. -/
structure KindId where
  group : String
  version : String
  kind : String
  deriving DecidableEq, Repr

namespace Discovery

/-- A version of a group, and where its resources are listed. -/
structure GroupVersion where
  version : String
  path : String
  deriving DecidableEq, Repr

/-- A version of a group, and the kinds of its resources. -/
structure ServedVersion where
  version : String
  kinds : List String
  deriving DecidableEq, Repr

/-- A group by name, with its versions. -/
abbrev Group := String × List GroupVersion

def addresses : Shape :=
  .list (.object [("clientCIDR", .text), ("serverAddress", .text)])

def versionShape : Shape := .object [("groupVersion", .text), ("version", .text)]

def groupShape : Shape := .object [
  ("apiVersion", .exactly "v1"), ("kind", .exactly "APIGroup"), ("name", .text),
  ("preferredVersion", versionShape), ("serverAddressByClientCIDRs", addresses),
  ("versions", .list versionShape)]

def groupsShape : Shape := .object [
  ("apiVersion", .exactly "v1"), ("kind", .exactly "APIGroupList"),
  ("groups", .list groupShape)]

def coreShape : Shape := .object [
  ("apiVersion", .exactly "v1"), ("kind", .exactly "APIVersions"),
  ("serverAddressByClientCIDRs", addresses), ("versions", .list .text)]

def resourceShape : Shape := .object [
  ("categories", .list .text), ("group", .text), ("kind", .text), ("name", .text),
  ("namespaced", .flag), ("shortNames", .list .text), ("singularName", .text),
  ("storageVersionHash", .text), ("verbs", .list .text), ("version", .text)]

def resourcesShape : Shape := .object [
  ("apiVersion", .exactly "v1"), ("kind", .exactly "APIResourceList"), ("groupVersion", .text),
  ("resources", .list resourceShape)]

/-- Reads a value by its shape alone. -/
def shaped (shape : Shape) (read : Value → α) : Reader α where
  shape
  ofJson? v := (shape.accept? [] v).map read

/-- A text member, empty if it is missing. -/
def textOf (name : String) (v : Value) : String := ((v.get? name).bind Value.string?).getD ""

/-- The items of a list member, none if it is missing. -/
def itemsOf (name : String) (v : Value) : List Value :=
  match v.get? name with
  | some (.array items) => items
  | _ => []

def readGroups : Reader (List Group) :=
  shaped groupsShape fun v => (itemsOf "groups" v).map fun g =>
    (textOf "name" g, (itemsOf "versions" g).map fun gv =>
      ⟨textOf "version" gv, "/apis/" ++ textOf "groupVersion" gv⟩)

def readCore : Reader (List GroupVersion) :=
  shaped coreShape fun v => (itemsOf "versions" v).filterMap fun version =>
    version.string?.map fun s => ⟨s, "/api/" ++ s⟩

/-- The kinds of the listed resources; parts of a resource, with a slash in the name, do not
count. -/
def readKinds : Reader (List String) :=
  shaped resourcesShape fun v =>
    ((itemsOf "resources" v).filter fun r => !(textOf "name" r).toList.contains '/').map
      (textOf "kind")

/-- Asks for the resources of each version. -/
def serveVersions : List GroupVersion → Session (Except Error (List ServedVersion))
  | [] => .done (.ok [])
  | gv :: rest =>
    (sendBuilt readKinds (Request.address gv.path)).bind fun
      | .error e => .done (.error e)
      | .ok kinds => (serveVersions rest).bind fun
        | .error e => .done (.error e)
        | .ok served => .done (.ok (⟨gv.version, kinds⟩ :: served))

/-- A group must have versions. -/
def serveGroup : Group → Session (Except Error (List ServedVersion))
  | (name, []) => .done (.error (.emptyGroup name))
  | (_, versions) => serveVersions versions

/-- Asks for all groups in turn; the last one counts. -/
def serveGroups (last : List ServedVersion) :
    List Group → Session (Except Error (List ServedVersion))
  | [] => .done (.ok last)
  | g :: rest =>
    (serveGroup g).bind fun
      | .error e => .done (.error e)
      | .ok served => serveGroups served rest

/-- What is served of the group of that name. -/
def servedGroup (name : String) : Session (Except Error (List ServedVersion)) :=
  (sendBuilt readGroups (Request.address "/apis")).bind fun
    | .error e => .done (.error e)
    | .ok groups => (serveGroups [] (groups.filter (·.1 = name))).bind fun
      | .error e => .done (.error e)
      | .ok served =>
        if name.isEmpty then
          (sendBuilt readCore (Request.address "/api")).bind fun
            | .error e => .done (.error e)
            | .ok versions => serveGroup (name, versions)
        else .done (.ok served)

/-- Whether the versions of a group have a kind. -/
def offers (served : List ServedVersion) (id : KindId) : Bool :=
  match served.find? (·.version = id.version) with
  | some v => v.kinds.contains id.kind
  | none => false

end Discovery

/-- Whether the API server serves a kind. -/
def serves (id : KindId) : Session (Except Error Bool) :=
  (Discovery.servedGroup id.group).bind fun
    | .error e => .done (.error e)
    | .ok served => .done (.ok (Discovery.offers served id))

/-- The wait after the first look for a kind, in seconds. -/
def firstWait : UInt64 := 10

/-- The longest wait between two looks for a kind, in seconds. -/
def longestWait : UInt64 := 60

/-- The wait that follows a wait, in seconds. -/
def nextWait (seconds : UInt64) : UInt64 := min (seconds * 2) longestWait

/-- Looks for a kind again and again, at most `looks` times. An error counts as not yet
served. The result says whether the kind was found. -/
def awaitKindFrom (id : KindId) : (looks : Nat) → (wait : UInt64) → Session Bool
  | 0, _ => .done false
  | looks + 1, wait =>
    (serves id).bind fun
      | .ok true => .done true
      | _ => .pause (.ofSeconds wait.toNat) (awaitKindFrom id looks (nextWait wait))

/-- Waits until a kind is served, with growing waits between the looks. -/
def awaitKind (id : KindId) (looks : Nat) : Session Bool := awaitKindFrom id looks firstWait

end SecretsWarden.Cluster
