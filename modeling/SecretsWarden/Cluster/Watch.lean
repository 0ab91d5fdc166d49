import SecretsWarden.Cluster.Client
import SecretsWarden.Resource.Meta

/-!
# Lists by pages, and what a watch tells

Whoever wants to follow the objects under a path first lists them, page by page, and then
watches for the changes after the version of that list. A watch is answered by lines, each of
which holds one event. A line that breaks off tells nothing; any other line that is no event is
a fault.
-/

namespace SecretsWarden.Cluster

open Json

/-- Objects that can be followed. -/
structure Source (α : Type) where
  path : String
  /-- What a query says to select them, empty for all. -/
  selector : String
  reader : Reader α
  metadata : α → Resource.Meta

/-! ## Requests -/

/-- A letter of a query: what is neither a letter nor a digit nor one of a few signs is written
as a percent sign and two hexadecimal digits for each byte. -/
def encodeByte (b : UInt8) : List Char :=
  let c := Char.ofNat b.toNat
  if c.isAlphanum ∨ c = '*' ∨ c = '-' ∨ c = '.' ∨ c = '_' then [c]
  else if c = ' ' then ['+']
  else
    ['%', (hexDigit (b.toNat / 16)).toUpper, (hexDigit (b.toNat % 16)).toUpper]

/-- A text as the value of a query parameter. -/
def encodeQuery (s : String) : String :=
  String.ofList (s.toUTF8.toList.flatMap encodeByte)

def pageSize : Nat := 500

/-- How many seconds a watch lasts. -/
def watchSeconds : Nat := 290

namespace Source

/-- Asks for a page of the list, from the beginning or from where a page ended. -/
def pageRequest (source : Source α) (start : String) : Request :=
  .list source.path (s!"{source.selector}&limit={pageSize}"
    ++ if start.isEmpty then "" else "&continue=" ++ encodeQuery start)

/-- Watches for the changes after a version. -/
def watchRequest (source : Source α) (version : String) : Request :=
  .list source.path (s!"&watch=true&timeoutSeconds={watchSeconds}{source.selector}"
    ++ s!"&allowWatchBookmarks=true&resourceVersion={encodeQuery version}")

/-- The version of an object, empty if it has none. -/
def version (source : Source α) (object : α) : String :=
  (source.metadata object).resourceVersion.getD ""

end Source

/-! ## Pages -/

structure Page (α : Type) where
  objects : List α
  /-- The version of the list, empty if the page does not have it. -/
  version : String
  /-- Where the next page starts, empty on the last page. -/
  next : String

/-- A text in the metadata of a list, empty if it is missing. -/
def metadataText (v : Value) (name : String) : String :=
  ((v.at? ["metadata", name]).bind Value.string?).getD ""

def pageReader (reader : Reader α) : Reader (Page α) where
  shape := listShape reader.shape
  table := reader.table
  ofJson? v := do
    some ⟨← items? reader.ofJson? v, metadataText v "resourceVersion", metadataText v "continue"⟩

/-! ## Events -/

/-- What a watch tells. -/
inductive Event (α : Type) where
  /-- The object is new or has changed. -/
  | applied (object : α)
  | deleted (object : α)
  /-- Nothing has happened up to this version. -/
  | bookmark (version : String)
  | failed (cause : Status)
  deriving Repr

namespace Event

def bookmarkReader : Reader String where
  shape := .extended [("metadata", .required, .record [
    ("resourceVersion", .required, .text), ("annotations", .optional, .map .text)])]
    ["apiVersion", "kind"]
  ofJson? v := (v.at? ["metadata", "resourceVersion"]).bind Value.string?

def types : List String := ["ADDED", "MODIFIED", "DELETED", "BOOKMARK", "ERROR"]

def readType (r : Raw) : Except Fault String :=
  ((Shape.choice types).read {} r).map fun v => v.string?.getD ""

/-- Reads the object of an event of that type. -/
def readObject (reader : Reader α) (isHeld : Bool) (type : String) (r : Raw) :
    Except Fault (Event α) :=
  match type with
  | "DELETED" => (reader.read isHeld r).map deleted
  | "BOOKMARK" => (bookmarkReader.read isHeld r).map bookmark
  | "ERROR" => (Status.reader.read isHeld r).map failed
  | _ => (reader.read isHeld r).map applied

/-- How far an event is read. -/
inductive Progress (α : Type) where
  | nothing
  | typed (type : String)
  /-- The object came before the type. -/
  | held (object : Raw)
  | complete (event : Event α)

/-- Reads the members of an event in their order. An object is read once the type is known;
before that only its grammar counts. -/
def readMembers (reader : Reader α) (stop : Option Fault) (progress : Progress α) :
    List (Raw × Raw) → Except Fault (Event α)
  | [] =>
    match progress with
    | .complete event => Raw.close stop event
    | _ => .error (stop.getD .unfit)
  | (name, r) :: rest => do
    match ← name.name, progress with
    | "type", .nothing => readMembers reader stop (.typed (← readType r)) rest
    | "type", .held object =>
      let event ← readObject reader true (← readType r) object
      readMembers reader stop (.complete event) rest
    | "object", .nothing =>
      let _ ← r.value
      readMembers reader stop (.held r) rest
    | "object", .typed type =>
      let event ← readObject reader false type r
      readMembers reader stop (.complete event) rest
    | "type", _ | "object", _ => .error .unfit
    | _, progress =>
      match r.skip with
      | some fault => .error fault
      | none => readMembers reader stop progress rest

/-- Reads an event, which is an object or an array of its type and its object. -/
def ofRaw (reader : Reader α) : Raw → Except Fault (Event α)
  | .object _ members stop => readMembers reader stop .nothing members
  | .array _ [] stop => .error (stop.getD .unfit)
  | .array _ (type :: rest) stop => do
    let type ← readType type
    match rest with
    | [] => .error (stop.getD .unfit)
    | r :: rest =>
      let event ← readObject reader false type r
      if rest.isEmpty then Raw.close stop event else .error .illFormed
  | r => .error r.misfit

end Event

/-! ## Lines -/

inductive Line (α : Type) where
  | event (event : Event α)
  | unreadable
  deriving Repr

namespace Line

/-- What a reading of an event means. -/
def ofReading? : Except Fault (Event α) → Option (Line α)
  | .ok e => some (event e)
  | .error .incomplete => none
  | .error _ => some unreadable

def ofText? (reader : Reader α) (text : String) : Option (Line α) :=
  let d := Document.ofText text
  ofReading? ((Event.ofRaw reader d.value).bind d.finish)

/-- A line without the carriage return at its end. -/
def trim (line : List UInt8) : List UInt8 :=
  if line.getLast? = some 13 then line.dropLast else line

/-- Splits bytes at their line feeds; `line` is what stands before them, in reverse. What
follows the last line feed is a line too, unless there is nothing in it. -/
def split (line : List UInt8) : List UInt8 → List (List UInt8)
  | [] => if (trim line.reverse).isEmpty then [] else [trim line.reverse]
  | b :: bs => if b = 10 then trim line.reverse :: split [] bs else split (b :: line) bs

/-- Reads lines up to the first one that is no text. -/
def ofLines (reader : Reader α) : List (List UInt8) → List (Line α)
  | [] => []
  | line :: rest =>
    match Text.decodeUtf8 line with
    | .ok text => (ofText? reader text).toList ++ ofLines reader rest
    | .error _ => [unreadable]

end Line

/-- The lines of a watch with the times at which they come, and whether the watch ends then. -/
structure Feed (α : Type) where
  lines : List (Nat × Line α)
  ends : Bool

namespace Feed

/-- Lines come one after the other: none before an earlier one. -/
def inOrder (least : Nat) : List (Nat × Line α) → List (Nat × Line α)
  | [] => []
  | (time, line) :: rest => (max least time, line) :: inOrder (max least time) rest

/-- The feed of a watch that began at some time, if it began. Whatever is no stream of events
comes at once, whatever its status code. -/
def ofReply? (reader : Reader α) (clock : Nat) : Reply → Option (Feed α)
  | .failed _ => none
  | .stream events =>
    some ⟨inOrder clock (events.filterMap fun (delay, v) =>
      (Line.ofText? reader v.render).map (clock + delay, ·)), false⟩
  | .answered _ (.json v) =>
    some ⟨(Line.ofText? reader v.render).toList.map (clock, ·), true⟩
  | .answered _ (.bytes content) =>
    some ⟨(Line.ofLines reader (Line.split [] content)).map (clock, ·), true⟩

end Feed

end SecretsWarden.Cluster
