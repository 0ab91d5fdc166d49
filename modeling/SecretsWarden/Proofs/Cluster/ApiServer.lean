import SecretsWarden.Cluster.Client
import SecretsWarden.Proofs.Cluster.Address
import SecretsWarden.Proofs.Json.MergePatch
import SecretsWarden.Proofs.Resource.Reading

/-!
# A reference API server

The server keeps the one configuration object and any number of definitions. Each write of the
configuration object gives it a version that it never had before, and a patch of its status that
carries another version than the current one is a conflict. Everything is read as it is stored,
and patches are merge patches.

What a real server may do as it likes is a parameter: which versions it takes, and with which
errors it meets changes of definitions.
-/

namespace SecretsWarden.Cluster

open Json Resource

/-- Whether an answer carries no object, but says that something went wrong. -/
def Reply.isRefusal : Reply → Bool
  | .failed _ | .stream _ => true
  | .answered status _ => isFailure status

/-- What a server does as it likes. -/
structure Policy where
  /-- The version of the configuration object after so many writes. -/
  version : Nat → String
  version_injective : ∀ {m n : Nat}, version m = version n → m = n
  /-- The error that meets a change of the definition at an address, if one does. -/
  refusal : String → Option { reply : Reply // reply.isRefusal = true }

/-- Versions that count the writes in strokes. -/
def Policy.counting (refusal : String → Option { reply : Reply // reply.isRefusal = true }) :
    Policy where
  version n := String.ofList (List.replicate n '|')
  version_injective h := by
    have hlength := congrArg (fun v => v.toList.length) h
    simpa using hlength
  refusal

structure ApiServer where
  config : Option Value := none
  definitions : List Value := []
  /-- How often the configuration object was written. -/
  writes : Nat := 0

namespace ApiServer

/-! ## Objects -/

/-- The object with a version of its own. -/
def stamped (version : String) (v : Value) : Value :=
  v.mergePatch (.object [("metadata", .object [("resourceVersion", .string version)])])

def configAddress : String := SecretsConfig.path ++ "/" ++ SecretsConfig.singleton

def statusAddress : String := configAddress ++ "/status"

/-- Where a definition is kept. -/
def address? (definition : Value) : Option String :=
  (name? definition).map (Definition.path ++ "/" ++ ·)

variable (p : Policy) (s : ApiServer)

/-- The configuration object, with its current version. -/
def object? : Option Value := s.config.map (stamped (p.version s.writes))

/-- What the configuration object reads as. -/
def config? : Option SecretsConfig := (s.object? p).bind SecretsConfig.ofJson?

def definition? (address : String) : Option Value :=
  s.definitions.find? fun d => address? d = some address

/-! ## Answers -/

def refused (code : Nat) (reason : String) : Reply :=
  .answered code (.json (.object [("status", .string "Failure"), ("reason", .string reason),
    ("code", .ofNat code)]))

def absence : Reply := refused 404 "NotFound"

def conflict : Reply := refused 409 "Conflict"

/-- The answer that carries an object, if there is one. -/
def found? : Option Value → Reply
  | some v => .answered 200 (.json v)
  | none => absence

/-- The definitions that a query selects. -/
def selected (query : Option String) : List Value :=
  if query = some Definition.selectorQuery then
    s.definitions.filter labelled
  else s.definitions

def read (request : Request) : Reply :=
  if request.path = configAddress then found? (s.object? p)
  else if request.path = Definition.path then
    .answered 200 (.json (.object [("items", .array (s.selected request.query))]))
  else found? (s.definition? request.path)

/-- Gives the configuration object a new content and a new version. -/
def write (config : Option Value) : ApiServer :=
  { s with config, writes := s.writes + 1 }

/-- Changes the definition at an address. -/
def change (address : String) (body : Value) : ApiServer :=
  { s with
    definitions := s.definitions.map fun d =>
      if address? d = some address then d.mergePatch body else d }

/-- Patches the status, unless the patch was made for another version. -/
def patchStatus (body : Value) : Reply × ApiServer :=
  match s.object? p with
  | none => (absence, s)
  | some current =>
    if version? body = none ∨ version? body = version? current then
      let after := s.write (some (current.mergePatch body))
      (found? (after.object? p), after)
    else (conflict, s)

def patchDefinition (address : String) (body : Value) : Reply × ApiServer :=
  match s.definition? address, p.refusal address with
  | none, _ => (absence, s)
  | some _, some refusal => (refusal, s)
  | some d, none => (found? (some (d.mergePatch body)), s.change address body)

def answer (request : Request) : Reply × ApiServer :=
  match request.method, request.body with
  | .get, _ => (s.read p request, s)
  | .patch, none => (refused 400 "BadRequest", s)
  | .patch, some body =>
    if request.path = statusAddress then s.patchStatus p body
    else s.patchDefinition p request.path body

/-! ## How answers read -/

/-- The error of an answer that carries a value of another shape than was asked for. -/
def unfit (v : Value) : Error := .malformed .unfit v.render

variable {p s} {α : Type} {reader : Reader α}

theorem receive_refusal (reader : Reader α) {reply : Reply} (h : reply.isRefusal = true) :
    ∃ e, reply.receive reader = .error e := by
  cases reply with
  | failed reason => exact ⟨_, rfl⟩
  | stream events => exact ⟨_, rfl⟩
  | answered status body =>
      have hfailure : isFailure status = true := h
      cases htext : body.text with
      | error fault =>
          refine ⟨.notUtf8 fault, ?_⟩
          simp only [Reply.receive, htext]
      | ok text =>
          refine ⟨errorOf status body text, ?_⟩
          simp only [Reply.receive, htext, hfailure, if_true]

theorem receive_success (v : Value) :
    (Reply.answered 200 (.json v)).receive reader =
      match reader.ofJson? v with
      | some a => .ok a
      | none => .error (unfit v) := by
  have hread : (Body.json v).read reader v.render =
      match reader.ofJson? v with
      | some a => .ok a
      | none => .error .unfit := rfl
  show ((Body.json v).read reader v.render).mapError _ = _
  rw [hread]
  cases reader.ofJson? v <;> rfl

theorem receive_of_ofJson? {v : Value} {a : α} (h : reader.ofJson? v = some a) :
    (Reply.answered 200 (.json v)).receive reader = .ok a := by
  rw [receive_success, h]

/-- An object that was read is the one that was asked for. -/
theorem receive_found? {v? : Option Value} {a : α} (h : (found? v?).receive reader = .ok a) :
    ∃ v, v? = some v ∧ reader.ofJson? v = some a := by
  cases v? with
  | none =>
      have hrefusal : absence.isRefusal = true := rfl
      obtain ⟨e, he⟩ := receive_refusal reader hrefusal
      rw [found?, he] at h
      cases h
  | some v =>
      rw [found?, receive_success] at h
      refine ⟨v, rfl, ?_⟩
      split at h <;> cases h
      assumption

/-! ## Versions -/

theorem version?_stamped (version : String) (v : Value) :
    version? (stamped version v) = some version := by
  unfold stamped version?
  rw [Value.mergePatch_object, Value.mergeMembers_cons _ _ _ (by simp), Value.mergePatch_object,
    Value.mergeMembers_cons _ _ _ (by simp)]
  simp [Value.mergeMembers, Value.mergePatch, Value.at?_cons, Value.get?, Value.string?]

theorem version?_object? {v : Value} (h : s.object? p = some v) :
    version? v = some (p.version s.writes) := by
  unfold object? at h
  obtain ⟨w, _, rfl⟩ := Option.map_eq_some_iff.mp h
  exact version?_stamped _ w

theorem object?_write (p : Policy) (s : ApiServer) (v : Value) :
    (s.write (some v)).object? p = some (stamped (p.version (s.writes + 1)) v) :=
  rfl

theorem config?_eq_some {c : SecretsConfig} :
    s.config? p = some c ↔ ∃ v, s.object? p = some v ∧ SecretsConfig.ofJson? v = some c :=
  Option.bind_eq_some_iff

/-! ## Addresses of the configuration object -/

theorem isPathText_path : IsPathText SecretsConfig.path := by decide

/-- What begins like the path of definitions does not begin like that of the configuration
object. -/
theorem not_prefix_of_prefix {address : List Char} (h : Definition.path.toList <+: address) :
    ¬ SecretsConfig.path.toList <+: address := by
  intro h'
  have hle := List.prefix_of_prefix_length_le h h' (by decide)
  exact absurd hle (by decide)

/-- An address under the path of the configuration object is no address of definitions. -/
theorem path_not_prefix {rest : String} :
    ¬ SecretsConfig.path.toList <+: (Definition.path ++ rest).toList := by
  rw [String.toList_append]
  exact not_prefix_of_prefix (List.prefix_append _ _)

theorem definition?_eq_none {address : String}
    (h : SecretsConfig.path.toList <+: address.toList) : s.definition? address = none := by
  unfold definition?
  rw [List.find?_eq_none]
  intro d _ hd
  obtain ⟨name, _, rfl⟩ := Option.map_eq_some_iff.mp (of_decide_eq_true hd)
  rw [String.append_assoc] at h
  exact path_not_prefix h

variable {request : Request}

theorem answer_get (p : Policy) (s : ApiServer) (h : request.method = .get) :
    s.answer p request = (s.read p request, s) := by
  unfold answer
  rw [h]

/-- A configuration object that was read under its path is the one that is stored. -/
theorem object?_of_read {latest : SecretsConfig}
    (hpath : SecretsConfig.path.toList <+: request.path.toList)
    (h : (s.read p request).receive SecretsConfig.reader = .ok latest) :
    ∃ v, s.object? p = some v ∧ SecretsConfig.ofJson? v = some latest := by
  unfold read at h
  split at h
  · exact receive_found? h
  · split at h
    · rename_i hdefinitions
      rw [hdefinitions, ← String.append_empty (s := Definition.path)] at hpath
      exact absurd hpath path_not_prefix
    · rw [definition?_eq_none hpath] at h
      obtain ⟨_, hnone, _⟩ := receive_found? h
      cases hnone

/-- Only a patch of its status touches the configuration object. -/
theorem object?_answer (h : request.path ≠ statusAddress) :
    (s.answer p request).2.object? p = s.object? p := by
  unfold answer
  split
  · rfl
  · rfl
  · rw [if_neg h]
    unfold patchDefinition
    split <;> rfl

/-- Under the path of the configuration object, a patch is refused and changes nothing, or it is a
patch of the status that carries no version or the current one. -/
theorem answer_patch_config (hpath : SecretsConfig.path.toList <+: request.path.toList)
    (hmethod : request.method = .patch) :
    (s.answer p request).1.isRefusal = true ∧ (s.answer p request).2 = s ∨
      ∃ body current, request.body = some body ∧ s.object? p = some current ∧
        (version? body = none ∨ version? body = version? current) ∧
        (s.answer p request).2 = s.write (some (current.mergePatch body)) := by
  cases hbody : request.body with
  | none =>
      simp only [answer, hmethod, hbody]
      exact Or.inl ⟨rfl, trivial⟩
  | some body =>
      simp only [answer, hmethod, hbody]
      by_cases hstatus : request.path = statusAddress
      · rw [if_pos hstatus, patchStatus]
        cases hobject : s.object? p with
        | none => exact Or.inl ⟨rfl, rfl⟩
        | some current =>
            simp only
            by_cases hversion : version? body = none ∨ version? body = version? current
            · rw [if_pos hversion]
              exact Or.inr ⟨body, current, rfl, rfl, hversion, rfl⟩
            · rw [if_neg hversion]
              exact Or.inl ⟨rfl, rfl⟩
      · rw [if_neg hstatus, patchDefinition, definition?_eq_none hpath]
        exact Or.inl ⟨rfl, rfl⟩

/-- Under the path of the configuration object, only a patch of its status changes anything, and
only if it carries no version or the current one. -/
theorem written_of_answer_ne (hpath : SecretsConfig.path.toList <+: request.path.toList)
    (h : (s.answer p request).2 ≠ s) :
    ∃ body current, request.method = .patch ∧ request.body = some body ∧
      s.object? p = some current ∧ (version? body = none ∨ version? body = version? current) ∧
      (s.answer p request).2 = s.write (some (current.mergePatch body)) := by
  cases hmethod : request.method with
  | get =>
      rw [answer_get p s hmethod] at h
      exact absurd rfl h
  | patch =>
      rcases answer_patch_config hpath hmethod with ⟨_, hsame⟩ | ⟨body, current, hwritten⟩
      · exact absurd hsame h
      · exact ⟨body, current, rfl, hwritten⟩

end ApiServer

end SecretsWarden.Cluster
