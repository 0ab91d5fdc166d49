import SecretsWarden.Cluster.Discovery
import SecretsWarden.Controller
import SecretsWarden.Proofs.Cluster.Others

/-!
# What the operator asks

Passes ask for nothing but what is stored. Watchers only read, and so does the search for a kind;
what a watcher asks for is nothing of what passes ask for. So those who answer can tell watchers
anything and passes the truth.
-/

namespace SecretsWarden

open Cluster Controller Dialogue Json Resource

variable {q r α β : Type} {P : Request → Prop}

/-! ## Questions of passes -/

section

variable {reader : Reader α} {built : Except Error Request} {method : Method}
  {path name rest : String} {body : Option Value}

theorem asksOnly_sendBuilt (h : ∀ request, built = .ok request → P request) :
    (sendBuilt reader built).AsksOnly P := by
  cases built with
  | error e => trivial
  | ok request => exact ⟨h request rfl, fun _ => trivial⟩

theorem asksStored_named (hpath : path = SecretsConfig.path ∨ path = Definition.path)
    (reader : Reader α) :
    (sendBuilt reader (Request.named method path name rest body)).AsksOnly AsksStored :=
  asksOnly_sendBuilt fun _ h => .named hpath h

theorem asksStored_getOptional (hpath : path = SecretsConfig.path ∨ path = Definition.path)
    (reader : Reader α) : (getOptional path name reader).AsksOnly AsksStored :=
  (asksStored_named hpath reader).map absent?

end

theorem asksStored_annotate (d : Definition) : (Injection.annotate d).AsksOnly AsksStored := by
  unfold Injection.annotate
  split
  · trivial
  · refine (asksStored_named (.inr rfl) _).bind fun answer => ?_
    cases answer <;> trivial

theorem asksStored_annotateEach (patched : Nat) (definitions : List Definition) :
    (Injection.annotateEach patched definitions).AsksOnly AsksStored := by
  induction definitions generalizing patched with
  | nil => trivial
  | cons d rest ih =>
      refine (asksStored_annotate d).bind fun answer => ?_
      match answer with
      | .ok true => exact ih _
      | .ok false => exact ih _
      | .error e => trivial

theorem asksStored_annotateAll : Injection.annotateAll.AsksOnly AsksStored := by
  refine AsksOnly.bind ⟨.list, fun _ => trivial⟩ fun answer => ?_
  cases answer with
  | ok definitions => exact asksStored_annotateEach 0 definitions
  | error e => trivial

theorem asksStored_annotateNamed (name : String) :
    (Injection.annotateNamed name).AsksOnly AsksStored := by
  refine ((asksStored_getOptional (.inr rfl) _).map _).bind fun answer => ?_
  match answer with
  | .error e => trivial
  | .ok none => trivial
  | .ok (some d) =>
      dsimp only
      split
      · exact (asksStored_annotate d).map _
      · trivial

theorem asksStored_update (name : String) (condition : Condition) :
    (StatusRecord.update name condition).AsksOnly AsksStored := by
  refine (asksStored_named (.inl rfl) _).bind fun answer => ?_
  cases answer with
  | error e => trivial
  | ok latest =>
      dsimp only
      split
      · trivial
      · refine (asksStored_named (.inl rfl) _).bind fun answer => ?_
        cases answer <;> trivial

/-- To try again is to ask the same. -/
theorem asksOnly_retryFrom {b : Backoff} {operation : Dialogue q r (Except Failure α)}
    {P : q → Prop} (h : operation.AsksOnly P) (further : Nat) (attempt : UInt32) :
    (b.retryFrom operation further attempt).AsksOnly P := by
  induction further generalizing attempt with
  | zero => exact h
  | succ further ih =>
      refine h.bind fun answer => ?_
      cases answer with
      | ok a => trivial
      | error e =>
          dsimp only
          split
          · refine AsksOnly.bind ?_ fun delay => ih _
            cases b.delayAfter attempt <;> trivial
          · trivial

theorem asksStored_passOn (b : Backoff) (now : String) (target : Target) (config : SecretsConfig) :
    (Reconcile.passOn b now target config).AsksOnly AsksStored := by
  have hsynchronize : (Reconcile.synchronize target).AsksOnly AsksStored := by
    unfold Reconcile.synchronize
    split
    · exact asksStored_annotateAll.map _
    · exact asksStored_annotateNamed target.name
  unfold Reconcile.passOn
  split
  · refine hsynchronize.bind fun outcome => AsksOnly.map ?_ _
    unfold StatusRecord.record
    dsimp only
    split
    · trivial
    · exact asksOnly_retryFrom (asksStored_update _ _) _ _
  · trivial

/-- A pass asks for nothing but what is stored. -/
theorem asksStored_pass (b : Backoff) (now : String) (target : Target) :
    (Reconcile.pass b now target).AsksOnly AsksStored := by
  have hread : (getOptional SecretsConfig.path SecretsConfig.singleton
      SecretsConfig.reader).AsksOnly AsksStored := asksStored_getOptional (.inl rfl) _
  refine AsksOnly.bind hread fun answer => ?_
  match answer with
  | .error e => trivial
  | .ok none => trivial
  | .ok (some config) => exact asksStored_passOn b now target config

/-! ## Questions of watchers -/

theorem prefix_slash_of_named {method : Method} {path name rest : String} {body : Option Value}
    {request : Request} (h : Request.named method path name rest body = .ok request)
    (hpath : IsPathText (path ++ "/")) : (path ++ "/").toList <+: request.path.toList := by
  have hsplit : splitAddress ((path ++ "/") ++ (name ++ rest)) =
      .ok (request.path, request.query) := by
    rw [← String.append_assoc]
    exact (splitAddress_of_named h).1
  exact path_splitAddress hpath hsplit

/-- What is asked about what is stored has one of three addresses. -/
theorem path_of_asksStored {request : Request} (h : AsksStored request) :
    request = .list Definition.path Definition.selectorQuery ∨
      (SecretsConfig.path ++ "/").toList <+: request.path.toList ∨
      (Definition.path ++ "/").toList <+: request.path.toList := by
  cases h with
  | list => exact .inl rfl
  | named hpath hnamed =>
      rcases hpath with rfl | rfl
      · exact .inr (.inl (prefix_slash_of_named hnamed (by decide)))
      · exact .inr (.inr (prefix_slash_of_named hnamed (by decide)))

/-- To list other objects than the managed definitions is no question about what is stored. -/
theorem not_asksStored_of_path {role : Role} {request : Request}
    (hpath : request.path = role.source.path)
    (h : role = .definitions → request.query ≠ some Definition.selectorQuery) :
    ¬ AsksStored request := by
  intro hstored
  rcases path_of_asksStored hstored with rfl | hprefix | hprefix
  · cases role with
    | definitions => exact h rfl rfl
    | configs => exact absurd hpath (by decide)
  · rw [hpath] at hprefix
    cases role <;> exact absurd hprefix (by decide)
  · rw [hpath] at hprefix
    cases role <;> exact absurd hprefix (by decide)

theorem length_selector :
    (toString Role.definitions.source.selector).length = Definition.selectorQuery.length :=
  rfl

/-- A watcher's question for a page says more than how the definitions are selected. -/
theorem not_asksStored_pageRequest (role : Role) (start : String) :
    ¬ AsksStored (role.source.pageRequest start) := by
  refine not_asksStored_of_path rfl fun hrole hquery => ?_
  subst hrole
  have hlength := congrArg String.length (Option.some.inj hquery)
  have hlimit : 0 < (toString "&limit=").length := by decide
  simp only [String.length_append, length_selector] at hlength
  omega

theorem not_asksStored_watchRequest (role : Role) (version : String) :
    ¬ AsksStored (role.source.watchRequest version) := by
  refine not_asksStored_of_path rfl fun hrole hquery => ?_
  subst hrole
  have hlength := congrArg String.length (Option.some.inj hquery)
  have hwatch : 0 < (toString "&watch=true&timeoutSeconds=").length := by decide
  simp only [String.length_append, length_selector] at hlength
  omega

/-- What a watcher asks for is nothing of what passes ask for. -/
theorem asksOther_step (role : Role) (clock : Nat) (w : Watcher Meta) :
    (w.step role.source clock).AsksOnly fun request => ¬ AsksStored request := by
  unfold Watcher.step
  cases w.stage with
  | list start =>
      refine AsksOnly.bind ⟨not_asksStored_pageRequest role start, fun _ => trivial⟩ fun page => ?_
      cases page <;> trivial
  | watch version => exact ⟨not_asksStored_watchRequest role version, fun _ => trivial⟩
  | take version feed => trivial

/-- A watcher only reads. -/
theorem reads_step (source : Source α) (clock : Nat) (w : Watcher α) :
    Reads (w.step source clock) := by
  unfold Watcher.step
  cases w.stage with
  | list start =>
      refine AsksOnly.bind ⟨rfl, fun _ => trivial⟩ fun page => ?_
      cases page <;> trivial
  | watch version => exact ⟨rfl, fun _ => trivial⟩
  | take version feed => trivial

/-! ## Questions about kinds -/

theorem reads_address (path : String) (reader : Reader α) :
    Reads (sendBuilt reader (Request.address path)) := by
  refine asksOnly_sendBuilt fun request h => ?_
  unfold Request.address at h
  split at h <;> cases h
  rfl

theorem reads_serveVersions (versions : List Discovery.GroupVersion) :
    Reads (Discovery.serveVersions versions) := by
  induction versions with
  | nil => trivial
  | cons gv rest ih =>
      refine (reads_address _ _).bind fun kinds => ?_
      cases kinds with
      | error e => trivial
      | ok kinds =>
          refine ih.bind fun served => ?_
          cases served <;> trivial

theorem reads_serveGroup (group : Discovery.Group) : Reads (Discovery.serveGroup group) := by
  obtain ⟨name, versions⟩ := group
  cases versions with
  | nil => trivial
  | cons gv rest => exact reads_serveVersions _

theorem reads_serveGroups (last : List Discovery.ServedVersion) (groups : List Discovery.Group) :
    Reads (Discovery.serveGroups last groups) := by
  induction groups generalizing last with
  | nil => trivial
  | cons group rest ih =>
      refine (reads_serveGroup group).bind fun served => ?_
      cases served with
      | error e => trivial
      | ok served => exact ih served

theorem reads_serves (id : KindId) : Reads (serves id) := by
  refine AsksOnly.bind ?_ fun served => by cases served <;> trivial
  refine (reads_address _ _).bind fun groups => ?_
  cases groups with
  | error e => trivial
  | ok groups =>
      refine (reads_serveGroups _ _).bind fun served => ?_
      cases served with
      | error e => trivial
      | ok served =>
          show AsksOnly _ (if id.group.isEmpty then _ else _)
          split
          · refine (reads_address _ _).bind fun versions => ?_
            cases versions with
            | error e => trivial
            | ok versions => exact reads_serveGroup _
          · trivial

/-- To wait for a kind is to read. -/
theorem reads_awaitKindFrom (id : KindId) (looks : Nat) (wait : UInt64) :
    Reads (awaitKindFrom id looks wait) := by
  induction looks generalizing wait with
  | zero => trivial
  | succ looks ih =>
      refine (reads_serves id).bind fun found => ?_
      match found with
      | .ok true => trivial
      | .ok false => exact ih _
      | .error e => exact ih _

end SecretsWarden
