import SecretsWarden.Proofs.Reconcile.Phases

/-!
# No failure is swallowed

What a pass attempts are requests at six sites. An attempt fails if its request cannot be built or
if no answer comes back that can be read. The result of the pass consists of the attempts that
failed, except those that a site forgives and conflicts after which the status is tried again.
-/

namespace SecretsWarden.Reconcile

open Cluster Dialogue Injection Json Resource StatusRecord

/-! ## Attempts -/

/-- Where requests are made. The last two are the reading and the write of a recording. -/
inductive Site where
  | config
  | definitions
  | definition (name : String)
  | patched (name : String)
  | latest (name : String)
  | status (name : String)

/-- The error in a result, if it is one. -/
def error? {α : Type} : Except Error α → Option Error
  | .ok _ => none
  | .error e => some e

namespace Site

/-- What is wrong with an answer at a site. -/
def error? (reply : Reply) : Site → Option Error
  | config | latest _ | status _ => Reconcile.error? (reply.receive SecretsConfig.reader)
  | definitions => Reconcile.error? (reply.receive (listReader Definition.reader))
  | definition _ | patched _ => Reconcile.error? (reply.receive Definition.reader)

/-- How an error at a site is reported. -/
def failure (e : Error) : Site → Failure
  | config => .readConfig SecretsConfig.singleton e
  | definitions => .listDefinitions Definition.selector e
  | definition name => .readDefinition name e
  | patched name => .patchDefinition name e
  | latest name | status name => .writeStatus name e

/-- Which errors do not count as failures at a site, as it tells that there is no such object. -/
def forgives (e : Error) : Site → Bool
  | config | definition _ => e.saysNotFound
  | latest _ => e.isNotFound
  | definitions | patched _ | status _ => false

def isRecording : Site → Bool
  | latest _ | status _ => true
  | config | definitions | definition _ | patched _ => false

end Site

/-- A request that could not be built, or that was sent and answered. -/
inductive Attempt where
  | unbuilt (site : Site) (error : Error)
  | sent (site : Site) (request : Request) (reply : Reply)

namespace Attempt

def site : Attempt → Site
  | unbuilt site _ | sent site _ _ => site

def error? : Attempt → Option Error
  | unbuilt _ e => some e
  | sent site _ reply => site.error? reply

def exchange? : Attempt → Option (Request × Reply)
  | unbuilt _ _ => none
  | sent _ request reply => some (request, reply)

/-- The attempt at a request for a site. -/
inductive Of (site : Site) (built : Except Error Request) : Attempt → Prop where
  | unbuilt {e : Error} (h : built = .error e) : Of site built (.unbuilt site e)
  | sent {request : Request} (h : built = .ok request) (reply : Reply) :
      Of site built (.sent site request reply)

theorem Of.site_eq {site : Site} {built : Except Error Request} {a : Attempt}
    (h : a.Of site built) : a.site = site := by
  cases h <;> rfl

end Attempt

/-- The failures among attempts, without those that are forgiven at their site and without the
conflicts of a recording that goes on. -/
def unforgiven : List Attempt → List Failure
  | [] => []
  | a :: rest =>
    match a.error? with
    | none => unforgiven rest
    | some e =>
      if a.site.forgives e || (a.site.isRecording && e.isConflict && !rest.isEmpty) then
        unforgiven rest
      else a.site.failure e :: unforgiven rest

/-- The result that consists of an operation's failure and one of recording it, as far as there
are any. -/
def joined : List Failure → Except Failure Unit
  | [] => .ok ()
  | [failure] => .error failure
  | operation :: status :: _ => .error (.withStatus operation status)

/-! ## What a pass attempts -/

/-- Definitions are patched in their order, up to the first failure. -/
inductive Patchings : List Definition → List Attempt → Prop where
  | done : Patchings [] []
  | failed {d : Definition} {rest : List Definition} {a : Attempt} {e : Error}
      (h : a.Of (.patched d.name) (patching d)) (he : a.error? = some e) :
      Patchings (d :: rest) [a]
  | went {d : Definition} {rest : List Definition} {a : Attempt} {as : List Attempt}
      (h : a.Of (.patched d.name) (patching d)) (he : a.error? = none)
      (hrest : Patchings rest as) : Patchings (d :: rest) (a :: as)

/-- Definitions are read, and those without the annotation patched. -/
inductive AnnotationAttempts (target : Target) : List Attempt → Prop where
  | all {reply : Reply} {as : List Attempt} (hall : target.concernsAll = true)
      (h : Patchings ((listed reply).filter (!·.isAnnotated)) as) :
      AnnotationAttempts target
        (.sent .definitions (.list Definition.path Definition.selectorQuery) reply :: as)
  | named {request : Request} {reply : Reply} {as : List Attempt}
      (hall : target.concernsAll = false)
      (hrequest : Request.read Definition.path target.name = .ok request)
      (h : Patchings ((found reply).filter (!·.isAnnotated)) as) :
      AnnotationAttempts target (.sent (.definition target.name) request reply :: as)
  | unbuilt {e : Error} (hall : target.concernsAll = false)
      (hrequest : Request.read Definition.path target.name = .error e) :
      AnnotationAttempts target [.unbuilt (.definition target.name) e]

/-- One cycle of a recording. -/
inductive CycleAttempts (name : String) (condition : Condition) : List Attempt → Prop where
  | unread {a : Attempt} {e : Error}
      (h : a.Of (.latest name) (Request.read SecretsConfig.path name)) (he : a.error? = some e) :
      CycleAttempts name condition [a]
  | settled {request : Request} {reply : Reply} {latest : SecretsConfig}
      (hread : Request.read SecretsConfig.path name = .ok request)
      (hlatest : reply.receive SecretsConfig.reader = .ok latest)
      (hmerge : condition.merge? latest.conditions = none) :
      CycleAttempts name condition [.sent (.latest name) request reply]
  | written {request : Request} {reply : Reply} {latest : SecretsConfig}
      {conditions : List Condition} {a : Attempt}
      (hread : Request.read SecretsConfig.path name = .ok request)
      (hlatest : reply.receive SecretsConfig.reader = .ok latest)
      (hmerge : condition.merge? latest.conditions = some conditions)
      (hwrite : a.Of (.status name) (writing name latest conditions)) :
      CycleAttempts name condition [.sent (.latest name) request reply, a]

/-- The cycles of a recording, each one after a conflict in the one before it. -/
inductive RecordingAttempts (name : String) (condition : Condition) : List Attempt → Prop where
  | last {as : List Attempt} (h : CycleAttempts name condition as) :
      RecordingAttempts name condition as
  | again {as rest : List Attempt} {a : Attempt} {e : Error}
      (h : CycleAttempts name condition (as ++ [a])) (he : a.error? = some e)
      (hconflict : e.isConflict = true) (hrest : RecordingAttempts name condition rest) :
      RecordingAttempts name condition (as ++ [a] ++ rest)

/-- The configuration object is read. If it asks for annotations, then definitions are annotated,
and the outcome of that is recorded unless the object reports it already. -/
inductive PassAttempts (now : String) (target : Target) : List Attempt → Prop where
  | stopped (reply : Reply)
      (h : ∀ config, reply.receive SecretsConfig.reader = .ok config →
        config.spec.injectAnnotations = false) :
      PassAttempts now target [.sent .config firstRequest reply]
  | unrecorded {reply : Reply} {config : SecretsConfig} {as : List Attempt}
      (hconfig : reply.receive SecretsConfig.reader = .ok config)
      (hinject : config.spec.injectAnnotations = true) (has : AnnotationAttempts target as)
      (hmerge : (outcomeCondition now config conditionType (joined (unforgiven as))
        upToDate).merge? config.conditions = none) :
      PassAttempts now target (.sent .config firstRequest reply :: as)
  | recorded {reply : Reply} {config : SecretsConfig} {as bs : List Attempt}
      {conditions : List Condition}
      (hconfig : reply.receive SecretsConfig.reader = .ok config)
      (hinject : config.spec.injectAnnotations = true) (has : AnnotationAttempts target as)
      (hmerge : (outcomeCondition now config conditionType (joined (unforgiven as))
        upToDate).merge? config.conditions = some conditions)
      (hbs : RecordingAttempts config.name
        (outcomeCondition now config conditionType (joined (unforgiven as)) upToDate) bs) :
      PassAttempts now target (.sent .config firstRequest reply :: (as ++ bs))

/-! ## Accounts -/

/-- The failure in a result, if it is one. -/
def failures {α : Type} : Except Failure α → List Failure
  | .ok _ => []
  | .error failure => [failure]

/-- Attempts that were answered as on the course and that have these unforgiven failures. -/
structure Accounts (as : List Attempt) (c : Course Request Reply) (fs : List Failure) : Prop where
  sent : as.filterMap Attempt.exchange? = exchanges c
  unforgiven : unforgiven as = fs

variable {name : String} {condition : Condition} {target : Target} {a : Attempt}
  {as bs : List Attempt} {c c₁ c₂ : Course Request Reply} {fs gs : List Failure}

@[simp] theorem unforgiven_cons_of_none (h : a.error? = none) :
    unforgiven (a :: as) = unforgiven as := by
  simp only [unforgiven, h]

theorem unforgiven_append (h : ∀ a ∈ as, a.site.isRecording = false) :
    unforgiven (as ++ bs) = unforgiven as ++ unforgiven bs := by
  induction as with
  | nil => rfl
  | cons a rest ih =>
      have hrest := ih fun b hb => h b (List.mem_cons_of_mem _ hb)
      have ha := h a List.mem_cons_self
      simp only [List.cons_append, unforgiven, ha, Bool.false_and, Bool.or_false, hrest]
      split
      · rfl
      · split <;> rfl

theorem Accounts.append (h : ∀ a ∈ as, a.site.isRecording = false) (ha : Accounts as c₁ fs)
    (hb : Accounts bs c₂ gs) : Accounts (as ++ bs) (c₁ ++ c₂) (fs ++ gs) where
  sent := by rw [List.filterMap_append, exchanges_append, ha.sent, hb.sent]
  unforgiven := by rw [unforgiven_append h, ha.unforgiven, hb.unforgiven]

theorem accounts_nil : Accounts [] [] [] := ⟨rfl, rfl⟩

/-- An answer at which nothing is wrong adds no failure. -/
theorem Accounts.cons {site : Site} {reply : Reply} (request : Request)
    (h : site.error? reply = none) (has : Accounts as c fs) :
    Accounts (.sent site request reply :: as) (.asked request reply :: c) fs where
  sent := by rw [exchanges, ← has.sent]; rfl
  unforgiven := by
    have hnone : (Attempt.sent site request reply).error? = none := h
    rw [unforgiven_cons_of_none hnone, has.unforgiven]

/-- Each exchange at a site is an attempt. -/
theorem exists_attempt {α : Type} {reader : Reader α} {built : Except Error Request}
    {result : Except Error α} (site : Site)
    (hsite : ∀ reply, site.error? reply = error? (reply.receive reader))
    (h : Exchanged reader built c result) :
    ∃ a : Attempt, a.Of site built ∧ a.site = site ∧ a.error? = error? result ∧
      [a].filterMap Attempt.exchange? = exchanges c := by
  cases h with
  | sent hbuilt reply => exact ⟨_, .sent hbuilt reply, rfl, hsite reply, rfl⟩
  | unbuilt hbuilt => exact ⟨_, .unbuilt hbuilt, rfl, rfl, rfl⟩

@[simp] theorem failures_map {α β : Type} (f : α → β) (result : Except Failure α) :
    failures (result.map f) = failures result := by
  cases result <;> rfl

/-- A failed attempt that nothing excuses. -/
theorem unforgiven_singleton {e : Error} (he : a.error? = some e)
    (h : a.site.forgives e = false) : unforgiven [a] = [a.site.failure e] := by
  simp [unforgiven, he, h]

/-- A failed attempt that is forgiven. -/
theorem unforgiven_forgiven {e : Error} (he : a.error? = some e)
    (h : a.site.forgives e = true) : unforgiven [a] = [] := by
  simp [unforgiven, he, h]

/-! ## The annotation of definitions -/

variable {d : Definition} {definitions : List Definition}

/-- A definition that lacks the annotation is patched in one attempt. -/
theorem attempt_of_annotates {result : Except Failure Bool} (h : Annotates d c result) :
    (d.isAnnotated = true ∧ c = [] ∧ result = .ok false) ∨
      (d.isAnnotated = false ∧ ∃ a : Attempt, a.Of (.patched d.name) (patching d) ∧
        a.site.isRecording = false ∧
        (result.isOk = true ↔ a.error? = none) ∧ Accounts [a] c (failures result)) := by
  cases h with
  | already hannotated => exact Or.inl ⟨hannotated, rfl, rfl⟩
  | @sent _ read hbare hsent =>
      obtain ⟨a, hof, hsite, herror, hexchanges⟩ :=
        exists_attempt (.patched d.name) (fun _ => rfl) hsent
      refine Or.inr ⟨hbare, a, hof, hsite ▸ rfl, ?_, hexchanges, ?_⟩
      · rw [herror]
        cases read <;> simp [error?, Except.map, Except.mapError, Except.isOk, Except.toBool]
      · cases read with
        | ok _ =>
            rw [unforgiven_cons_of_none herror]
            rfl
        | error e =>
            rw [unforgiven_singleton herror (by rw [hsite]; rfl), hsite]
            rfl

theorem patchings_of_sweeps {result : Except Failure Nat} (h : Sweeps definitions c result) :
    ∃ as, Patchings (definitions.filter (!·.isAnnotated)) as ∧ Accounts as c (failures result) := by
  induction h with
  | done => exact ⟨[], .done, accounts_nil⟩
  | @failed d rest c failure h =>
      rcases attempt_of_annotates h with ⟨_, _, hok⟩ | ⟨hbare, a, hof, _, herror, haccounts⟩
      · cases hok
      · rw [List.filter_cons_of_pos (by simp [hbare])]
        obtain ⟨e, he⟩ := Option.ne_none_iff_exists'.mp fun hnone => by
          cases herror.mpr hnone
        exact ⟨[a], .failed hof he, haccounts⟩
  | @went d rest c₁ c₂ patched result h hrest ih =>
      obtain ⟨as, hpatchings, has⟩ := ih
      rw [failures_map]
      rcases attempt_of_annotates h with
        ⟨hannotated, rfl, _⟩ | ⟨hbare, a, hof, hsite, herror, haccounts⟩
      · rw [List.filter_cons_of_neg (by simp [hannotated])]
        exact ⟨as, hpatchings, has⟩
      · rw [List.filter_cons_of_pos (by simp [hbare])]
        refine ⟨a :: as, .went hof (herror.mp rfl) hpatchings, ?_⟩
        exact haccounts.append (fun b hb => List.mem_singleton.mp hb ▸ hsite) has

theorem Patchings.not_recording (h : Patchings definitions as) :
    ∀ a ∈ as, a.site.isRecording = false := by
  induction h with
  | done => intro a ha; cases ha
  | failed h he =>
      intro b hb
      rw [List.mem_singleton.mp hb, h.site_eq]
      rfl
  | went h he hrest ih =>
      intro b hb
      rcases List.mem_cons.mp hb with rfl | hb
      · rw [h.site_eq]
        rfl
      · exact ih b hb

theorem AnnotationAttempts.not_recording (h : AnnotationAttempts target as) :
    ∀ a ∈ as, a.site.isRecording = false := by
  cases h with
  | all hall h =>
      intro a ha
      rcases List.mem_cons.mp ha with rfl | ha
      · rfl
      · exact h.not_recording a ha
  | named hall hrequest h =>
      intro a ha
      rcases List.mem_cons.mp ha with rfl | ha
      · rfl
      · exact h.not_recording a ha
  | unbuilt hall hrequest =>
      intro a ha
      rw [List.mem_singleton.mp ha]
      rfl

/-- A patch of what a single definition lacks. -/
theorem patchings_of_annotates {result : Except Failure Bool} (h : Annotates d c result) :
    ∃ as, Patchings ([d].filter (!·.isAnnotated)) as ∧ Accounts as c (failures result) := by
  rcases attempt_of_annotates h with ⟨hannotated, rfl, rfl⟩ | ⟨hbare, a, hof, _, _, haccounts⟩
  · rw [List.filter_cons_of_neg (by simp [hannotated])]
    exact ⟨[], .done, accounts_nil⟩
  · rw [List.filter_cons_of_pos (by simp [hbare])]
    refine ⟨[a], ?_, haccounts⟩
    cases he : a.error? with
    | none => exact .went hof he .done
    | some e => exact .failed hof he

theorem attempts_of_sweepsAll {result : Except Failure Nat} (hall : target.concernsAll = true)
    (h : SweepsAll c result) :
    ∃ as, AnnotationAttempts target as ∧ Accounts as c (failures result) := by
  cases h with
  | @unlisted reply e h =>
      have hnothing : Patchings ((listed reply).filter (!·.isAnnotated)) [] := by
        rw [listed, h]
        exact .done
      have herror : Site.definitions.error? reply = some e := congrArg error? h
      exact ⟨_, .all hall hnothing, rfl, unforgiven_singleton herror rfl⟩
  | @listed reply _ _ _ h hsweeps =>
      obtain ⟨as, hpatchings, has⟩ := patchings_of_sweeps hsweeps
      have hlisted : Patchings ((listed reply).filter (!·.isAnnotated)) as := by
        rw [listed, h]
        exact hpatchings
      exact ⟨_, .all hall hlisted, has.cons _ (congrArg error? h)⟩

/-- If the definition cannot be read, its reading is the only attempt. -/
theorem AnnotationAttempts.of_unread {request : Request} {reply : Reply} {e : Error}
    (hall : target.concernsAll = false)
    (hrequest : Request.read Definition.path target.name = .ok request)
    (h : reply.receive Definition.reader = .error e) :
    AnnotationAttempts target [.sent (.definition target.name) request reply] := by
  refine .named hall hrequest ?_
  rw [found, h]
  exact .done

theorem attempts_of_annotatesNamed {result : Except Failure Unit}
    (hall : target.concernsAll = false) (h : AnnotatesNamed target.name c result) :
    ∃ as, AnnotationAttempts target as ∧ Accounts as c (failures result) := by
  cases h with
  | @unread _ _ e h hread =>
      obtain ⟨rfl, habsent⟩ := absent?_eq_error hread
      rcases h.of_error with hbuilt | ⟨request, reply, hbuilt, rfl, he⟩
      · obtain ⟨rfl, _⟩ := h.of_unbuilt hbuilt
        exact ⟨_, .unbuilt hall hbuilt, rfl, unforgiven_singleton rfl habsent⟩
      · have herror : (Site.definition target.name).error? reply = some e := congrArg error? he
        exact ⟨_, .of_unread hall hbuilt he, rfl, unforgiven_singleton herror habsent⟩
  | absent h hread =>
      obtain ⟨e, rfl, habsent⟩ := absent?_eq_none hread
      rcases h.of_error with hbuilt | ⟨request, reply, hbuilt, rfl, he⟩
      · obtain ⟨_, rfl⟩ := unbuildable_of_named hbuilt
        cases habsent
      · have herror : (Site.definition target.name).error? reply = some e := congrArg error? he
        exact ⟨_, .of_unread hall hbuilt he, rfl, unforgiven_forgiven herror habsent⟩
  | @unmanaged _ d h hmanaged =>
      obtain ⟨request, reply, hrequest, rfl, hreply⟩ := h.of_ok
      have hfound : Patchings ((found reply).filter (!·.isAnnotated)) [] := by
        rw [found, hreply]
        simp only [hmanaged, Bool.false_eq_true, if_false]
        exact .done
      exact ⟨_, .named hall hrequest hfound, accounts_nil.cons _ (congrArg error? hreply)⟩
  | @managed _ _ d _ h hmanaged hannotates =>
      obtain ⟨request, reply, hrequest, rfl, hreply⟩ := h.of_ok
      obtain ⟨as, hpatchings, has⟩ := patchings_of_annotates hannotates
      have hfound : Patchings ((found reply).filter (!·.isAnnotated)) as := by
        rw [found, hreply]
        simp only [hmanaged, if_true]
        exact hpatchings
      rw [failures_map]
      exact ⟨_, .named hall hrequest hfound, has.cons _ (congrArg error? hreply)⟩

/-- The annotation of one definition or of all accounts for its result. -/
theorem attempts_of_synchronizes {outcome : Except Failure Unit}
    (h : Synchronizes target c outcome) :
    ∃ as, AnnotationAttempts target as ∧ Accounts as c (failures outcome) := by
  cases h with
  | all hall h =>
      rw [failures_map]
      exact attempts_of_sweepsAll hall h
  | named hall h => exact attempts_of_annotatesNamed hall h

/-! ## Recording -/

/-- A cycle accounts for its result, and a conflict in the result is that of its last attempt. -/
theorem attempts_of_cycle {result : Except Failure Bool} (h : Cycle name condition c result) :
    ∃ as a, CycleAttempts name condition (as ++ [a]) ∧ Accounts (as ++ [a]) c (failures result) ∧
      ∀ failure, result = .error failure → failure.isConflict = true →
        ∃ e, a.error? = some e ∧ e.isConflict = true := by
  cases h with
  | @unread _ e h =>
      obtain ⟨a, hof, hsite, herror, hexchanges⟩ := exists_attempt (.latest name) (fun _ => rfl) h
      refine ⟨[], a, .unread hof herror, ⟨hexchanges, ?_⟩, fun failure hfailure hconflict => ?_⟩
      · by_cases hgone : e.isNotFound = true
        · rw [if_pos hgone]
          exact unforgiven_forgiven herror (by rwa [hsite])
        · rw [if_neg hgone]
          have hforgives : a.site.forgives e = false := by
            rw [hsite]
            exact Bool.not_eq_true _ ▸ hgone
          rw [List.nil_append, unforgiven_singleton herror hforgives, hsite]
          rfl
      · split at hfailure <;> cases hfailure
        exact ⟨e, herror, hconflict⟩
  | @settled _ latest h hmerge =>
      obtain ⟨request, reply, hread, rfl, hlatest⟩ := h.of_ok
      have hnone : (Site.latest name).error? reply = none := congrArg error? hlatest
      refine ⟨[], _, .settled hread hlatest hmerge, accounts_nil.cons _ hnone, ?_⟩
      intro failure hfailure
      cases hfailure
  | @written _ c₂ latest conditions result h hmerge hwrite =>
      obtain ⟨request, reply, hread, rfl, hlatest⟩ := h.of_ok
      have hnone : (Site.latest name).error? reply = none := congrArg error? hlatest
      obtain ⟨a, hof, hsite, herror, hexchanges⟩ :=
        exists_attempt (.status name) (fun _ => rfl) hwrite
      have haccounts : Accounts [a] c₂ (failures
          ((result.map fun _ => true).mapError (Failure.writeStatus name))) := by
        refine ⟨hexchanges, ?_⟩
        cases result with
        | ok after =>
            rw [unforgiven_cons_of_none herror]
            rfl
        | error e =>
            rw [unforgiven_singleton herror (by rw [hsite]; rfl), hsite]
            rfl
      refine ⟨[.sent (.latest name) request reply], a, .written hread hlatest hmerge hof,
        haccounts.cons request hnone, fun failure hfailure hconflict => ?_⟩
      cases result with
      | ok after => cases hfailure
      | error e =>
          cases hfailure
          exact ⟨e, herror, hconflict⟩

/-- A conflict at the end of a cycle does not count if something follows. -/
theorem unforgiven_of_conflict {e : Error} (h : CycleAttempts name condition (as ++ [a]))
    (he : a.error? = some e) (hconflict : e.isConflict = true) (hbs : bs ≠ []) :
    unforgiven (as ++ [a] ++ bs) = unforgiven bs := by
  have hlast : a.site.isRecording = true → unforgiven (a :: bs) = unforgiven bs := by
    intro hrecording
    simp [unforgiven, he, hrecording, hconflict, hbs]
  rcases as with _ | ⟨x, _ | ⟨y, as⟩⟩
  · refine hlast ?_
    rw [List.nil_append] at h
    cases h with
    | unread h _ =>
        rw [h.site_eq]
        rfl
    | settled _ _ _ => rfl
  · rw [List.singleton_append] at h
    cases h with
    | @written request reply _ _ _ hread hlatest hmerge hwrite =>
        have hnone : (Attempt.sent (.latest name) request reply).error? = none :=
          congrArg error? hlatest
        refine (unforgiven_cons_of_none hnone).trans (hlast ?_)
        rw [hwrite.site_eq]
        rfl
  · generalize hlist : x :: y :: as ++ [a] = l at h
    cases h <;> simp at hlist

/-- The tries of a recording account for its result, unless a delay cannot be computed. -/
theorem attempts_of_tries {b : Backoff} {further : Nat} {attempt : UInt32}
    {out : Except Duration.Fault (Except Failure Bool)}
    (h : b.Tries (Cycle name condition) further attempt c out) :
    (∃ as status, out = .ok status ∧ RecordingAttempts name condition as ∧ as ≠ [] ∧
        Accounts as c (failures status)) ∨
      ∃ attempt fault, b.delayAfter attempt = .error fault ∧ out = .error fault := by
  induction h with
  | last h hlast =>
      obtain ⟨as, a, hcycle, haccounts, _⟩ := attempts_of_cycle h
      exact Or.inl ⟨as ++ [a], _, rfl, .last hcycle, by simp, haccounts⟩
  | stuck h hconflict hdelay => exact Or.inr ⟨_, _, hdelay, rfl⟩
  | again h hconflict hdelay hrest ih =>
      rcases ih with ⟨bs, status, rfl, hbs, hne, hrest⟩ | hstuck
      · obtain ⟨as, a, hcycle, haccounts, hlast⟩ := attempts_of_cycle h
        obtain ⟨e, he, heconflict⟩ := hlast _ rfl hconflict
        refine Or.inl ⟨_, status, rfl, .again hcycle he heconflict hbs, by simp, ?_, ?_⟩
        · rw [List.filterMap_append, haccounts.sent, hrest.sent, exchanges_append]
          rfl
        · rw [unforgiven_of_conflict hcycle he heconflict hne, hrest.unforgiven]
      · exact Or.inr hstuck

/-- What a recording attempts, after those attempts that made up the outcome. -/
theorem attempts_of_ends_record {b : Backoff} {now type message : String} {config : SecretsConfig}
    {outcome : Except Failure Unit} {out : Except Duration.Fault (Except Failure Bool)}
    (h : Ends (record b now config type outcome message) c out) :
    ((outcomeCondition now config type outcome message).merge? config.conditions = none ∧
        c = [] ∧ out = .ok (.ok false)) ∨
      (∃ conditions as status,
        (outcomeCondition now config type outcome message).merge? config.conditions =
          some conditions ∧ out = .ok status ∧
        RecordingAttempts config.name (outcomeCondition now config type outcome message) as ∧
        Accounts as c (failures status)) ∨
      ∃ attempt fault, b.delayAfter attempt = .error fault ∧ out = .error fault := by
  unfold record at h
  simp only at h
  split at h
  · obtain ⟨rfl, rfl⟩ := ends_done.mp h
    exact Or.inl ⟨‹_›, rfl, rfl⟩
  · right
    rcases attempts_of_tries (Backoff.tries_of_ends_retryFrom gives_update h) with
      ⟨as, status, rfl, has, _, haccounts⟩ | hstuck
    · exact Or.inl ⟨_, as, status, ‹_›, rfl, has, haccounts⟩
    · exact Or.inr hstuck

/-! ## The pass -/

theorem joined_failures (outcome : Except Failure Unit) : joined (failures outcome) = outcome := by
  cases outcome <;> rfl

/-- What is joined of the failures of an operation and of its recording. -/
theorem joined_append (outcome : Except Failure Unit) (status : Except Failure Bool) :
    joined (failures outcome ++ failures status) =
      Failure.combine outcome (status.map fun _ => ()) := by
  cases outcome <;> cases status <;> rfl

/-- A pass accounts for its result, unless a delay cannot be computed. -/
theorem attempts_of_passes {backoff : Backoff} {now : String}
    {out : Except Duration.Fault (Except Failure Unit)} (h : Passes backoff now target c out) :
    (∃ as fs, out = .ok (joined fs) ∧ fs.length ≤ 2 ∧ PassAttempts now target as ∧
        Accounts as c fs) ∨
      ∃ attempt fault, backoff.delayAfter attempt = .error fault ∧ out = .error fault := by
  have hfirst : Request.read SecretsConfig.path SecretsConfig.singleton = .ok firstRequest := rfl
  cases h with
  | @unread _ _ e h hread =>
      obtain ⟨rfl, habsent⟩ := absent?_eq_error hread
      obtain ⟨reply, rfl, hreply⟩ := h.of_built hfirst
      have herror : Site.config.error? reply = some e := congrArg error? hreply.symm
      refine Or.inl ⟨_, [.readConfig SecretsConfig.singleton e], rfl, by simp,
        .stopped reply fun config hconfig => ?_, rfl, unforgiven_singleton herror habsent⟩
      rw [hconfig] at hreply
      cases hreply
  | absent h hread =>
      obtain ⟨e, rfl, habsent⟩ := absent?_eq_none hread
      obtain ⟨reply, rfl, hreply⟩ := h.of_built hfirst
      have herror : Site.config.error? reply = some e := congrArg error? hreply.symm
      refine Or.inl ⟨_, [], rfl, by simp, .stopped reply fun config hconfig => ?_, rfl,
        unforgiven_forgiven herror habsent⟩
      rw [hconfig] at hreply
      cases hreply
  | disabled h hinject =>
      obtain ⟨reply, rfl, hreply⟩ := h.of_built hfirst
      have hnone : Site.config.error? reply = none := congrArg error? hreply.symm
      refine Or.inl ⟨_, [], rfl, by simp, .stopped reply fun config hconfig => ?_,
        accounts_nil.cons _ hnone⟩
      rw [← hreply] at hconfig
      cases hconfig
      exact hinject
  | @enabled _ c₂ c₃ config outcome _ h hinject hsynchronizes hrecord =>
      obtain ⟨reply, rfl, hreply⟩ := h.of_built hfirst
      have hnone : Site.config.error? reply = none := congrArg error? hreply.symm
      obtain ⟨as, has, haccounts⟩ := attempts_of_synchronizes hsynchronizes
      -- What is recorded is what the attempts so far come to.
      have houtcome : joined (unforgiven as) = outcome := by
        rw [haccounts.unforgiven, joined_failures]
      rcases attempts_of_ends_record hrecord with
        ⟨hmerge, rfl, rfl⟩ | ⟨conditions, bs, status, hmerge, rfl, hbs, hrecorded⟩ |
          ⟨attempt, fault, hdelay, rfl⟩
      · refine Or.inl ⟨_, failures outcome, ?_, by cases outcome <;> simp [failures],
          .unrecorded hreply.symm hinject has (houtcome ▸ hmerge), ?_⟩
        · rw [joined_failures]
          exact congrArg Except.ok (Failure.combine_ok outcome)
        · rw [List.append_nil]
          exact haccounts.cons _ hnone
      · refine Or.inl ⟨_, failures outcome ++ failures status, ?_, ?_,
          .recorded hreply.symm hinject has (houtcome ▸ hmerge) (houtcome ▸ hbs), ?_⟩
        · rw [joined_append]
          rfl
        · cases outcome <;> cases status <;> simp [failures]
        · exact (haccounts.append has.not_recording hrecorded).cons _ hnone
      · exact Or.inr ⟨attempt, fault, hdelay, rfl⟩

/-- A pass that cannot read the configuration object attempts nothing else. -/
theorem PassAttempts.of_unread {now : String} {e : Error} (h : PassAttempts now target as)
    (hhead : as.head? = some a) (he : a.error? = some e) : as = [a] ∧ a.site = .config := by
  cases h with
  | stopped reply h =>
      cases hhead
      exact ⟨rfl, rfl⟩
  | unrecorded hconfig hinject has hmerge =>
      cases hhead
      cases he.symm.trans (congrArg error? hconfig)
  | recorded hconfig hinject has hmerge hbs =>
      cases hhead
      cases he.symm.trans (congrArg error? hconfig)

theorem joined_eq_ok : joined fs = .ok () ↔ fs = [] := by
  match fs with
  | [] => simp [joined]
  | [_] => simp [joined]
  | _ :: _ :: _ => simp [joined]

theorem intercalate_pair (separator first second : String) :
    toString first ++ toString separator ++ toString second =
      separator.intercalate [first, second] := by
  rw [String.intercalate_cons_cons, String.intercalate_singleton]
  rfl

/-- The messages of both failures, that of the operation first. -/
theorem message_withStatus (operation status : Failure) :
    (Failure.withStatus operation status).message =
      "; additionally failed to record status: ".intercalate
        [operation.message, status.message] :=
  intercalate_pair _ _ _

theorem message_joined {failure : Failure} (hfs : fs.length ≤ 2)
    (h : joined fs = .error failure) :
    failure.message =
      "; additionally failed to record status: ".intercalate (fs.map Failure.message) := by
  match fs, hfs, h with
  | [_], _, rfl => exact String.intercalate_singleton.symm
  | [operation, status], _, rfl => exact message_withStatus operation status

/-- **No failure is swallowed, and none is invented.** Whatever is answered, a pass succeeds exactly
if every attempt succeeds, is forgiven at its site, or is a conflict of a recording that goes on.
Otherwise its message consists of those of the other failures, in their order. If the configuration
object cannot be read, nothing else is attempted. The only other way to end is that a delay between
two attempts cannot be computed. -/
theorem no_failure_swallowed {σ : Type} (answer : Answerer σ Request Reply) (clock : Nat)
    (state : σ) (backoff : Backoff) (now : String) (target : Target) :
    (∃ attempts result,
      ((pass backoff now target).run answer clock state).result = .ok result ∧
      PassAttempts now target attempts ∧
      attempts.filterMap Attempt.exchange? =
        exchanges ((pass backoff now target).course answer clock state) ∧
      (result = .ok () ↔ unforgiven attempts = []) ∧
      (∀ failure, result = .error failure → failure.message =
        "; additionally failed to record status: ".intercalate
          ((unforgiven attempts).map Failure.message)) ∧
      ∀ a e, attempts.head? = some a → a.error? = some e → e.saysNotFound = false →
        attempts = [a] ∧ result = .error (.readConfig SecretsConfig.singleton e)) ∨
      ∃ attempt fault, backoff.delayAfter attempt = .error fault ∧
        ((pass backoff now target).run answer clock state).result = .error fault := by
  rcases attempts_of_passes (passes_of_ends (ends_run answer (pass backoff now target) clock state))
    with ⟨attempts, fs, hresult, hlength, hattempts, hsent, rfl⟩ | hstuck
  · refine Or.inl ⟨attempts, joined (unforgiven attempts), hresult, hattempts, hsent,
      joined_eq_ok, fun failure => message_joined hlength, fun a e hhead he habsent => ?_⟩
    obtain ⟨rfl, hsite⟩ := hattempts.of_unread hhead he
    have hunforgiven : unforgiven [a] = [.readConfig SecretsConfig.singleton e] := by
      rw [unforgiven_singleton he (hsite ▸ habsent), hsite]
      rfl
    rw [hunforgiven]
    exact ⟨rfl, rfl⟩
  · exact Or.inr hstuck

end SecretsWarden.Reconcile
