import SecretsWarden.Proofs.Usage.Lookup

/-!
# The gate fails closed

An update that disables the provider is let through only on certain knowledge. For each kind of
stores `IsClear` says what such knowledge is: a cache without a store that refers to the provider,
a complete list without one, or the answer that the kind does not exist. A cache that is not yet
filled, a list that failed, and an answer that cannot be read are all refusals, and each refusal
says either which stores are in the way or what went wrong.
-/

namespace SecretsWarden.Admission

open Dialogue Cluster Resource Usage

/-- It is certain, after what was asked and answered, that no store of the kind refers to the
provider. -/
def IsClear (index : Index) (provider : String) (c : Course Request Reply) (kind : Store.Kind) :
    Prop :=
  match index kind with
  | some cache => ∀ s ∈ cache.stores, s.refersTo provider = false
  | none =>
    ∃ reply, .asked (.list kind.path "") reply ∈ c ∧
      ((∃ stores, reply.receive (listReader Store.reader) = .ok stores ∧
          ∀ s ∈ stores, s.refersTo provider = false) ∨
        ∃ s, reply.receive (listReader Store.reader) = .error (.api s) ∧ s.code = 404)

variable {index : Index} {order : Order} {provider : String} {kind kind' : Store.Kind}
  {kinds : List Store.Kind} {c c' : Course Request Reply} {reply : Reply}

theorem path_injective (h : kind.path = kind'.path) : kind = kind' := by
  cases kind <;> cases kind'
  · rfl
  · exact absurd h (by decide)
  · exact absurd h (by decide)
  · rfl

/-- Only the answers for its own kind matter. -/
theorem isClear_congr (h : ∀ reply, Event.asked (Request.list kind.path "") reply ∈ c ↔
      .asked (.list kind.path "") reply ∈ c') :
    IsClear index provider c kind ↔ IsClear index provider c' kind := by
  unfold IsClear
  cases index kind with
  | some cache => exact Iff.rfl
  | none => simp only [h]

/-- The answer to a list decides for nothing found exactly if it is certain. -/
theorem settle_eq_nil {answer : Except Error (List Store)} :
    settle (readListing kind provider answer) = .ok [] ↔
      (∃ stores, answer = .ok stores ∧ ∀ s ∈ stores, s.refersTo provider = false) ∨
        ∃ s, answer = .error (.api s) ∧ s.code = 404 := by
  cases answer with
  | ok stores => simp [readListing, settle]
  | error e =>
      by_cases he : e.isNotFound = true
      · simpa [readListing, settle, he] using Error.isNotFound_iff.mp he
      · have hcode : ¬ ∃ s, e = .api s ∧ s.code = 404 := fun h => he (Error.isNotFound_iff.mpr h)
        simp only [readListing, he, Bool.false_eq_true, if_false, settle]
        simpa using hcode

/-- A kind is decided for nothing found exactly if that is certain. -/
theorem finds_nil_iff {answer : Except LookupFault (List String)}
    (h : Finds index order provider kind c answer) :
    answer = .ok [] ↔ IsClear index provider c kind := by
  unfold IsClear
  cases h with
  | cached hindex => simp [hindex, matching_eq_nil]
  | listed hindex reply => simp [hindex, settle_eq_nil]

theorem kind_of_finds {answer : Except LookupFault (List String)}
    (h : Finds index order provider kind c answer)
    (hasked : Event.asked (Request.list kind'.path "") reply ∈ c) : kind' = kind := by
  cases h with
  | cached hindex => simp at hasked
  | listed hindex reply' =>
      obtain ⟨hrequest, _⟩ := Event.asked.inj (List.mem_singleton.mp hasked)
      exact path_injective (congrArg Request.path hrequest)

theorem kind_of_collects {answer : Except Failure (List String)}
    (h : Collects index order provider kinds c answer)
    (hasked : Event.asked (Request.list kind.path "") reply ∈ c) : kind ∈ kinds := by
  induction h with
  | done => simp at hasked
  | failed h => exact List.mem_cons.mpr (Or.inl (kind_of_finds h hasked))
  | found h _ ih =>
      rcases List.mem_append.mp hasked with hasked | hasked
      · exact List.mem_cons.mpr (Or.inl (kind_of_finds h hasked))
      · exact List.mem_cons.mpr (Or.inr (ih hasked))

/-- Collecting finds nothing exactly if that is certain of every kind. -/
theorem collects_nil_iff {answer : Except Failure (List String)}
    (h : Collects index order provider kinds c answer) (hkinds : kinds.Nodup) :
    answer = .ok [] ↔ ∀ kind ∈ kinds, IsClear index provider c kind := by
  induction h with
  | done => simp
  | @failed kind rest c e h =>
      have hkind : ¬ IsClear index provider c kind := fun hclear => by
        simpa using (finds_nil_iff h).mpr hclear
      constructor
      · intro heq
        cases heq
      · intro hall
        exact absurd (hall kind List.mem_cons_self) hkind
  | @found kind rest c₁ c₂ more answer h hrest ih =>
      obtain ⟨hfresh, hnodup⟩ := List.nodup_cons.mp hkinds
      -- No list of this kind is asked for later, and none of a later kind here.
      have hhead : IsClear index provider (c₁ ++ c₂) kind ↔ IsClear index provider c₁ kind := by
        refine isClear_congr fun reply => ?_
        rw [List.mem_append, or_iff_left]
        exact fun hasked => hfresh (kind_of_collects hrest hasked)
      have htail : ∀ k ∈ rest,
          (IsClear index provider (c₁ ++ c₂) k ↔ IsClear index provider c₂ k) := by
        intro k hk
        refine isClear_congr fun reply => ?_
        rw [List.mem_append, or_iff_right]
        exact fun hasked => hfresh (kind_of_finds h hasked ▸ hk)
      have hmap : answer.map (more ++ ·) = .ok [] ↔ more = [] ∧ answer = .ok [] := by
        cases answer <;> simp [Except.map]
      have hmore : more = [] ↔ IsClear index provider c₁ kind := by
        rw [← finds_nil_iff h, Except.ok.injEq]
      rw [hmap, hmore, ih hnodup, List.forall_mem_cons, hhead]
      exact and_congr_right fun _ => forall_congr' fun k =>
        imp_congr_right fun hk => (htail k hk).symm

/-! ## The gate of the operator -/

variable {σ : Type} {review : ReviewRequest} {old new : SecretsConfig}

/-- An update that disables the provider is decided by what the check says. -/
theorem decide_eq (checker : Session (Except Failure Report))
    (hoperation : review.operation = .update) (hold : review.oldObject = some old)
    (hnew : review.object = some new) (hdisables : disables old new = true) :
    review.decide checker = checker.bind fun usage => .done (review.respond (judge usage)) := by
  simp only [ReviewRequest.decide, hoperation, if_true, hold, hnew, judgeUpdate, hdisables,
    Dialogue.bind_assoc, Dialogue.bind]

theorem disables_iff :
    disables old new = true ↔
      old.spec.providerMode = some .enabled ∧ new.spec.providerMode ≠ some .enabled := by
  simp [disables, SecretsConfig.enablesProvider]

theorem allowed_respond {verdict : Except Refusal Unit} :
    (review.respond verdict).allowed = true ↔ verdict = .ok () := by
  cases verdict <;> simp [ReviewRequest.respond, ReviewRequest.allow, ReviewRequest.deny,
    ReviewResponse.allowed]

theorem judge_eq_ok {answer : Except Failure (List String)} :
    judge (answer.map Report.ofStores) = .ok () ↔ answer = .ok [] := by
  cases answer with
  | error e => simp [Except.map, judge]
  | ok stores => cases stores <;> simp [Except.map, judge, Report.ofStores]

theorem mem_allKinds (kind : Store.Kind) : kind ∈ Store.Kind.all := by
  cases kind
  · exact List.mem_cons_self
  · exact List.mem_cons_of_mem _ List.mem_cons_self

/-- The check lets the update through exactly if the caches are filled and both kinds are clear. -/
theorem judge_eq_ok_iff_clear {synced : Bool}
    {out : Except Duration.Fault (Except Failure Report)}
    (h : Ends (Operator.checker index order synced) c out) :
    ∃ usage, out = .ok usage ∧
      (judge usage = .ok () ↔
        synced = true ∧ ∀ kind, IsClear index guardedProvider c kind) := by
  unfold Operator.checker at h
  cases synced with
  | false =>
      rw [check, if_pos rfl] at h
      obtain ⟨rfl, rfl⟩ := ends_done.mp h
      exact ⟨_, rfl, by simp [judge]⟩
  | true =>
      obtain ⟨_, rfl, answer, rfl, hcollects⟩ := gives_check _ _ _ h
      refine ⟨_, rfl, ?_⟩
      rw [judge_eq_ok, collects_nil_iff hcollects (by decide)]
      simp [mem_allKinds]

theorem message_inUse (provider details : String) :
    (Refusal.inUse provider details).message =
      "cannot disable provider " ++ provider ++ ": still referenced by " ++ details :=
  rfl

theorem message_unverified (provider : String) (cause : Failure) :
    (Refusal.unverified provider cause).message =
      "cannot disable provider " ++ provider ++ ": unable to verify it is unused: "
        ++ cause.message :=
  rfl

theorem toList_infix_append (a b : String) : b.toList <:+: (a ++ b).toList := by
  rw [String.toList_append]
  exact (List.suffix_append a.toList b.toList).isInfix

/-- A refusal says which stores are in the way, or why that could not be found out. -/
theorem denial_respond {usage : Except Failure Report}
    (h : (review.respond (judge usage)).allowed = false) :
    ∃ message, (review.respond (judge usage)).denial = some ⟨some 403, "Forbidden", message⟩ ∧
      ((∃ report, usage = .ok report ∧ report.inUse = true ∧
          report.summary.toList <:+: message.toList) ∨
        ∃ failure, usage = .error failure ∧ failure.message.toList <:+: message.toList) := by
  cases usage with
  | error failure =>
      refine ⟨_, rfl, Or.inr ⟨failure, rfl, ?_⟩⟩
      rw [message_unverified]
      exact toList_infix_append _ _
  | ok report =>
      cases hinUse : report.inUse with
      | false =>
          have hallowed : (review.respond (judge (.ok report))).allowed = true := by
            rw [allowed_respond, judge, hinUse]
            rfl
          rw [hallowed] at h
          cases h
      | true =>
          refine ⟨_, by rw [judge, if_pos hinUse]; rfl, Or.inl ⟨report, rfl, hinUse, ?_⟩⟩
          rw [message_inUse]
          exact toList_infix_append _ _

/-- **The gate fails closed.** Whichever kinds are cached, whatever the caches hold and whatever
their flag says: an update that disables the provider is let through exactly if the caches are
filled and it is certain of both kinds that no store refers to the provider. Any other such update
is refused with the stores that are in the way or with what went wrong. -/
theorem disabling_allowed_iff_clear (index : Index) (order : Order) (synced : Bool)
    (hoperation : review.operation = .update) (hold : review.oldObject = some old)
    (hnew : review.object = some new) (hbefore : old.spec.providerMode = some .enabled)
    (hafter : new.spec.providerMode = some .disabled ∨ new.spec.providerMode = none)
    (answer : Answerer σ Request Reply) (clock : Nat) (state : σ) :
    ∃ response,
      ((review.decide (Operator.checker index order synced)).run answer clock state).result
        = .ok response ∧
      (response.allowed = true ↔
        synced = true ∧ ∀ kind, IsClear index guardedProvider
          ((review.decide (Operator.checker index order synced)).course answer clock state)
          kind) ∧
      (response.allowed = false →
        ∃ message, response.denial = some ⟨some 403, "Forbidden", message⟩ ∧
          ((∃ report, ((Operator.checker index order synced).run answer clock state).result
                = .ok (.ok report) ∧ report.inUse = true ∧
              report.summary.toList <:+: message.toList) ∨
            ∃ failure, ((Operator.checker index order synced).run answer clock state).result
                = .ok (.error failure) ∧ failure.message.toList <:+: message.toList)) := by
  have hdisables : disables old new = true := by
    refine disables_iff.mpr ⟨hbefore, ?_⟩
    rcases hafter with h | h <;> simp [h]
  obtain ⟨usage, hresult, hjudge⟩ := judge_eq_ok_iff_clear
    (ends_run answer (Operator.checker index order synced) clock state)
  rw [decide_eq _ hoperation hold hnew hdisables, result_bind_done, course_bind_done, hresult]
  refine ⟨review.respond (judge usage), rfl, ?_, fun hrefused => ?_⟩
  · rw [allowed_respond, hjudge]
  · simpa only [Except.ok.injEq] using denial_respond hrefused

/-- An update that takes the provider's mode away. -/
def unsettingReview : ReviewRequest where
  apiVersion := "admission.k8s.io/v1"
  kind := "AdmissionReview"
  uid := "7c5b"
  operation := .update
  object := some { metadata := {}, spec := {}, status := none }
  oldObject := some { metadata := {}, spec := { providerMode := some .enabled }, status := none }

/-- A cache of one kind, with a store of another provider. -/
def otherProvider : Index
  | .secretStore => some ⟨[⟨{}, .object [("spec", .object [("provider",
      .object [("aws", .null)])])]⟩]⟩
  | .clusterSecretStore => none

/-- The kind that has no cache is answered by a page that says 404. -/
theorem unsetting_allowed_where_kind_is_missing :
    ∃ response,
      ((unsettingReview.decide (Operator.checker otherProvider .byWords true)).run
        (fun _ (_ : Unit) _ => (.answered 404 (.bytes [60, 112, 62]), ())) 0 ()).result
          = .ok response ∧ response.allowed = true := by
  have hupdate : unsettingReview.operation = .update := rfl
  obtain ⟨response, hresult, hallowed, _⟩ := disabling_allowed_iff_clear otherProvider .byWords
    true hupdate rfl rfl rfl (Or.inr rfl)
    (fun _ (_ : Unit) _ => (.answered 404 (.bytes [60, 112, 62]), ())) 0 ()
  refine ⟨response, hresult, hallowed.mpr ⟨rfl, fun kind => ?_⟩⟩
  cases kind with
  | secretStore =>
      intro s hs
      cases List.mem_singleton.mp hs
      rfl
  | clusterSecretStore => exact ⟨_, List.mem_cons_self, Or.inr ⟨_, rfl, rfl⟩⟩

end SecretsWarden.Admission
