import SecretsWarden.Proofs.Admission.FailClosed
import SecretsWarden.Proofs.Usage.Caches

/-!
# What the webhook lets through

Whatever is sent to the webhook, it replies; and what its reply lets through is said here of all
requests at once. A reply allows something only if the request carries a review, at the right path
and announced as JSON. If the review is of an update, both objects are there; and if the update
disables the provider, the caches are filled and no kind of stores is in the way.
-/

namespace SecretsWarden.Admission

open Dialogue Cluster Json Resource Usage

/-- The reply is the response to a review, and the response allows the operation. -/
def HttpReply.Allows (reply : HttpReply) : Prop :=
  ∃ v, reply.content = .json v ∧ v.at? ["response", "allowed"] = some (.bool true)

/-- The request is one for the decision on a review. -/
structure HttpRequest.Carries (request : HttpRequest) (review : ReviewRequest) : Prop where
  path : request.path = reviewPath
  method : request.method = "POST"
  announced : announcesJson request = true
  read : readReview request.body = .ok (some review)

/-- What must hold of a review, after what was asked and answered, for the operation to be
allowed. -/
def Admissible (index : Index) (synced : Bool) (c : Course Request Reply)
    (review : ReviewRequest) : Prop :=
  review.operation = .update → ∃ old new, review.oldObject = some old ∧ review.object = some new ∧
    (disables old new = true →
      synced = true ∧ ∀ kind, IsClear index guardedProvider c kind)

variable {index : Index} {order : Order} {synced : Bool} {review : ReviewRequest}
  {request : HttpRequest} {reply : HttpReply}

theorem allows_toJson (response : ReviewResponse) :
    (HttpReply.ok (.json response.toJson)).Allows ↔ response.allowed = true := by
  have hallowed : response.toJson.at? ["response", "allowed"] = some (.bool response.allowed) := by
    simp [ReviewResponse.toJson, Value.at?_cons, Value.get?, List.lookup_cons]
  constructor
  · rintro ⟨v, hv, hallows⟩
    cases hv
    rw [hallowed] at hallows
    exact Value.bool.inj (Option.some.inj hallows)
  · intro h
    exact ⟨_, rfl, by rw [hallowed, h]⟩

/-- What is no review is put into words. -/
theorem text_of_readReview {body : Body} (h : readReview body = .error reply) :
    ∃ text, reply.content = .text text := by
  have hfault : ∀ {read : Except Fault (Option ReviewRequest)},
      read.mapError HttpReply.ofFault = .error reply → ∃ text, reply.content = .text text := by
    intro read hread
    cases read with
    | ok review => cases hread
    | error fault =>
        cases hread
        cases fault <;> exact ⟨_, rfl⟩
  cases body with
  | json v => exact hfault h
  | bytes content =>
      unfold readReview at h
      dsimp only at h
      split at h
      · exact hfault h
      · cases h
        exact ⟨_, rfl⟩

theorem not_allows_text {text : String} (h : reply.content = .text text) : ¬ reply.Allows := by
  rintro ⟨v, hv, _⟩
  rw [h] at hv
  cases hv

/-- An update of which both objects are there is judged by the check. -/
theorem gives_judged {old new : SecretsConfig} (hoperation : review.operation = .update)
    (hold : review.oldObject = some old) (hnew : review.object = some new) :
    ((judgeUpdate (Operator.checker index order synced) old new).bind fun verdict =>
        .done (review.respond verdict)).Gives fun c response =>
      response.uid = review.uid ∧
        (response.allowed = true ↔ Admissible index synced c review) := by
  have huid : ∀ verdict, (review.respond verdict).uid = review.uid := fun verdict => by
    cases verdict <;> rfl
  have hadmissible : ∀ c, Admissible index synced c review ↔ (disables old new = true →
      synced = true ∧ ∀ kind, IsClear index guardedProvider c kind) := by
    intro c
    simp [Admissible, hoperation, hold, hnew]
  unfold judgeUpdate
  cases hdisables : disables old new with
  | false =>
      refine gives_done ⟨huid _, ?_⟩
      rw [allowed_respond, hadmissible, hdisables]
      simp
  | true =>
      rw [if_pos rfl, bind_assoc]
      have hcheck : (Operator.checker index order synced).Gives fun c usage =>
          judge usage = .ok () ↔ synced = true ∧ ∀ kind, IsClear index guardedProvider c kind :=
        fun _ _ => judge_eq_ok_iff_clear
      refine hcheck.map fun c usage hjudge => ⟨huid _, ?_⟩
      rw [allowed_respond, hjudge, hadmissible, hdisables]
      simp

/-- A review is decided, and its identity repeated. -/
theorem gives_decide (index : Index) (order : Order) (synced : Bool) (review : ReviewRequest) :
    (review.decide (Operator.checker index order synced)).Gives fun c response =>
      response.uid = review.uid ∧
        (response.allowed = true ↔ Admissible index synced c review) := by
  unfold ReviewRequest.decide
  by_cases hoperation : review.operation = .update
  · rw [if_pos hoperation]
    cases hold : review.oldObject with
    | none =>
        refine gives_done ⟨rfl, ?_⟩
        simp [Admissible, hoperation, hold, ReviewRequest.deny, ReviewResponse.allowed]
    | some old =>
        cases hnew : review.object with
        | none =>
            refine gives_done ⟨rfl, ?_⟩
            simp [Admissible, hoperation, hnew, ReviewRequest.deny, ReviewResponse.allowed]
        | some new => exact gives_judged hoperation hold hnew
  · rw [if_neg hoperation]
    refine gives_done ⟨rfl, ?_⟩
    simp [Admissible, hoperation, ReviewRequest.allow, ReviewResponse.allowed]

theorem HttpRequest.Carries.unique {review' : ReviewRequest} (h : request.Carries review)
    (h' : request.Carries review') : review = review' := by
  have hsame := h.read.symm.trans h'.read
  cases hsame
  rfl

/-- What is said of the reply to a request, after what was asked and answered. -/
structure Answers (informers : Informers) (request : HttpRequest) (c : Course Request Reply)
    (reply : HttpReply) : Prop where
  /-- It allows what is admissible, and nothing else. -/
  allows : reply.Allows ↔ ∃ review, request.Carries review ∧
    Admissible informers.index informers.synced c review
  /-- A review gets a response with its own identity. -/
  identity : ∀ review, request.Carries review → reply.status = 200 ∧
    ∃ v, reply.content = .json v ∧ v.at? ["response", "uid"] = some (.string review.uid)

variable {informers : Informers} {c : Course Request Reply}

/-- Whatever carries no review may get any reply that allows nothing. -/
theorem answers_of_none (hdenies : ¬ reply.Allows) (hnone : ∀ review, ¬ request.Carries review) :
    Answers informers request c reply where
  allows := by
    refine ⟨fun hallows => absurd hallows hdenies, ?_⟩
    rintro ⟨review, h, _⟩
    exact absurd h (hnone review)
  identity := fun review h => absurd h (hnone review)

theorem not_allows_health (request : HttpRequest) : ¬ (handleHealth request).Allows := by
  unfold handleHealth
  split
  · exact not_allows_text rfl
  · split <;> exact not_allows_text rfl

theorem answers_of_decides {response : ReviewResponse} (hcarries : request.Carries review)
    (huid : response.uid = review.uid)
    (hallowed : response.allowed = true ↔ Admissible informers.index informers.synced c review) :
    Answers informers request c (.ok (.json response.toJson)) where
  allows := by
    rw [allows_toJson, hallowed]
    refine ⟨fun h => ⟨review, hcarries, h⟩, ?_⟩
    rintro ⟨review', hcarries', h⟩
    rwa [hcarries.unique hcarries']
  identity := by
    intro review' hcarries'
    rw [← hcarries.unique hcarries', ← huid]
    refine ⟨rfl, _, rfl, ?_⟩
    simp [ReviewResponse.toJson, Value.at?_cons, Value.get?, List.lookup_cons]

theorem gives_handleReview (informers : Informers) (order : Order) {request : HttpRequest}
    (hpath : request.path = reviewPath) (hmethod : request.method = "POST") :
    (handleReview (Operator.checker informers.index order informers.synced) request).Gives
      (Answers informers request) := by
  unfold handleReview
  cases hannounced : announcesJson request with
  | false =>
      refine gives_done (answers_of_none (not_allows_text rfl) fun review h => ?_)
      rw [h.announced] at hannounced
      cases hannounced
  | true =>
      rw [if_pos rfl]
      cases hread : readReview request.body with
      | error reply =>
          obtain ⟨text, htext⟩ := text_of_readReview hread
          refine gives_done (answers_of_none (not_allows_text htext) fun review h => ?_)
          rw [h.read] at hread
          cases hread
      | ok carried =>
          cases carried with
          | none =>
              refine gives_done (answers_of_none ?_ fun review h => ?_)
              · rw [allows_toJson]
                exact Bool.false_ne_true
              · rw [h.read] at hread
                cases hread
          | some review =>
              exact (gives_decide _ order _ review).map fun c response hdecides =>
                answers_of_decides ⟨hpath, hmethod, hannounced, hread⟩ hdecides.1 hdecides.2

theorem gives_webhook (informers : Informers) (order : Order) (request : HttpRequest) :
    (Operator.webhook informers order request).Gives (Answers informers request) := by
  unfold Operator.webhook route
  by_cases hpath : request.path = reviewPath
  · rw [if_pos hpath]
    by_cases hmethod : request.method = "POST"
    · rw [if_pos hmethod]
      exact gives_handleReview informers order hpath hmethod
    · rw [if_neg hmethod]
      exact gives_done (answers_of_none (not_allows_text rfl) fun _ h => hmethod h.method)
  · rw [if_neg hpath]
    split
    · exact gives_done (answers_of_none (not_allows_health request) fun _ h => hpath h.path)
    · exact gives_done (answers_of_none (not_allows_text rfl) fun _ h => hpath h.path)

/-- **The webhook lets through what is admissible.** Whatever is sent to it and whatever is
answered, the webhook comes to a reply. It allows an operation exactly if the request carries a
review that is admissible, and a review that is carried gets a response with its own identity. -/
theorem webhook_allows_iff_admissible {σ : Type} (informers : Informers) (order : Order)
    (request : HttpRequest) (answer : Answerer σ Request Reply) (clock : Nat) (state : σ) :
    ∃ reply, ((Operator.webhook informers order request).run answer clock state).result =
        .ok reply ∧
      Answers informers request
        ((Operator.webhook informers order request).course answer clock state) reply :=
  gives_webhook informers order request (ends_run answer _ clock state)

/-- Of a kind that is followed it is certain that no store refers to the provider exactly if no
store does that its informer heard of last. -/
theorem isClear_after {ks : List Store.Kind} {kind : Store.Kind} (hkind : kind ∈ ks)
    (changes : List InformerChange) (provider : String) (c : Course Request Reply) :
    IsClear ((Informers.ofKinds ks).after changes).index provider c kind ↔
      ∀ key s, changes.foldl (hear kind key) none = some s → s.refersTo provider = false := by
  obtain ⟨cache, hindex, hdistinct, hheld⟩ := (Informers.cache_after ks changes kind).2 hkind
  unfold IsClear
  rw [hindex]
  simp only [hdistinct.forall_stores, hheld]

end SecretsWarden.Admission
