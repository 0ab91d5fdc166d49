import SecretsWarden.Cluster.Client
import SecretsWarden.Proofs.Cluster.Address
import SecretsWarden.Proofs.Dialogue.Course

/-!
# One exchange with the API server

Every operation of the client asks at most one request, and its outcome is what it reads from
the answer. A request that cannot be built is an error without any question.
-/

namespace SecretsWarden.Cluster

open Dialogue Json

variable {α β : Type} {reader : Reader α}

instance : Inhabited Reply := ⟨.failed ""⟩

/-- The course of one request at most, with the result of reading its answer. -/
inductive Exchanged (reader : Reader α) (built : Except Error Request) :
    Course Request Reply → Except Error α → Prop where
  | sent {request : Request} (hbuilt : built = .ok request) (reply : Reply) :
      Exchanged reader built [.asked request reply] (reply.receive reader)
  | unbuilt {e : Error} (hbuilt : built = .error e) : Exchanged reader built [] (.error e)

variable {built : Except Error Request} {c : Course Request Reply}

theorem Error.isNotFound_iff {e : Error} :
    e.isNotFound = true ↔ ∃ s, e = .api s ∧ s.code = 404 := by
  cases e <;> simp [Error.isNotFound]

/-- What was read was sent for. -/
theorem Exchanged.of_ok {a : α} (h : Exchanged reader built c (.ok a)) :
    ∃ request reply, built = .ok request ∧ c = [.asked request reply] ∧
      reply.receive reader = .ok a := by
  generalize hresult : Except.ok a = result at h
  cases h with
  | sent hbuilt reply => exact ⟨_, reply, hbuilt, rfl, rfl⟩
  | unbuilt hbuilt => cases hresult

/-- An error is in the answer, unless nothing was sent. -/
theorem Exchanged.of_error {e : Error} (h : Exchanged reader built c (.error e)) :
    built = .error e ∨ ∃ request reply, built = .ok request ∧ c = [.asked request reply] ∧
      reply.receive reader = .error e := by
  generalize hresult : Except.error e = result at h
  cases h with
  | sent hbuilt reply => exact Or.inr ⟨_, reply, hbuilt, rfl, rfl⟩
  | unbuilt hbuilt =>
      cases hresult
      exact Or.inl hbuilt

theorem Exchanged.of_built {request : Request} {result : Except Error α}
    (h : Exchanged reader built c result) (hbuilt : built = .ok request) :
    ∃ reply, c = [.asked request reply] ∧ result = reply.receive reader := by
  cases h with
  | sent hsent reply =>
      rw [hbuilt] at hsent
      cases hsent
      exact ⟨reply, rfl, rfl⟩
  | unbuilt hunbuilt =>
      rw [hbuilt] at hunbuilt
      cases hunbuilt

theorem Exchanged.of_unbuilt {e : Error} {result : Except Error α}
    (h : Exchanged reader built c result) (hbuilt : built = .error e) :
    c = [] ∧ result = .error e := by
  cases h with
  | sent hsent reply =>
      rw [hbuilt] at hsent
      cases hsent
  | unbuilt hunbuilt =>
      rw [hbuilt] at hunbuilt
      cases hunbuilt
      exact ⟨rfl, rfl⟩

/-- To read is to ask without changing anything. -/
theorem Exchanged.method_get {path name : String} {result : Except Error α}
    (h : Exchanged reader (Request.read path name) c result) :
    ∀ x ∈ exchanges c, x.1.method = .get := by
  intro x hx
  cases h with
  | unbuilt hbuilt => cases hx
  | sent hbuilt reply =>
      rw [List.mem_singleton.mp hx]
      exact method_of_named hbuilt

theorem absent?_eq_some {read : Except Error α} {a : α} (h : absent? read = .ok (some a)) :
    read = .ok a := by
  unfold absent? at h
  split at h
  · cases h
    rfl
  · split at h <;> cases h

theorem absent?_eq_none {read : Except Error α} (h : absent? read = .ok none) :
    ∃ e, read = .error e ∧ e.saysNotFound = true := by
  cases read with
  | ok a => cases h
  | error e =>
      refine ⟨e, rfl, ?_⟩
      by_contra habsent
      rw [absent?] at h
      simp only [habsent] at h
      cases h

theorem absent?_eq_error {read : Except Error α} {e : Error} (h : absent? read = .error e) :
    read = .error e ∧ e.saysNotFound = false := by
  cases read with
  | ok a => cases h
  | error e' =>
      rw [absent?] at h
      split at h
      · cases h
      · cases h
        exact ⟨rfl, Bool.not_eq_true _ ▸ ‹_›⟩

theorem gives_send (reader : Reader α) (request : Request) :
    (send reader request).Gives fun c result =>
      ∃ reply, c = [.asked request reply] ∧ result = reply.receive reader := by
  intro c out h
  obtain ⟨reply, _, rfl, hdone⟩ := ends_ask.mp h
  obtain ⟨rfl, rfl⟩ := ends_done.mp hdone
  exact ⟨_, rfl, reply, rfl, rfl⟩

theorem gives_sendBuilt (reader : Reader α) (built : Except Error Request) :
    (sendBuilt reader built).Gives (Exchanged reader built) := by
  cases built with
  | error e => exact gives_done (.unbuilt rfl)
  | ok request =>
      refine (gives_send reader request).imp ?_
      rintro c result ⟨reply, rfl, rfl⟩
      exact .sent rfl reply

theorem gives_get (path name : String) (reader : Reader α) :
    (get path name reader).Gives (Exchanged reader (Request.read path name)) :=
  gives_sendBuilt _ _

theorem gives_getOptional (path name : String) (reader : Reader α) :
    (getOptional path name reader).Gives fun c found =>
      ∃ read, found = absent? read ∧ Exchanged reader (Request.read path name) c read :=
  (gives_get path name reader).map fun _ read h => ⟨read, rfl, h⟩

theorem gives_list (path query : String) (reader : Reader α) :
    (list path query reader).Gives fun c result =>
      ∃ reply, c = [.asked (.list path query) reply] ∧
        result = reply.receive (listReader reader) :=
  gives_send _ _

end SecretsWarden.Cluster
