import Mathlib.Data.List.Nodup
import SecretsWarden.Cluster.Discovery
import SecretsWarden.Proofs.Cluster.Exchange

/-!
# What a discovery finds

Whatever the API server answers, the look for a kind comes to an end: the kind is served, or it is
not, or this could not be found out. What the server lists is read off its answers without any
order: they name the group, give it the version, and name the kind among the resources of the
version. A look goes by the last mention of a group and the first one of a version. So it never
finds what is not listed, and it finds what is listed unless the server contradicts itself within
the look.
-/

namespace SecretsWarden.Cluster

open Dialogue Discovery

variable {c c' : Course Request Reply} {α β : Type}

/-! ## What the server lists -/

/-- The address was asked for, and this was read from the answer. -/
def Tells (c : Course Request Reply) (path : String) (reader : Json.Reader α) (a : α) : Prop :=
  ∃ request reply, Request.address path = .ok request ∧ .asked request reply ∈ c ∧
    reply.receive reader = .ok a

/-- The server lists a group with these versions. The group without a name has an address of its
own. -/
inductive ListsGroup (c : Course Request Reply) (name : String) (versions : List GroupVersion) :
    Prop where
  | named {groups : List Group} (h : Tells c "/apis" readGroups groups)
      (hmem : (name, versions) ∈ groups)
  | core (hname : name = "") (h : Tells c "/api" readCore versions)

/-- The server lists, in the group and in the version, a resource of the kind. -/
def Lists (c : Course Request Reply) (id : KindId) : Prop :=
  ∃ versions, ListsGroup c id.group versions ∧ ∃ gv ∈ versions, gv.version = id.version ∧
    ∃ kinds, Tells c gv.path readKinds kinds ∧ id.kind ∈ kinds

/-- The server says one thing only of the versions of a group, of each of them, and of what is at
an address. -/
structure Consistent (c : Course Request Reply) (name : String) : Prop where
  group : ∀ versions versions', ListsGroup c name versions → ListsGroup c name versions' →
    versions = versions'
  version : ∀ versions, ListsGroup c name versions →
    ∀ gv ∈ versions, ∀ gv' ∈ versions, gv.version = gv'.version → gv = gv'
  kinds : ∀ path kinds kinds', Tells c path readKinds kinds → Tells c path readKinds kinds' →
    kinds = kinds'

theorem Tells.mono {path : String} {reader : Json.Reader α} {a : α}
    (h : Tells c path reader a) (hsub : c ⊆ c') : Tells c' path reader a := by
  obtain ⟨request, reply, hrequest, hmem, hread⟩ := h
  exact ⟨request, reply, hrequest, hsub hmem, hread⟩

/-- In a single exchange one thing is said. -/
theorem Tells.eq_of_singleton {path path' : String} {reader : Json.Reader α} {a a' : α}
    {request : Request} {reply : Reply} (h : Tells [.asked request reply] path reader a)
    (h' : Tells [.asked request reply] path' reader a') : a = a' := by
  obtain ⟨_, _, _, hmem, hread⟩ := h
  obtain ⟨_, _, _, hmem', hread'⟩ := h'
  cases List.mem_singleton.mp hmem
  cases List.mem_singleton.mp hmem'
  rw [hread] at hread'
  exact Except.ok.inj hread'

/-- One thing is said at an address if nothing is asked twice. -/
theorem Tells.eq_of_nodup (hasked : ((exchanges c).map (·.1)).Nodup) {path : String}
    {reader : Json.Reader α} {a a' : α} (h : Tells c path reader a)
    (h' : Tells c path reader a') : a = a' := by
  obtain ⟨request, reply, hrequest, hmem, hread⟩ := h
  obtain ⟨request', reply', hrequest', hmem', hread'⟩ := h'
  cases hrequest.symm.trans hrequest'
  cases List.inj_on_of_nodup_map hasked (mem_exchanges.mpr hmem) (mem_exchanges.mpr hmem') rfl
  exact Except.ok.inj (hread.symm.trans hread')

/-- A server that is asked nothing twice and lists a group once, and each of its versions once, does
not contradict itself about the group. -/
theorem consistent_of_nodup {name : String} {groups : List Group} {versions : List GroupVersion}
    (hasked : ((exchanges c).map (·.1)).Nodup) (hname : name ≠ "")
    (hgroups : Tells c "/apis" readGroups groups)
    (hgroup : groups.filter (·.1 = name) = [(name, versions)])
    (hversions : (versions.map (·.version)).Nodup) : Consistent c name := by
  have hlisted : ∀ listed, ListsGroup c name listed → listed = versions := by
    rintro listed (⟨h, hmem⟩ | ⟨hempty, _⟩)
    · cases h.eq_of_nodup hasked hgroups
      have hfiltered : (name, listed) ∈ groups.filter (·.1 = name) :=
        List.mem_filter.mpr ⟨hmem, decide_eq_true rfl⟩
      rw [hgroup] at hfiltered
      cases List.mem_singleton.mp hfiltered
      rfl
    · exact absurd hempty hname
  refine ⟨fun v v' h h' => (hlisted v h).trans (hlisted v' h').symm, ?_, ?_⟩
  · intro listed h gv hgv gv' hgv' hsame
    cases hlisted listed h
    exact List.inj_on_of_nodup_map hversions hgv hgv' hsame
  · intro path kinds kinds' h h'
    exact h.eq_of_nodup hasked h'

/-! ## Sessions that stop at the first error -/

/-- The session comes to an end without a pause. If it is a value and no error, the value goes
together with the course like this. -/
def Learns (d : Session (Except Error α)) (P : Course Request Reply → α → Prop) : Prop :=
  d.Gives fun c result => pauses c = [] ∧ ∀ a, result = .ok a → P c a

section Learns

variable {x : Session (Except Error α)} {P P' : Course Request Reply → α → Prop}
  {Q : Course Request Reply → β → Prop}

theorem Learns.imp (hx : Learns x P) (h : ∀ c a, P c a → P' c a) : Learns x P' := by
  refine Gives.imp hx ?_
  rintro c result ⟨hpauses, ha⟩
  exact ⟨hpauses, fun a hresult => h c a (ha a hresult)⟩

theorem learns_ok {a : α} (h : P [] a) : Learns (.done (.ok a)) P := by
  refine gives_done ⟨rfl, fun a' ha' => ?_⟩
  cases ha'
  exact h

theorem learns_error (e : Error) : Learns (.done (.error e)) P := by
  refine gives_done ⟨rfl, fun a ha => ?_⟩
  cases ha

/-- An error is passed on, and what was learned before a value is still there after it. -/
theorem Learns.bind {k : Except Error α → Session (Except Error β)} (hx : Learns x P)
    (hfail : ∀ e, k (.error e) = .done (.error e))
    (hk : ∀ a c, P c a → Learns (k (.ok a)) fun c' b => Q (c ++ c') b) :
    Learns (x.bind k) Q := by
  refine Gives.bind hx ?_
  rintro result c ⟨hpauses, ha⟩
  cases result with
  | error e =>
      rw [hfail]
      refine gives_done ⟨?_, fun b hb => ?_⟩
      · rwa [List.append_nil]
      · cases hb
  | ok a =>
      refine Gives.imp (hk a c (ha a rfl)) ?_
      rintro c' result ⟨hpauses', hb⟩
      rw [pauses_append, hpauses, hpauses']
      exact ⟨rfl, hb⟩

end Learns

theorem learns_address (path : String) (reader : Json.Reader α) :
    Learns (sendBuilt reader (Request.address path)) fun c a =>
      (∃ request reply, c = [.asked request reply]) ∧ Tells c path reader a := by
  refine Gives.imp (gives_sendBuilt reader _) ?_
  intro c result h
  constructor
  · cases h <;> rfl
  · rintro a rfl
    obtain ⟨request, reply, hbuilt, rfl, hread⟩ := h.of_ok
    exact ⟨⟨request, reply, rfl⟩, request, reply, hbuilt, List.mem_singleton_self _, hread⟩

/-! ## From the versions of a group to a kind -/

/-- What is found of a version is what the server says of it. -/
def Serves (c : Course Request Reply) (gv : GroupVersion) (served : ServedVersion) : Prop :=
  served.version = gv.version ∧ Tells c gv.path readKinds served.kinds

/-- What is found of some versions is what the server says of each of them. -/
structure Reports (c : Course Request Reply) (versions : List GroupVersion)
    (served : List ServedVersion) : Prop where
  said : ∀ v ∈ served, ∃ gv ∈ versions, Serves c gv v
  whole : ∀ gv ∈ versions, ∃ v ∈ served, Serves c gv v

theorem Serves.mono {gv : GroupVersion} {v : ServedVersion} (h : Serves c gv v)
    (hsub : c ⊆ c') : Serves c' gv v :=
  ⟨h.1, h.2.mono hsub⟩

theorem Reports.mono {versions : List GroupVersion} {served : List ServedVersion}
    (h : Reports c versions served) (hsub : c ⊆ c') : Reports c' versions served where
  said := by
    intro v hv
    obtain ⟨gv, hgv, hserves⟩ := h.said v hv
    exact ⟨gv, hgv, hserves.mono hsub⟩
  whole := by
    intro gv hgv
    obtain ⟨v, hv, hserves⟩ := h.whole gv hgv
    exact ⟨v, hv, hserves.mono hsub⟩

theorem reports_nil : Reports c [] [] where
  said := fun _ h => absurd h List.not_mem_nil
  whole := fun _ h => absurd h List.not_mem_nil

theorem Reports.cons {gv : GroupVersion} {v : ServedVersion} {versions : List GroupVersion}
    {served : List ServedVersion} (hv : Serves c gv v) (h : Reports c versions served) :
    Reports c (gv :: versions) (v :: served) where
  said := by
    rw [List.forall_mem_cons]
    refine ⟨⟨gv, List.mem_cons_self, hv⟩, fun v' hv' => ?_⟩
    obtain ⟨gv', hgv', hserves⟩ := h.said v' hv'
    exact ⟨gv', List.mem_cons_of_mem _ hgv', hserves⟩
  whole := by
    rw [List.forall_mem_cons]
    refine ⟨⟨v, List.mem_cons_self, hv⟩, fun gv' hgv' => ?_⟩
    obtain ⟨v', hv', hserves⟩ := h.whole gv' hgv'
    exact ⟨v', List.mem_cons_of_mem _ hv', hserves⟩

theorem learns_serveVersions (versions : List GroupVersion) :
    Learns (serveVersions versions) fun c served => Reports c versions served := by
  induction versions with
  | nil => exact learns_ok reports_nil
  | cons gv rest ih =>
      refine (learns_address _ _).bind (fun _ => rfl) fun kinds c ⟨_, htells⟩ => ?_
      refine ih.bind (fun _ => rfl) fun served c' hserved => ?_
      apply learns_ok
      rw [List.append_nil]
      apply Reports.cons
      · exact ⟨rfl, htells.mono (List.subset_append_left _ _)⟩
      · exact hserved.mono (List.subset_append_right _ _)

theorem learns_serveGroup (group : Group) :
    Learns (serveGroup group) fun c served => Reports c group.2 served := by
  obtain ⟨name, versions⟩ := group
  cases versions with
  | nil => exact learns_error _
  | cons gv rest => exact learns_serveVersions _

/-- One of the groups is what is found, if there are any. -/
theorem learns_serveGroups (last : List ServedVersion) (groups : List Group) :
    Learns (serveGroups last groups) fun c served =>
      (groups = [] ∧ c = [] ∧ served = last) ∨
        ∃ group ∈ groups, Reports c group.2 served := by
  induction groups generalizing last with
  | nil => exact learns_ok (.inl ⟨rfl, rfl, rfl⟩)
  | cons group rest ih =>
      refine (learns_serveGroup group).bind (fun _ => rfl) fun served c hserved => ?_
      refine (ih served).imp fun c' served' h => .inr ?_
      rcases h with ⟨rfl, rfl, rfl⟩ | ⟨later, hlater, hserved'⟩
      · rw [List.append_nil]
        exact ⟨group, List.mem_cons_self, hserved⟩
      · exact ⟨later, List.mem_cons_of_mem _ hlater,
          hserved'.mono (List.subset_append_right _ _)⟩

/-- What is found of a group is what the server says of it once, or nothing if it is not listed at
all. -/
theorem learns_servedGroup (name : String) :
    Learns (servedGroup name) fun c served =>
      (served = [] ∧ ∀ versions, ¬ ListsGroup c name versions) ∨
        ∃ versions, ListsGroup c name versions ∧ Reports c versions served := by
  refine (learns_address _ _).bind (fun _ => rfl) fun groups c ⟨hsingle, hgroups⟩ => ?_
  refine (learns_serveGroups _ _).bind (fun _ => rfl) fun served c' hserved => ?_
  dsimp only
  split
  case isTrue hname =>
    refine (learns_address _ _).bind (fun _ => rfl) fun versions c₁ ⟨_, hversions⟩ => ?_
    refine (learns_serveGroup _).imp fun c₂ served hserved => .inr ⟨versions, ?_, ?_⟩
    · refine .core (String.isEmpty_iff.mp hname) (hversions.mono ?_)
      intro e he
      simp only [List.mem_append]
      exact .inr (.inr (.inl he))
    · refine hserved.mono ?_
      intro e he
      simp only [List.mem_append]
      exact .inr (.inr (.inr he))
  case isFalse hname =>
    apply learns_ok
    rw [List.append_nil]
    rcases hserved with ⟨hnone, rfl, rfl⟩ | ⟨group, hgroup, hserved⟩
    · refine .inl ⟨rfl, fun versions hlisted => ?_⟩
      obtain ⟨request, reply, rfl⟩ := hsingle
      rw [List.append_nil] at hlisted
      cases hlisted with
      | core hempty _ => exact hname (String.isEmpty_iff.mpr hempty)
      | named htells hmem =>
          cases htells.eq_of_singleton hgroups
          have hfiltered : (name, versions) ∈ groups.filter (·.1 = name) :=
            List.mem_filter.mpr ⟨hmem, decide_eq_true rfl⟩
          rw [hnone] at hfiltered
          exact List.not_mem_nil hfiltered
    · obtain ⟨hmem, hname⟩ := List.mem_filter.mp hgroup
      obtain ⟨name', versions⟩ := group
      cases of_decide_eq_true hname
      refine .inr ⟨versions, ?_, hserved.mono (List.subset_append_right _ _)⟩
      exact .named (hgroups.mono (List.subset_append_left _ _)) hmem

theorem offers_eq_true {served : List ServedVersion} {id : KindId} :
    offers served id = true ↔
      ∃ v, served.find? (·.version = id.version) = some v ∧ id.kind ∈ v.kinds := by
  unfold offers
  cases served.find? (·.version = id.version) with
  | none => simp
  | some v => simp

/-- What is found is listed. -/
theorem lists_of_offers {id : KindId} {versions : List GroupVersion}
    {served : List ServedVersion} (hgroup : ListsGroup c id.group versions)
    (hserved : Reports c versions served) (h : offers served id = true) : Lists c id := by
  obtain ⟨v, hfind, hkind⟩ := offers_eq_true.mp h
  have hversion : v.version = id.version := by simpa using List.find?_some hfind
  obtain ⟨gv, hgv, hsame, htells⟩ := hserved.said v (List.mem_of_find?_eq_some hfind)
  exact ⟨versions, hgroup, gv, hgv, hsame.symm.trans hversion, v.kinds, htells, hkind⟩

/-- What is listed is found, if nothing else is said of it. -/
theorem offers_of_lists {id : KindId} {versions : List GroupVersion}
    {served : List ServedVersion} (hconsistent : Consistent c id.group)
    (hgroup : ListsGroup c id.group versions) (hserved : Reports c versions served)
    (h : Lists c id) : offers served id = true := by
  obtain ⟨versions', hgroup', gv, hgv, hversion, kinds, htells, hkind⟩ := h
  cases hconsistent.group _ _ hgroup hgroup'
  have hsome : (served.find? (·.version = id.version)).isSome = true := by
    obtain ⟨v, hv, hsame, _⟩ := hserved.whole gv hgv
    rw [List.find?_isSome]
    exact ⟨v, hv, decide_eq_true (hsame.trans hversion)⟩
  obtain ⟨first, hfirst⟩ := Option.isSome_iff_exists.mp hsome
  have hversion' : first.version = id.version := by simpa using List.find?_some hfirst
  -- The first entry for the version is one for the listed version, so it has the same kinds.
  obtain ⟨gv', hgv', hsame', htells'⟩ := hserved.said first (List.mem_of_find?_eq_some hfirst)
  have hgv_eq : gv' = gv := hconsistent.version _ hgroup gv' hgv' gv hgv
    (hsame'.symm.trans (hversion'.trans hversion.symm))
  rw [hgv_eq] at htells'
  rw [hconsistent.kinds _ _ _ htells htells'] at hkind
  exact offers_eq_true.mpr ⟨first, hfirst, hkind⟩

/-- A look finds nothing that is not listed, and what is listed if nothing else is said of it. -/
theorem learns_serves (id : KindId) :
    Learns (serves id) fun c found =>
      (found = true → Lists c id) ∧ (Consistent c id.group → Lists c id → found = true) := by
  refine (learns_servedGroup id.group).bind (fun _ => rfl) fun served c hserved => ?_
  apply learns_ok
  rw [List.append_nil]
  rcases hserved with ⟨rfl, hnone⟩ | ⟨versions, hgroup, hserved⟩
  · refine ⟨fun h => ?_, fun _ h => ?_⟩
    · cases h
    · obtain ⟨versions, hgroup, _⟩ := h
      exact absurd hgroup (hnone versions)
  · exact ⟨lists_of_offers hgroup hserved, fun hc => offers_of_lists hc hgroup hserved⟩

theorem completes_serves (id : KindId) : (serves id).Completes := (learns_serves id).completes

end SecretsWarden.Cluster
