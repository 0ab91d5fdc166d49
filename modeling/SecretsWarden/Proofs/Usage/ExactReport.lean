import Mathlib.Data.List.Forall2
import SecretsWarden.Proofs.Cluster.Exchange
import SecretsWarden.Proofs.Usage.FirstDecision
import SecretsWarden.Proofs.Usage.Lookup
import SecretsWarden.Usage.Report

/-!
# The report is exact

A check looks up one kind after the other with the whole chain, each kind beginning where the one
before it ended, up to the first kind that cannot be decided. What was found for all kinds is
reported in that order: whether there is anything, the first few stores by name, and the number of
the others. If a kind cannot be decided, nothing of what was found before is reported, and nothing
is asked about the kinds after it.

The chain may be any one of caches and lists. They find stores in words, and words are never empty;
so the text of a report is empty exactly if nothing was found.
-/

namespace SecretsWarden.Usage

open Dialogue Cluster Resource

/-! ## Words -/

theorem inWords_ne_empty (kind : Store.Kind) (s : Store) : s.inWords kind ≠ "" := by
  have hname : toString kind.name ≠ "" := by cases kind <;> decide
  intro h
  unfold Store.inWords at h
  split at h
  · simp only [String.append_eq_empty_iff] at h
    exact hname h.1.1.1.1.1
  · simp only [String.append_eq_empty_iff] at h
    exact hname h.1.1.1

theorem intercalate_ne_empty {first : String} (h : first ≠ "") (separator : String)
    (rest : List String) : separator.intercalate (first :: rest) ≠ "" := by
  cases rest with
  | nil => rwa [String.intercalate_singleton]
  | cons next rest =>
      rw [String.intercalate_cons_cons]
      simp [h]

/-- What a report says of stores that were found, given in words. -/
structure Report.Shows (report : Report) (found : List String) : Prop where
  inUse : report.inUse = true ↔ found ≠ []
  nonempty : report.summary ≠ "" ↔ report.inUse = true
  summary : report.summary = ", ".intercalate (found.take 5) ++
    if 5 < found.length then s!", and {found.length - 5} more" else ""

theorem summarize_eq (found : List String) :
    summarize found = ", ".intercalate (found.take 5) ++
      if 5 < found.length then s!", and {found.length - 5} more" else "" := by
  unfold summarize maxNamed
  by_cases h : found.length ≤ 5
  · rw [if_pos h, if_neg (Nat.not_lt.mpr h), List.take_of_length_le h, String.append_empty]
  · rw [if_neg h, if_pos (Nat.not_le.mp h)]

theorem summarize_ne_empty {found : List String} (h : ∀ words ∈ found, words ≠ "") :
    summarize found ≠ "" ↔ found ≠ [] := by
  rw [summarize_eq]
  cases found with
  | nil => simp
  | cons first rest =>
      have hfirst := intercalate_ne_empty (h first List.mem_cons_self) ", " (rest.take 4)
      rw [List.take_succ_cons]
      simp [hfirst]

theorem shows_ofStores {found : List String} (h : ∀ words ∈ found, words ≠ "") :
    (Report.ofStores found).Shows found where
  inUse := by cases found <;> simp [Report.ofStores]
  nonempty := by
    rw [Report.ofStores, summarize_ne_empty h]
    cases found <;> simp
  summary := summarize_eq found

/-! ## Chains of caches and lists -/

/-- The strategy looks into caches or asks for a list. -/
def IsLookup (s : Strategy Request Reply) : Prop :=
  (∃ (index : Index) (order : Order), s = index.strategy order) ∨ s = listing

/-- These are the stores of a kind as a chain comes to know of them: those of a cache in the order
of the cache, those of a list that was asked for, or none if the answer to that was that the kind
does not exist. -/
inductive Known (strategies : List (Strategy Request Reply)) (kind : Store.Kind)
    (c : Course Request Reply) : List Store → Prop where
  | cached {index : Index} {order : Order} {cache : Cache}
      (hmem : index.strategy order ∈ strategies) (hcache : index kind = some cache) :
      Known strategies kind c (order.arrange kind cache.stores)
  | listed {reply : Reply} {stores : List Store}
      (hasked : .asked (.list kind.path "") reply ∈ c)
      (hread : reply.receive (listReader Store.reader) = .ok stores) :
      Known strategies kind c stores
  | missing {reply : Reply} {answer : Status}
      (hasked : .asked (.list kind.path "") reply ∈ c)
      (hread : reply.receive (listReader Store.reader) = .error (.api answer))
      (hcode : answer.code = 404) : Known strategies kind c []

/-- The words for those of the stores that refer to the provider. -/
def wordsFor (kind : Store.Kind) (provider : String) (stores : List Store) : List String :=
  (stores.filter (·.refersTo provider)).map (Store.inWords kind)

variable {kind : Store.Kind} {provider : String} {s : Strategy Request Reply}
  {strategies strategies' : List (Strategy Request Reply)} {c c' : Course Request Reply}

theorem Known.mono {stores : List Store} (h : Known strategies kind c stores)
    (hchain : strategies ⊆ strategies') (hcourse : c ⊆ c') :
    Known strategies' kind c' stores := by
  cases h with
  | cached hmem hcache => exact .cached (hchain hmem) hcache
  | listed hasked hread => exact .listed (hcourse hasked) hread
  | missing hasked hread hcode => exact .missing (hcourse hasked) hread hcode

/-- What an answer to a list decides is in the list. -/
theorem known_of_readListing {reply : Reply} {found : List String}
    (h : settle (readListing kind provider (reply.receive (listReader Store.reader))) =
      .ok found) :
    ∃ stores, Known strategies kind [.asked (.list kind.path "") reply] stores ∧
      found = wordsFor kind provider stores := by
  have hasked : .asked (Request.list kind.path "") reply ∈
      [Event.asked (Request.list kind.path "") reply] := List.mem_singleton_self _
  cases hread : reply.receive (listReader Store.reader) with
  | ok stores =>
      rw [hread] at h
      cases h
      exact ⟨stores, .listed hasked hread, rfl⟩
  | error e =>
      rw [hread, readListing] at h
      by_cases hmissing : e.isNotFound = true
      · rw [if_pos hmissing] at h
        cases h
        obtain ⟨answer, rfl, hcode⟩ := Error.isNotFound_iff.mp hmissing
        exact ⟨[], .missing hasked hread hcode, rfl⟩
      · rw [if_neg hmissing] at h
        cases h

/-- Caches and lists come to an answer. If it decides, it names the stores that are known then. -/
theorem gives_lookup (h : IsLookup s) (kind : Store.Kind) (provider : String) :
    (s.find kind provider).Gives fun c answer =>
      ∀ found, settle answer = .ok found →
        ∃ stores, Known [s] kind c stores ∧ found = wordsFor kind provider stores := by
  rcases h with ⟨index, order, rfl⟩ | rfl
  · refine gives_done fun found hfound => ?_
    unfold Index.find at hfound
    split at hfound
    · rename_i cache hcache
      cases hfound
      exact ⟨_, .cached (List.mem_singleton_self _) hcache, matching_eq order cache kind provider⟩
    · cases hfound
  · refine (gives_list _ _ _).map ?_
    rintro c _ ⟨reply, rfl, rfl⟩ found hfound
    exact known_of_readListing hfound

theorem gives_findAfter (h : ∀ s ∈ strategies, IsLookup s) (last : LookupFault)
    (kind : Store.Kind) (provider : String) :
    (findAfter last kind provider strategies).Gives fun c answer =>
      ∀ found, answer = .ok found →
        ∃ stores, Known strategies kind c stores ∧ found = wordsFor kind provider stores := by
  induction strategies generalizing last with
  | nil =>
      refine gives_done fun found hfound => ?_
      cases hfound
  | cons s rest ih =>
      obtain ⟨hs, hrest⟩ := List.forall_mem_cons.mp h
      have hfirst : [s] ⊆ s :: rest :=
        List.cons_subset_cons s (List.nil_subset rest)
      refine (gives_lookup hs kind provider).bind fun answer c hanswer => ?_
      -- What decides is known from the first strategy, and anything else is left to the others.
      have hdecided : ∀ found, settle answer = .ok found → ∃ stores,
          Known (s :: rest) kind (c ++ []) stores ∧ found = wordsFor kind provider stores := by
        intro found hfound
        obtain ⟨stores, hstores, hwords⟩ := hanswer found hfound
        exact ⟨stores, hstores.mono hfirst (List.subset_append_left _ _), hwords⟩
      have hopen : ∀ e, (findAfter e kind provider rest).Gives fun c' answer =>
          ∀ found, answer = .ok found → ∃ stores,
            Known (s :: rest) kind (c ++ c') stores ∧ found = wordsFor kind provider stores := by
        intro e
        refine (ih hrest e).imp fun c' answer hlater found hfound => ?_
        obtain ⟨stores, hstores, hwords⟩ := hlater found hfound
        exact ⟨stores, hstores.mono (List.subset_cons_self _ _) (List.subset_append_right _ _),
          hwords⟩
      match answer with
      | .ok found => exact gives_done hdecided
      | .error (.notInstalled name) => exact gives_done hdecided
      | .error (.unavailable reason) => exact hopen _
      | .error (.request cause) => exact hopen _

/-! ## One kind after the other -/

/-- The look-up of a kind by a chain: where it begins. -/
structure Search (σ : Type) where
  kind : Store.Kind
  clock : Nat
  state : σ

variable {σ q r : Type}

section Searches

variable (answer : Answerer σ q r) (strategies : List (Strategy q r)) (provider : String)

def Search.ending (s : Search σ) : Ending σ (Except LookupFault (List String)) :=
  (findFirst strategies s.kind provider).run answer s.clock s.state

def Search.course (s : Search σ) : Course q r :=
  (findFirst strategies s.kind provider).course answer s.clock s.state

/-- The look-ups of some kinds, each beginning where the one before it ended. -/
def searches (clock : Nat) (state : σ) : List Store.Kind → List (Search σ)
  | [] => []
  | kind :: rest =>
    let s : Search σ := ⟨kind, clock, state⟩
    s :: searches (s.ending answer strategies provider).clock
      (s.ending answer strategies provider).state rest

end Searches

variable {answer : Answerer σ q r} {chain : List (Strategy q r)} {clock : Nat} {state : σ}
  {kinds : List Store.Kind}

/-- What a check does about the answer for one kind. -/
def afterSearch (chain : List (Strategy q r)) (provider : String) (found : List String)
    (kind : Store.Kind) (rest : List Store.Kind) :
    Except LookupFault (List String) → Dialogue q r (Except Failure (List String))
  | .ok more => collect chain provider (found ++ more) rest
  | .error e => .done (.error (.findStores kind.name e.message))

theorem collect_cons (chain : List (Strategy q r)) (provider : String) (found : List String)
    (kind : Store.Kind) (rest : List Store.Kind) :
    collect chain provider found (kind :: rest) =
      (findFirst chain kind provider).bind (afterSearch chain provider found kind rest) :=
  rfl

/-- One kind comes to an answer. -/
theorem reaches_afterSearch {s : Search σ} {decided : Except LookupFault (List String)}
    (found : List String) (rest : List Store.Kind)
    (h : (s.ending answer chain provider).result = .ok decided) :
    Reaches answer s.clock s.state (collect chain provider found (s.kind :: rest))
      (s.course answer chain provider) (s.ending answer chain provider).clock
      (s.ending answer chain provider).state
      (afterSearch chain provider found s.kind rest decided) := by
  rw [collect_cons]
  apply reaches_bind
  rw [← h]
  rfl

/-- The look-ups find these stores, given in words. -/
def Find (answer : Answerer σ q r) (chain : List (Strategy q r)) (provider : String) :
    List (Search σ) → List (List String) → Prop :=
  List.Forall₂ fun s found => (s.ending answer chain provider).result = .ok (.ok found)

/-- Kinds that are decided lead to the kinds after them. -/
theorem reaches_collect (found : List String) {before after : List (Search σ)}
    {founds : List (List String)}
    (hsearches : searches answer chain provider clock state kinds = before ++ after)
    (hfound : Find answer chain provider before founds) :
    ∃ later clock' state', after = searches answer chain provider clock' state' later ∧
      Reaches answer clock state (collect chain provider found kinds)
        (before.flatMap (·.course answer chain provider)) clock' state'
        (collect chain provider (found ++ founds.flatten) later) := by
  induction before generalizing kinds clock state found founds with
  | nil =>
      cases hfound
      refine ⟨kinds, clock, state, hsearches.symm, ?_⟩
      rw [List.flatten_nil, List.append_nil]
      exact .stay _ _ _
  | cons s before ih =>
      cases kinds with
      | nil => cases hsearches
      | cons kind rest =>
          obtain ⟨rfl, hrest⟩ := List.cons.inj hsearches
          cases hfound with
          | @cons _ more _ founds hmore hfounds =>
              obtain ⟨later, clock', state', hlater, hreaches⟩ :=
                ih (found ++ more) hrest hfounds
              refine ⟨later, clock', state', hlater, ?_⟩
              rw [List.flatten_cons, ← List.append_assoc]
              exact (reaches_afterSearch found rest hmore).trans hreaches

/-- If all kinds are decided, all that was found is collected in order. -/
theorem collect_found (found : List String) {founds : List (List String)}
    (hfound : Find answer chain provider
      (searches answer chain provider clock state kinds) founds) :
    ((collect chain provider found kinds).run answer clock state).result =
        .ok (.ok (found ++ founds.flatten)) ∧
      (collect chain provider found kinds).course answer clock state =
        (searches answer chain provider clock state kinds).flatMap
          (·.course answer chain provider) := by
  obtain ⟨later, clock', state', hlater, hreaches⟩ :=
    reaches_collect found (List.append_nil _).symm hfound
  cases later with
  | cons kind rest => cases hlater
  | nil =>
      refine ⟨?_, hreaches.course_eq.trans (List.append_nil _)⟩
      rw [hreaches.run_eq]
      rfl

/-- The first kind that cannot be decided is the end. -/
theorem collect_failed (found : List String) {before after : List (Search σ)} {s : Search σ}
    {founds : List (List String)} {e : LookupFault}
    (hsearches : searches answer chain provider clock state kinds = before ++ s :: after)
    (hfound : Find answer chain provider before founds)
    (hfailed : (s.ending answer chain provider).result = .ok (.error e)) :
    ((collect chain provider found kinds).run answer clock state).result =
        .ok (.error (.findStores s.kind.name e.message)) ∧
      (collect chain provider found kinds).course answer clock state =
        (before ++ [s]).flatMap (·.course answer chain provider) := by
  obtain ⟨later, clock', state', hlater, hreaches⟩ :=
    reaches_collect found hsearches hfound
  cases later with
  | nil => cases hlater
  | cons kind rest =>
      obtain ⟨rfl, _⟩ := List.cons.inj hlater
      have hend := hreaches.trans (reaches_afterSearch (found ++ founds.flatten) rest hfailed)
      refine ⟨?_, ?_⟩
      · rw [hend.run_eq]
        rfl
      · rw [hend.course_eq, List.flatMap_append, List.flatMap_singleton]
        exact List.append_nil _

/-- Each look-up by caches and lists comes to an answer, and what it finds are the stores that are
known after it. -/
theorem search_answered {strategies : List (Strategy Request Reply)}
    {answer : Answerer σ Request Reply} (hchain : ∀ s ∈ strategies, IsLookup s) (s : Search σ) :
    ∃ decided, (s.ending answer strategies provider).result = .ok decided ∧
      ∀ found, decided = .ok found →
        ∃ stores, Known strategies s.kind (s.course answer strategies provider) stores ∧
          found = wordsFor s.kind provider stores :=
  gives_findAfter hchain _ s.kind provider
    (ends_run answer (findFirst strategies s.kind provider) s.clock s.state)

/-- What look-ups by caches and lists find are words. -/
theorem ne_empty_of_find {strategies : List (Strategy Request Reply)}
    {answer : Answerer σ Request Reply} (hchain : ∀ s ∈ strategies, IsLookup s)
    {begun : List (Search σ)} {founds : List (List String)}
    (h : Find answer strategies provider begun founds) :
    ∀ words ∈ founds.flatten, words ≠ "" := by
  induction h with
  | nil => exact fun words hwords => absurd hwords List.not_mem_nil
  | @cons s found _ _ hfound _ ih =>
      obtain ⟨decided, hdecided, hknown⟩ := search_answered hchain s
      cases hdecided.symm.trans hfound
      intro words hwords
      rw [List.flatten_cons] at hwords
      rcases List.mem_append.mp hwords with hwords | hwords
      · obtain ⟨stores, _, rfl⟩ := hknown found rfl
        obtain ⟨store, _, rfl⟩ := List.mem_map.mp hwords
        exact inWords_ne_empty s.kind store
      · exact ih words hwords

/-- **The report is exact.** Whatever caches and lists the chain is made of, whatever they hold and
whatever is answered, both kinds are looked up in order. What is found of a kind are the stores of a
cache of it, or of a list that was asked for, as far as they refer to the provider; all of these,
and in their order. If both kinds are decided, the report shows what was found, the stores of the
first kind before those of the second. At the first kind that cannot be decided the check fails with
its name and the error of the last strategy; what was found before is not in that failure, and
nothing is asked after it. -/
theorem report_is_exact {strategies : List (Strategy Request Reply)}
    (hchain : ∀ s ∈ strategies, IsLookup s) {synced : Option Bool} (hsynced : synced ≠ some false)
    (provider : String) (answer : Answerer σ Request Reply) (clock : Nat) (state : σ) :
    (searches answer strategies provider clock state Store.Kind.all).map (·.kind) =
        [.secretStore, .clusterSecretStore] ∧
      (∀ s ∈ searches answer strategies provider clock state Store.Kind.all,
        ∃ decided, (s.ending answer strategies provider).result = .ok decided ∧
          ∀ found, decided = .ok found →
            ∃ stores, Known strategies s.kind (s.course answer strategies provider) stores ∧
              found = wordsFor s.kind provider stores) ∧
      (∀ founds, Find answer strategies provider
          (searches answer strategies provider clock state Store.Kind.all) founds →
        ∃ report, ((check strategies provider synced).run answer clock state).result =
            .ok (.ok report) ∧
          report.Shows founds.flatten ∧
          (check strategies provider synced).course answer clock state =
            (searches answer strategies provider clock state Store.Kind.all).flatMap
              (·.course answer strategies provider)) ∧
      ∀ before s after founds e,
        searches answer strategies provider clock state Store.Kind.all = before ++ s :: after →
        Find answer strategies provider before founds →
        (s.ending answer strategies provider).result = .ok (.error e) →
          ((check strategies provider synced).run answer clock state).result =
              .ok (.error (.findStores s.kind.name e.message)) ∧
            (lastEnding (atStart s.clock s.state)
              (visits answer s.kind provider s.clock s.state strategies)).result =
                .ok (.error e) ∧
            (check strategies provider synced).course answer clock state =
              (before ++ [s]).flatMap (·.course answer strategies provider) := by
  have hcheck : check strategies provider synced =
      (collect strategies provider [] Store.Kind.all).bind fun answer =>
        .done (answer.map Report.ofStores) := by
    rw [check, if_neg hsynced]
  rw [hcheck, result_bind_done, course_bind_done]
  refine ⟨rfl, fun s _ => search_answered hchain s, ?_, ?_⟩
  · intro founds hfounds
    obtain ⟨hresult, hcourse⟩ := collect_found [] hfounds
    refine ⟨_, by rw [hresult]; rfl, ?_, hcourse⟩
    exact shows_ofStores (ne_empty_of_find hchain hfounds)
  · intro before s after founds e hsearches hfound hfailed
    obtain ⟨hresult, hcourse⟩ := collect_failed [] hsearches hfound hfailed
    exact ⟨by rw [hresult]; rfl, (undecided_of_error hfailed).2, hcourse⟩

/-- Lists six stores, and no stores of the other kind while these are served at all. -/
def listSix : Answerer Bool Request Reply := fun _ served request =>
  let named (name : String) : Json.Value := .object [
    ("metadata", .object [("name", .string name)]),
    ("spec", .object [("provider", .object [("aws", .object [])])])]
  let items (stores : List Json.Value) : Reply :=
    .answered 200 (.json (.object [("items", .array stores)]))
  (if request.path = Store.Kind.secretStore.path then
      items (["a", "b", "c", "d", "e", "f"].map named)
    else if served then items []
    else .failed "connection refused", served)

theorem six_stores_reported :
    (∃ report, ((check [Index.strategy fun _ => none, listing] "aws" none).run
          listSix 0 true).result = .ok (.ok report) ∧
        report.Shows (["a", "b", "c", "d", "e", "f"].map (s!"SecretStore '{·}'"))) ∧
      ((check [Index.strategy fun _ => none, listing] "aws" none).run listSix 0 false).result =
        .ok (.error (.findStores "ClusterSecretStore"
          "Kubernetes API error: ServiceError: connection refused")) := by
  have hsynced : (none : Option Bool) ≠ some false := by decide
  have hchain : ∀ s ∈ [Index.strategy fun _ => none, listing], IsLookup s := by
    intro s hs
    rcases List.mem_pair.mp hs with rfl | rfl
    · exact .inl ⟨_, _, rfl⟩
    · exact .inr rfl
  obtain ⟨_, _, hfound, _⟩ := report_is_exact hchain hsynced "aws" listSix 0 true
  obtain ⟨_, _, _, hfailed⟩ := report_is_exact hchain hsynced "aws" listSix 0 false
  refine ⟨?_, ?_⟩
  · obtain ⟨report, hresult, hshows, _⟩ := hfound [_, []] (.cons rfl (.cons rfl .nil))
    exact ⟨report, hresult, hshows⟩
  · exact (hfailed [_] _ [] [_] _ rfl (.cons rfl .nil) rfl).1

end SecretsWarden.Usage
