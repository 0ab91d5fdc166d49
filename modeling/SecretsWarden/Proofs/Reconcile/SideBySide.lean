import Mathlib.Data.List.Induction
import SecretsWarden.Proofs.Cluster.History
import SecretsWarden.Proofs.Reconcile.Convergence
import SecretsWarden.Proofs.Reconcile.Interleaving

/-!
# Passes side by side

A patch of a definition carries no version, so the server does not tell a pass that works on an old
reading from any other. It need not: the patch says what the annotation shall be and nothing else.
Whatever became of the definition since it was read, it is given the annotation as it is stored now.

Others may edit, add and delete definitions between any two requests. As long as they leave the
annotation alone and do not bring a deleted name back, what is annotated once is annotated for good,
and a sweep that ends without a failure leaves nothing to annotate of what it listed.
-/

namespace SecretsWarden.Reconcile

open Cluster Dialogue Injection Json Resource StatusRecord ApiServer

/-- The definitions after a schedule. -/
def definitionsAfter (p : Policy) (server : ApiServer) (passes : List Pass)
    (schedule : List Action) : List Value :=
  (passSystem p server passes schedule).server.definitions

/-- What happens in one of the passes in the course of a schedule. -/
def passHistory (p : Policy) (server : ApiServer) (passes : List Pass) (i : Nat)
    (schedule : List Action) : Course Request Reply :=
  System.history p i ⟨server, passes.map Pass.session⟩ schedule

/-- Others leave the annotation alone. Each definition that an edit leaves was there under its name
and with the annotation as it was, or has a name that no definition had before. -/
def EditsAside (p : Policy) (server : ApiServer) (passes : List Pass)
    (schedule : List Action) : Prop :=
  ∀ earlier config definitions later, schedule = earlier ++ .edit config definitions :: later →
    Filed definitions ∧ ∀ w ∈ definitions,
      (∃ v ∈ definitionsAfter p server passes earlier, name? v = name? w ∧
        v.at? Definition.annotationPath = w.at? Definition.annotationPath) ∨
      ∀ before, before <+: earlier → ∀ v ∈ definitionsAfter p server passes before,
        name? v ≠ name? w

/-- The only difference between two servers is that the definition at the address of a request has
gained the annotation. -/
def PatchesOne (request : Request) (s s' : ApiServer) : Prop :=
  ∃ front v back w, s.definitions = front ++ v :: back ∧
    s' = { s with definitions := front ++ w :: back } ∧ address? v = some request.path ∧
    Definition.GainsAnnotation v w

variable {p : Policy} {s server : ApiServer} {passes : List Pass} {r : Pass} {i : Nat}
  {schedule earlier later : List Action} {passage : Passage} {c : Course Request Reply}
  {request : Request} {reply : Reply} {next : Reply → Session (Except Failure Unit)}
  {name : String} {v w : Value} {d : Definition}

theorem EditsAside.of_append (h : EditsAside p server passes (earlier ++ later)) :
    EditsAside p server passes earlier := by
  rintro before config definitions after rfl
  exact h before config definitions (after ++ later) (by simp)

/-! ## What a pass asks of definitions -/

/-- The second phase of a pass reads, and patches what it reads. -/
theorem AnnotationPhase.get_or_patching {target : Target} {trace : Trace}
    (h : AnnotationPhase target trace) :
    ∀ x ∈ trace, x.1.method = .get ∨ ∃ d, patching d = .ok x.1 := by
  intro x hx
  cases h with
  | unbuilt => cases hx
  | all _ h =>
      rcases List.mem_cons.mp hx with rfl | hx
      · exact Or.inl rfl
      · exact Or.inr (h.exists_patching x hx)
  | named _ hrequest h =>
      rcases List.mem_cons.mp hx with rfl | hx
      · exact Or.inl (method_of_named hrequest)
      · exact Or.inr (h.exists_patching x hx)

/-- A pass that asks for a change asks for a change of the configuration object, or for the
annotation of a definition. -/
theorem patching_of_leads (hleads : Leads r.session c (.ask request next))
    (hmethod : request.method = .patch) :
    SecretsConfig.path.toList <+: request.path.toList ∨ ∃ d, patching d = .ok request := by
  have hnotget : request.method ≠ .get := by
    rw [hmethod]
    exact Method.noConfusion
  obtain ⟨after, out, hends, _⟩ := (hleads.answered (.failed "")).exists_ends
  have hmem : (request, .failed "") ∈ exchanges (c ++ [.asked request (.failed "")] ++ after) := by
    rw [mem_exchanges]
    simp
  generalize c ++ [.asked request (.failed "")] ++ after = whole at hends hmem
  have hpasses := passes_of_ends hends
  cases hpasses with
  | unread h hread => exact absurd (h.method_get _ hmem) hnotget
  | absent h hread => exact absurd (h.method_get _ hmem) hnotget
  | disabled h hinject => exact absurd (h.method_get _ hmem) hnotget
  | enabled h hinject hsynchronizes hrecord =>
      rw [exchanges_append, exchanges_append] at hmem
      rcases List.mem_append.mp hmem with hmem | hmem
      · exact absurd (h.method_get _ hmem) hnotget
      · rcases List.mem_append.mp hmem with hmem | hmem
        · have hphase := annotationPhase_of_synchronizes hsynchronizes
          exact Or.inr ((hphase.get_or_patching _ hmem).resolve_left hnotget)
        · left
          obtain ⟨before, after, hsplit⟩ := List.append_of_mem (mem_exchanges.mp hmem)
          obtain ⟨_, _, _, _, _, _, _, _, _, hwriting⟩ :=
            writesFollowReads_of_ends_record hrecord before after request _ hsplit hmethod
          exact prefix_of_named hwriting isPathText_path

/-! ## One turn -/

/-- The server takes the patch of a pass for a patch of the definition at its address. -/
theorem answer_patching (s : ApiServer) (hpatching : patching d = .ok request) :
    s.answer p request = s.patchDefinition p request.path Injection.patchBody := by
  have hpath : request.path ≠ statusAddress := by
    intro heq
    have hprefix := prefix_of_named hpatching (by decide)
    rw [heq] at hprefix
    exact not_prefix_of_prefix hprefix (by decide)
  simp only [answer, method_of_named hpatching, body_of_named hpatching, if_neg hpath]

/-- A turn of what is left of a pass leaves the definitions as they are, or is an accepted patch of
one of them. -/
theorem definitions_of_leads {session : Session (Except Failure Unit)}
    (hleads : Leads r.session c session) (passage : Passage) :
    (System.turn p passage s session).1.definitions = s.definitions ∨
      ∃ request next v, session = .ask request next ∧ request.method = .patch ∧
        request.body = some Injection.patchBody ∧ s.definition? request.path = some v ∧
        (System.turn p passage s session).1 = s.change request.path Injection.patchBody := by
  by_cases hsame : (System.turn p passage s session).1 = s
  · rw [hsame]
    exact Or.inl rfl
  · obtain ⟨request, next, rfl, hne, hturn⟩ := asks_of_turn_ne hsame
    rw [hturn]
    have hmethod : request.method = .patch := by
      cases hm : request.method with
      | patch => rfl
      | get =>
          rw [answer_get p _ hm] at hne
          exact absurd rfl hne
    rcases patching_of_leads hleads hmethod with hpath | ⟨d, hpatching⟩
    · obtain ⟨_, _, _, _, _, _, hafter⟩ := written_of_answer_ne hpath hne
      rw [hafter]
      exact Or.inl rfl
    · have hbody := body_of_named hpatching
      rw [answer_patching s hpatching] at hne ⊢
      rcases patchDefinition_cases p s request.path Injection.patchBody with
        ⟨_, hrefused⟩ | ⟨v, hfound, hafter⟩
      · exact absurd hrefused hne
      · exact Or.inr ⟨request, next, v, rfl, hmethod, hbody, hfound, hafter⟩

/-- A turn of a pass leaves the definitions as they are, or is an accepted patch of one of them. -/
theorem server_turn (p : Policy) (server : ApiServer) (passes : List Pass)
    (schedule : List Action) (i : Nat) (passage : Passage) :
    definitionsAfter p server passes (schedule ++ [.turn i passage]) =
        definitionsAfter p server passes schedule ∨
      ∃ request next v, (passSystem p server passes schedule).sessions[i]? =
          some (.ask request next) ∧
        request.method = .patch ∧ request.body = some Injection.patchBody ∧
        (passSystem p server passes schedule).server.definition? request.path = some v ∧
        (passSystem p server passes (schedule ++ [.turn i passage])).server =
          (passSystem p server passes schedule).server.change request.path
            Injection.patchBody := by
  rw [definitionsAfter, definitionsAfter, passSystem_snoc]
  cases hsession : (passSystem p server passes schedule).sessions[i]? with
  | none =>
      rw [System.step_turn_none passage hsession]
      exact Or.inl rfl
  | some session =>
      obtain ⟨_, c, hfirst, hleads, _⟩ :=
        System.informed_run (System.informed_start p server _) schedule i session hsession
      rw [List.getElem?_map] at hfirst
      obtain ⟨r, _, rfl⟩ := Option.map_eq_some_iff.mp hfirst
      rw [System.step_turn passage hsession]
      rcases definitions_of_leads hleads passage with
        hsame | ⟨request, next, v, rfl, hmethod, hbody, hfound, hafter⟩
      · exact Or.inl hsame
      · exact Or.inr ⟨request, next, v, rfl, hmethod, hbody, hfound, hafter⟩

/-- After a turn of a pass the same names are there, and what was annotated still is. -/
theorem definitions_turn (p : Policy) (server : ApiServer) (passes : List Pass)
    (schedule : List Action) (i : Nat) (passage : Passage) :
    (definitionsAfter p server passes (schedule ++ [.turn i passage])).map name? =
        (definitionsAfter p server passes schedule).map name? ∧
      ∀ w ∈ definitionsAfter p server passes (schedule ++ [.turn i passage]),
        ∃ v ∈ definitionsAfter p server passes schedule, name? v = name? w ∧
          (annotated v = true → annotated w = true) := by
  rcases server_turn p server passes schedule i passage with
    hsame | ⟨request, _, _, _, _, _, _, hafter⟩
  · rw [hsame]
    exact ⟨rfl, fun w hw => ⟨w, hw, rfl, id⟩⟩
  · rw [definitionsAfter, definitionsAfter, hafter]
    constructor
    · rw [change, List.map_map]
      refine List.map_congr_left fun v _ => ?_
      show name? (if _ then _ else _) = name? v
      split
      · exact Definition.name?_patched v
      · rfl
    · intro w hw
      obtain ⟨v, hv, rfl⟩ := List.mem_map.mp hw
      refine ⟨v, hv, ?_⟩
      split
      · exact ⟨(Definition.name?_patched v).symm, fun _ => Definition.annotated_patched v⟩
      · exact ⟨rfl, id⟩

/-! ## A whole schedule -/

/-- At any time the definitions have valid names of their own. -/
theorem filed_after (hfiled : Filed server.definitions)
    (haside : EditsAside p server passes schedule) :
    Filed (definitionsAfter p server passes schedule) := by
  induction schedule using List.reverseRecOn with
  | nil => exact hfiled
  | append_singleton schedule action ih =>
      have hbefore := ih haside.of_append
      cases action with
      | turn i passage =>
          exact hbefore.of_names (definitions_turn p server passes schedule i passage).1
      | edit config definitions =>
          have hafter : definitionsAfter p server passes (schedule ++ [.edit config definitions]) =
              definitions := by
            rw [definitionsAfter, passSystem_snoc]
            rfl
          rw [hafter]
          exact (haside schedule config definitions [] rfl).1

/-- What is annotated once is annotated as long as it is there. -/
theorem annotated_stays (hfiled : Filed server.definitions)
    (haside : EditsAside p server passes (earlier ++ later))
    (hv : v ∈ definitionsAfter p server passes earlier) (hannotated : annotated v = true) :
    ∀ w ∈ definitionsAfter p server passes (earlier ++ later), name? v = name? w →
      annotated w = true := by
  induction later using List.reverseRecOn with
  | nil =>
      intro w hw hname
      rw [List.append_nil] at haside hw
      rw [← (filed_after hfiled haside).eq_of_name? hv hw hname]
      exact hannotated
  | append_singleton later action ih =>
      rw [← List.append_assoc] at haside ⊢
      have hbefore := ih haside.of_append
      intro w hw hname
      cases action with
      | turn i passage =>
          obtain ⟨u, hu, hsame, hkept⟩ :=
            (definitions_turn p server passes (earlier ++ later) i passage).2 w hw
          exact hkept (hbefore u hu (hname.trans hsame.symm))
      | edit config definitions =>
          have hmem : w ∈ definitions := by
            rw [definitionsAfter, passSystem_snoc] at hw
            exact hw
          rcases (haside (earlier ++ later) config definitions [] rfl).2 w hmem with
            ⟨u, hu, hsame, hannotation⟩ | hnew
          · rw [← Definition.annotated_congr hannotation]
            exact hbefore u hu (hname.trans hsame.symm)
          · -- The name was taken already, so no new definition has it.
            exact absurd hname (hnew earlier (List.prefix_append _ _) v hv)

/-! ## A sweep -/

/-- What was asked in a pass was asked in a turn of it. -/
theorem exists_turn_of_asked (h : .asked request reply ∈ passHistory p server passes i schedule) :
    ∃ earlier passage later next, schedule = earlier ++ .turn i passage :: later ∧
      (passSystem p server passes earlier).sessions[i]? = some (.ask request next) ∧
      reply = (passage.exchange p (passSystem p server passes earlier).server request).1 :=
  System.exists_turn_of_mem_history h

/-- What a pass reads as the list of the managed definitions is stored at that time. -/
theorem exists_listed {ds : List Definition}
    (hmem : .asked (.list Definition.path Definition.selectorQuery) reply ∈
      passHistory p server passes i schedule)
    (hread : reply.receive (listReader Definition.reader) = .ok ds) :
    ∃ earlier later, schedule = earlier ++ later ∧
      ((definitionsAfter p server passes earlier).filter labelled).mapM Definition.ofJson? =
        some ds := by
  obtain ⟨earlier, passage, later, next, rfl, _, rfl⟩ := exists_turn_of_asked hmem
  obtain rfl := clear_of_receive hread
  refine ⟨earlier, .turn i .clear :: later, rfl, ?_⟩
  rw [Passage.exchange, answer_list] at hread
  exact mapM_of_receive_list hread

/-- After an accepted patch of a pass the definition of that name is annotated. -/
theorem exists_annotated {d' : Definition} (hname : d.name = name) (hvalid : IsObjectName name)
    (hpatching : patching d = .ok request)
    (hmem : .asked request reply ∈ passHistory p server passes i schedule)
    (hread : reply.receive Definition.reader = .ok d') :
    ∃ earlier later v, schedule = earlier ++ later ∧
      v ∈ definitionsAfter p server passes earlier ∧ name? v = some name ∧
      annotated v = true := by
  obtain ⟨earlier, passage, later, next, rfl, hsession, rfl⟩ := exists_turn_of_asked hmem
  obtain rfl := clear_of_receive hread
  have hpath : request.path = addressOf name := by
    rw [patching_eq hname hvalid, Except.ok.injEq] at hpatching
    rw [← hpatching]
  have hserver : (passSystem p server passes (earlier ++ [.turn i .clear])).server =
      ((passSystem p server passes earlier).server.answer p request).2 := by
    rw [passSystem_snoc, System.step_turn .clear hsession]
    rfl
  rw [Passage.exchange] at hread
  rw [answer_patching _ hpatching, hpath] at hread hserver
  rcases patchDefinition_cases p (passSystem p server passes earlier).server (addressOf name)
    Injection.patchBody with ⟨hrefusal, _⟩ | ⟨v, hfound, hafter⟩
  · obtain ⟨e, he⟩ := receive_refusal Definition.reader hrefusal
    rw [he] at hread
    cases hread
  · obtain ⟨hv, hvname⟩ := mem_of_definition? hfound
    refine ⟨earlier ++ [.turn i .clear], later, v.mergePatch Injection.patchBody, by simp, ?_, ?_,
      Definition.annotated_patched v⟩
    · rw [definitionsAfter, hserver, hafter]
      refine List.mem_map.mpr ⟨v, hv, ?_⟩
      rw [if_pos (address?_eq_iff.mpr hvname)]
    · rw [Definition.name?_patched, hvname]

/-- When a sweep of a pass ended without a failure, what it listed is annotated if it is there. -/
theorem annotated_of_sweep {swept before after : Course Request Reply} {patched : Nat}
    (hfiled : Filed server.definitions) (haside : EditsAside p server passes schedule)
    (hhistory : passHistory p server passes i schedule = before ++ (swept ++ after))
    (hswept : SweepsAll swept (.ok patched)) :
    ∃ reply ds rest, swept = .asked (.list Definition.path Definition.selectorQuery) reply :: rest ∧
      reply.receive (listReader Definition.reader) = .ok ds ∧
      ∀ d ∈ ds, ∀ w ∈ definitionsAfter p server passes schedule, name? w = some d.name →
        annotated w = true := by
  have hmem : ∀ {request reply}, .asked request reply ∈ swept →
      .asked request reply ∈ passHistory p server passes i schedule := by
    intro request reply h
    rw [hhistory]
    exact List.mem_append_right _ (List.mem_append_left _ h)
  generalize hresult : Except.ok patched = result at hswept
  cases hswept with
  | unlisted h => cases hresult
  | @listed reply ds c _ hread hsweeps =>
      refine ⟨reply, ds, c, rfl, hread, ?_⟩
      intro d hd w hw hwname
      obtain ⟨earlier, later, hschedule, hlisted⟩ := exists_listed (hmem List.mem_cons_self) hread
      obtain ⟨v, hv, hvread⟩ := exists_of_mem_mapM_ofJson? hlisted hd
      have hv := (List.mem_filter.mp hv).1
      have hfiledThen := filed_after hfiled (hschedule ▸ haside).of_append
      obtain ⟨name, hvname, hvalid⟩ := hfiledThen.named v hv
      have hname := Definition.name_eq hvread hvname
      rw [hname] at hwname
      rcases hsweeps.settled hresult.symm d hd with hannotated | ⟨request, reply', d', hpatching,
        hpatched, hread'⟩
      · -- It was annotated when it was listed.
        rw [Definition.isAnnotated_eq hvread] at hannotated
        rw [hschedule] at haside hw
        exact annotated_stays hfiled haside hv hannotated w hw (hvname.trans hwname.symm)
      · -- It was annotated by its patch.
        obtain ⟨earlier', later', v', hschedule', hv', hvname', hannotated⟩ :=
          exists_annotated hname hvalid hpatching (hmem (List.mem_cons_of_mem _ hpatched)) hread'
        rw [hschedule'] at haside hw
        exact annotated_stays hfiled haside hv' hannotated w hw (hvname'.trans hwname.symm)

/-- A pass that succeeds had nothing to do, or brought in line what it works on. -/
theorem synchronized_of_success (hpass : passes[i]? = some r)
    (hvalue : (passSystem p server passes schedule).value? i = some (.ok ())) :
    (∃ reply, passHistory p server passes i schedule = [.asked firstRequest reply]) ∨
      ∃ reply swept after,
        passHistory p server passes i schedule = .asked firstRequest reply :: (swept ++ after) ∧
        Ends (synchronize r.target) swept (.ok (.ok ())) := by
  have hstart : (System.mk server (passes.map Pass.session)).sessions[i]? = some r.session := by
    rw [List.getElem?_map, hpass]
    rfl
  obtain ⟨left, hleft, hleads⟩ := System.leads_history (p := p) hstart schedule
  have hdone : left = .done (.ok ()) := by
    have hrun : (passSystem p server passes schedule).sessions[i]? = some left := hleft
    rw [System.value?, hrun] at hvalue
    exact eq_done_of_value? hvalue
  have hends : Ends r.session (passHistory p server passes i schedule) (.ok (.ok ())) := by
    have hall := hleads.ends (hdone ▸ Ends.done _)
    rwa [List.append_nil] at hall
  rw [Pass.session, pass_eq] at hends
  obtain ⟨reply, rest, hhistory, hrest⟩ := ends_ask.mp hends
  rw [hhistory]
  cases hread : absent? (reply.receive SecretsConfig.reader) with
  | error e =>
      rw [hread] at hrest
      obtain ⟨_, hresult⟩ := ends_done.mp hrest
      cases hresult
  | ok found =>
      rw [hread] at hrest
      cases found with
      | none =>
          obtain ⟨rfl, _⟩ := ends_done.mp hrest
          exact Or.inl ⟨reply, rfl⟩
      | some config =>
          rw [afterReading, passOn] at hrest
          split at hrest
          · right
            rcases Dialogue.ends_bind.mp hrest with
              ⟨outcome, swept, after, rfl, hswept, hconclude⟩ | ⟨fault, hfault, _⟩
            · obtain ⟨status, _, hresult⟩ := ends_conclude hconclude
              cases outcome with
              | ok _ => exact ⟨reply, swept, after, rfl, hswept⟩
              | error failure =>
                  -- A failure stays one, however its recording went.
                  cases status with
                  | error fault => cases hresult
                  | ok status => cases status <;> cases hresult
            · cases hfault
          · obtain ⟨rfl, _⟩ := ends_done.mp hrest
            exact Or.inl ⟨reply, rfl⟩

/-! ## Passes and others -/

/-- An edit between turns that keeps what it leaves under its name, with its annotation. -/
theorem editsAside_of_turns {config : Option Value} {definitions : List Value}
    (hearlier : ∀ action ∈ earlier, ∃ i passage, action = .turn i passage)
    (hlater : ∀ action ∈ later, ∃ i passage, action = .turn i passage)
    (hfiled : Filed definitions)
    (hkept : ∀ w ∈ definitions, ∃ v ∈ definitionsAfter p server passes earlier,
      name? v = name? w ∧ v.at? Definition.annotationPath = w.at? Definition.annotationPath) :
    EditsAside p server passes (earlier ++ .edit config definitions :: later) := by
  intro before config' definitions' after heq
  rcases List.append_eq_append_iff.mp heq with ⟨more, hbefore, hmore⟩ | ⟨more, hbefore, hmore⟩
  · cases more with
    | nil =>
        rw [List.append_nil] at hbefore
        cases hmore
        subst hbefore
        exact ⟨hfiled, fun w hw => Or.inl (hkept w hw)⟩
    | cons action more =>
        obtain ⟨_, rfl⟩ := List.cons.inj hmore
        obtain ⟨_, _, hturn⟩ := hlater (.edit config' definitions') (by simp)
        cases hturn
  · cases more with
    | nil =>
        rw [List.append_nil] at hbefore
        cases hmore
        subst hbefore
        exact ⟨hfiled, fun w hw => Or.inl (hkept w hw)⟩
    | cons action more =>
        obtain ⟨rfl, _⟩ := List.cons.inj hmore
        subst hbefore
        obtain ⟨_, _, hturn⟩ := hearlier (.edit config' definitions') (by simp)
        cases hturn

/-- **Passes do not disturb each other or anybody else.** Whatever the order of their requests, and
whatever others do beside the annotation: each turn of a pass leaves the definitions as they are, or
it is a patch, by which one definition as it is stored then gains the annotation, and nothing else
changes; a definition that is annotated once is annotated as long as it is there; and when a pass
has brought all definitions in line, each one that it listed is annotated if it is still there. -/
theorem passes_side_by_side (hfiled : Filed server.definitions)
    (haside : EditsAside p server passes schedule) :
    (∀ earlier i passage later, schedule = earlier ++ .turn i passage :: later →
      definitionsAfter p server passes (earlier ++ [.turn i passage]) =
          definitionsAfter p server passes earlier ∨
        ∃ request next, (passSystem p server passes earlier).sessions[i]? =
            some (.ask request next) ∧
          request.method = .patch ∧ request.body = some Injection.patchBody ∧
          PatchesOne request (passSystem p server passes earlier).server
            (passSystem p server passes (earlier ++ [.turn i passage])).server) ∧
      (∀ earlier later, schedule = earlier ++ later →
        ∀ v ∈ definitionsAfter p server passes earlier, annotated v = true →
          ∀ w ∈ definitionsAfter p server passes schedule, name? v = name? w →
            annotated w = true) ∧
      ∀ i r before swept after, passes[i]? = some r → r.target.concernsAll = true →
        passHistory p server passes i schedule = before ++ (swept ++ after) →
        Ends (synchronize r.target) swept (.ok (.ok ())) →
          ∃ reply ds rest,
            swept = .asked (.list Definition.path Definition.selectorQuery) reply :: rest ∧
            reply.receive (listReader Definition.reader) = .ok ds ∧
            ∀ d ∈ ds, ∀ w ∈ definitionsAfter p server passes schedule, name? w = some d.name →
              annotated w = true := by
  refine ⟨?_, ?_, ?_⟩
  · rintro earlier i passage later rfl
    have hfiledThen := filed_after hfiled haside.of_append
    rcases server_turn p server passes earlier i passage with
      hsame | ⟨request, next, v, hsession, hmethod, hbody, hfound, hafter⟩
    · exact Or.inl hsame
    · obtain ⟨front, back, hsplit, haddress, hchange⟩ :=
        exists_change hfiledThen.distinct hfound Injection.patchBody
      exact Or.inr ⟨request, next, hsession, hmethod, hbody, front, v, back, _, hsplit,
        hafter.trans hchange, haddress, Definition.gainsAnnotation_patched v⟩
  · rintro earlier later rfl v hv hannotated
    exact annotated_stays hfiled haside hv hannotated
  · intro i r before swept after _ hall hhistory hends
    obtain ⟨_, hresult, hsynchronizes⟩ := gives_synchronize r.target hends
    cases hresult
    generalize houtcome : Except.ok () = outcome at hsynchronizes
    cases hsynchronizes with
    | named hnot h =>
        rw [hall] at hnot
        cases hnot
    | @all result _ h =>
        cases result with
        | error e => cases houtcome
        | ok patched => exact annotated_of_sweep hfiled haside hhistory h

/-- A server with two definitions that lack the annotation and one that has it. -/
def mixedDefinitions : ApiServer where
  config := some (.object [("metadata", .object [("name", .string "cluster")]),
    ("spec", .object [("injectAnnotations", .bool true)])])
  definitions := [bareDefinition "a.example", bareDefinition "b.example",
    (bareDefinition "c.example").mergePatch Injection.patchBody]

/-- One pass on all definitions, and one on the second of them. -/
def twoPasses : List Pass := [⟨{}, "2024-05-01T10:00:00Z", .all⟩, .onName "b.example"]

/-- Someone leaves a note on the first definition and deletes the third one. -/
def noteAndDelete : Action :=
  .edit mixedDefinitions.config [(bareDefinition "a.example").mergePatch
      (.object [("metadata", .object [("annotations", .object [("note", .string "x")])])]),
    (bareDefinition "b.example").mergePatch Injection.patchBody]

/-- All definitions are listed; the second one is patched by the pass on it; others write; and the
first pass patches the two definitions that lacked the annotation when they were listed. -/
def staleSweep : List Action :=
  (List.replicate 2 (.turn 0 .clear) ++ List.replicate 3 (.turn 1 .clear)) ++
    noteAndDelete :: List.replicate 4 (.turn 0 .clear)

theorem editsAside_staleSweep :
    EditsAside (.counting fun _ => none) mixedDefinitions twoPasses staleSweep := by
  have hbefore : definitionsAfter (.counting fun _ => none) mixedDefinitions twoPasses
      (List.replicate 2 (.turn 0 .clear) ++ List.replicate 3 (.turn 1 .clear)) =
        [bareDefinition "a.example", (bareDefinition "b.example").mergePatch Injection.patchBody,
          (bareDefinition "c.example").mergePatch Injection.patchBody] := by
    rfl
  refine editsAside_of_turns ?_ ?_ ⟨?_, by decide⟩ ?_
  · intro action hmem
    rcases List.mem_append.mp hmem with hmem | hmem
    · exact ⟨0, .clear, List.eq_of_mem_replicate hmem⟩
    · exact ⟨1, .clear, List.eq_of_mem_replicate hmem⟩
  · intro action hmem
    exact ⟨0, .clear, List.eq_of_mem_replicate hmem⟩
  · intro w hw
    rcases List.mem_pair.mp hw with rfl | rfl
    · exact ⟨"a.example", rfl, by decide⟩
    · exact ⟨"b.example", rfl, by decide⟩
  · intro w hw
    rw [hbefore]
    rcases List.mem_pair.mp hw with rfl | rfl
    · exact ⟨_, List.mem_cons_self, rfl, rfl⟩
    · exact ⟨_, List.mem_cons_of_mem _ List.mem_cons_self, rfl, rfl⟩

/-- The first pass succeeds. What it listed is annotated where it is still there, the first
definition besides the note. -/
theorem note_stays_beside_annotation :
    Filed mixedDefinitions.definitions ∧
      EditsAside (.counting fun _ => none) mixedDefinitions twoPasses staleSweep ∧
      (definitionsAfter (.counting fun _ => none) mixedDefinitions twoPasses staleSweep).map
          (fun v => (name? v, annotated v, hasEntryAt v "annotations" ("note", "x"))) =
        [(some "a.example", true, true), (some "b.example", true, false)] ∧
      ∃ reply ds, .asked (.list Definition.path Definition.selectorQuery) reply ∈
          passHistory (.counting fun _ => none) mixedDefinitions twoPasses 0 staleSweep ∧
        reply.receive (listReader Definition.reader) = .ok ds ∧
        ∀ d ∈ ds, ∀ w ∈ definitionsAfter (.counting fun _ => none) mixedDefinitions twoPasses
          staleSweep, name? w = some d.name → annotated w = true := by
  have hfiled : Filed mixedDefinitions.definitions := by
    refine ⟨?_, by decide⟩
    intro v hv
    simp only [mixedDefinitions, List.mem_cons, List.not_mem_nil, or_false] at hv
    rcases hv with rfl | rfl | rfl <;> exact ⟨_, rfl, by decide⟩
  obtain ⟨hvalue, hlength, hdefinitions⟩ :
      (passSystem (.counting fun _ => none) mixedDefinitions twoPasses staleSweep).value? 0 =
          some (.ok ()) ∧
        (passHistory (.counting fun _ => none) mixedDefinitions twoPasses 0 staleSweep).length =
          6 ∧
        (definitionsAfter (.counting fun _ => none) mixedDefinitions twoPasses staleSweep).map
            (fun v => (name? v, annotated v, hasEntryAt v "annotations" ("note", "x"))) =
          [(some "a.example", true, true), (some "b.example", true, false)] := by
    decide +kernel
  obtain ⟨_, _, hswept⟩ := passes_side_by_side hfiled editsAside_staleSweep
  refine ⟨hfiled, editsAside_staleSweep, hdefinitions, ?_⟩
  have hpass : twoPasses[0]? = some ⟨{}, "2024-05-01T10:00:00Z", .all⟩ := rfl
  rcases synchronized_of_success hpass hvalue with
    ⟨reply, hhistory⟩ | ⟨first, swept, after, hhistory, hends⟩
  · rw [hhistory] at hlength
    cases hlength
  · obtain ⟨reply, ds, rest, rfl, hread, hcarry⟩ :=
      hswept 0 _ [.asked firstRequest first] swept after hpass rfl hhistory hends
    refine ⟨reply, ds, ?_, hread, hcarry⟩
    rw [hhistory]
    exact List.mem_cons_of_mem _ (List.mem_append_left _ List.mem_cons_self)

end SecretsWarden.Reconcile
