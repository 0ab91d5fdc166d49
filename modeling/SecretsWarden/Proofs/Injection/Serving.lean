import Mathlib.Data.List.Nodup
import SecretsWarden.Proofs.Cluster.Serving

/-!
# Annotating definitions of a reference server

Undisturbed, a sweep annotates what lacks the annotation up to the first definition whose change
the server refuses, and leaves every other definition as it is.
-/

namespace SecretsWarden.Injection

open Cluster Dialogue Json Resource ApiServer

variable {p : Policy} {s : ApiServer} {v : Value} {name : String} {names : List String}

/-! ## Annotating by name -/

/-- A definition, annotated if it has one of the names. -/
def annotating (names : List String) (v : Value) : Value :=
  if (name? v).any (names.contains ·) then v.mergePatch patchBody else v

/-- The server after the definitions of some names were annotated. -/
def annotatingAll (names : List String) (s : ApiServer) : ApiServer :=
  { s with definitions := s.definitions.map (annotating names) }

theorem annotating_of_mem (hname : name? v = some name) (h : name ∈ names) :
    annotating names v = v.mergePatch patchBody := by
  simp [annotating, hname, h]

theorem annotating_of_not_mem (h : ∀ name, name? v = some name → name ∉ names) :
    annotating names v = v := by
  unfold annotating
  cases hname : name? v with
  | none => rfl
  | some name => simp [h name hname]

@[simp] theorem name?_annotating (names : List String) (v : Value) :
    name? (annotating names v) = name? v := by
  unfold annotating
  split
  · exact Definition.name?_patched v
  · rfl

@[simp] theorem labelled_annotating (names : List String) (v : Value) :
    labelled (annotating names v) = labelled v := by
  unfold annotating
  split
  · exact Definition.labelled_patched v
  · rfl

theorem annotated_annotating (names : List String) (v : Value) :
    annotated (annotating names v) = true ↔
      annotated v = true ∨ ∃ name ∈ names, name? v = some name := by
  by_cases h : ∃ name ∈ names, name? v = some name
  · obtain ⟨name, hmem, hname⟩ := h
    rw [annotating_of_mem hname hmem, Definition.annotated_patched]
    exact ⟨fun _ => Or.inr ⟨name, hmem, hname⟩, fun _ => rfl⟩
  · rw [annotating_of_not_mem fun name hname hmem => h ⟨name, hmem, hname⟩, or_iff_left h]

/-- Annotating leaves everything but the annotation as it is. -/
theorem at?_annotating {path : List String} (h : Value.Apart path Definition.annotationPath)
    (names : List String) (v : Value) : (annotating names v).at? path = v.at? path := by
  unfold annotating
  split
  · exact Definition.at?_patched_of_apart h v
  · rfl

theorem annotating_nil (v : Value) : annotating [] v = v :=
  annotating_of_not_mem fun _ _ => List.not_mem_nil

theorem annotatingAll_nil (s : ApiServer) : annotatingAll [] s = s := by
  have hmap : s.definitions.map (annotating []) = s.definitions := by
    rw [List.map_congr_left fun v _ => annotating_nil v, List.map_id']
  rw [annotatingAll, hmap]

/-- Annotating one name and then others is annotating all of them, if that one is not among the
others. -/
theorem annotatingAll_cons (h : name ∉ names) (s : ApiServer) :
    annotatingAll names (annotatingAll [name] s) = annotatingAll (name :: names) s := by
  have hcompose : ∀ v, annotating names (annotating [name] v) = annotating (name :: names) v := by
    intro v
    by_cases hname : name? v = some name
    · rw [annotating_of_mem hname List.mem_cons_self, annotating_of_mem hname List.mem_cons_self,
        annotating_of_not_mem]
      intro name' hname'
      rw [Definition.name?_patched, hname] at hname'
      cases hname'
      exact h
    · have hsame : annotating [name] v = v := by
        refine annotating_of_not_mem fun name' hname' hmem => hname ?_
        rw [hname', List.mem_singleton.mp hmem]
      rw [hsame]
      unfold annotating
      cases hv : name? v with
      | none => rfl
      | some name' =>
          have hne : name' ≠ name := fun heq => hname (heq ▸ hv)
          simp [hne]
  simp only [annotatingAll, List.map_map]
  congr 1
  exact List.map_congr_left fun v _ => hcompose v

theorem filed_annotatingAll (h : Filed s.definitions) (names : List String) :
    Filed (annotatingAll names s).definitions where
  named v hv := by
    obtain ⟨w, hw, rfl⟩ := List.mem_map.mp hv
    rw [name?_annotating]
    exact h.named w hw
  distinct := by
    have hnames : name? ∘ annotating names = name? := funext (name?_annotating names)
    rw [annotatingAll, List.map_map, hnames]
    exact h.distinct

/-- A definition with a name still reads after it was annotated, if it did before. -/
theorem exists_ofJson?_annotating {d : Definition} (h : Definition.ofJson? v = some d)
    (hname : name? v = some name) (names : List String) :
    ∃ d', Definition.ofJson? (annotating names v) = some d' := by
  unfold annotating
  split
  · exact Definition.exists_ofJson?_patched h hname
  · exact ⟨d, h⟩

/-! ## One definition -/

variable {d : Definition} {clock : Nat}

theorem patching_eq (hname : d.name = name) (hvalid : IsObjectName name) :
    patching d =
      .ok ⟨.patch, addressOf name, some ("&fieldManager=" ++ fieldManager), some patchBody⟩ := by
  have hquery : "?&fieldManager=" ++ fieldManager = "?" ++ ("&fieldManager=" ++ fieldManager) := rfl
  rw [patching, hname, hquery]
  exact named_query_eq (by decide) (by decide) hvalid (by decide) (by decide) _ _

theorem change_eq (s : ApiServer) (name : String) :
    s.change (addressOf name) patchBody = annotatingAll [name] s := by
  unfold change annotatingAll
  congr 1
  refine List.map_congr_left fun v _ => ?_
  by_cases hname : name? v = some name
  · rw [if_pos (address?_eq_iff.mpr hname), annotating_of_mem hname List.mem_cons_self]
  · rw [if_neg fun h => hname (address?_eq_iff.mp h), annotating_of_not_mem]
    intro name' hname' hmem
    exact hname (List.mem_singleton.mp hmem ▸ hname')

/-- What one definition's patch comes to. -/
theorem run_annotate (hname : d.name = name) (hvalid : IsObjectName name)
    (hbare : d.isAnnotated = false) :
    (annotate d).run (serve p) clock s =
      ⟨.ok (match (s.patchDefinition p (addressOf name) patchBody).1.receive Definition.reader with
        | .ok _ => .ok true
        | .error e => .error (.patchDefinition name e)),
        clock, (s.patchDefinition p (addressOf name) patchBody).2⟩ := by
  have hpatching := patching_eq hname hvalid
  unfold patching at hpatching
  rw [annotate, if_neg (by simp [hbare]), Cluster.patch, hpatching, sendBuilt, send, Dialogue.bind,
    run_serve, answer_patch, hname]
  generalize s.patchDefinition p (addressOf name) patchBody = answer
  obtain ⟨reply, after⟩ := answer
  simp only [Dialogue.bind]
  cases reply.receive Definition.reader <;> rfl

/-- A definition is annotated if the server lets it. -/
theorem run_annotate_granted (hd : Definition.ofJson? v = some d) (hname : name? v = some name)
    (hvalid : IsObjectName name) (hfound : s.definition? (addressOf name) = some v)
    (hbare : annotated v = false) (hgranted : p.refusal (addressOf name) = none) :
    (annotate d).run (serve p) clock s = ⟨.ok (.ok true), clock, annotatingAll [name] s⟩ := by
  obtain ⟨d', hd'⟩ := Definition.exists_ofJson?_patched hd hname
  have hread : (found? (some (v.mergePatch patchBody))).receive Definition.reader = .ok d' :=
    receive_of_ofJson? hd'
  rw [run_annotate (Definition.name_eq hd hname) hvalid
    ((Definition.isAnnotated_eq hd).trans hbare)]
  simp only [patchDefinition, hfound, hgranted, hread, change_eq]

/-- Nothing changes if the server refuses. -/
theorem run_annotate_refused (hd : Definition.ofJson? v = some d) (hname : name? v = some name)
    (hvalid : IsObjectName name) (hfound : s.definition? (addressOf name) = some v)
    (hbare : annotated v = false) {refusal : { reply : Reply // reply.isRefusal = true }}
    (hrefused : p.refusal (addressOf name) = some refusal) :
    ∃ e, refusal.1.receive Definition.reader = .error e ∧
      (annotate d).run (serve p) clock s = ⟨.ok (.error (.patchDefinition name e)), clock, s⟩ := by
  obtain ⟨e, he⟩ := receive_refusal Definition.reader refusal.2
  refine ⟨e, he, ?_⟩
  rw [run_annotate (Definition.name_eq hd hname) hvalid
    ((Definition.isAnnotated_eq hd).trans hbare)]
  simp only [patchDefinition, hfound, hrefused, he]

theorem run_annotate_already (hd : Definition.ofJson? v = some d)
    (hannotated : annotated v = true) :
    (annotate d).run (serve p) clock s = ⟨.ok (.ok false), clock, s⟩ := by
  rw [annotate, if_pos ((Definition.isAnnotated_eq hd).trans hannotated), Dialogue.run]

/-! ## A sweep -/

/-- Which names a sweep annotates, and with which result: those of the definitions without the
annotation, up to the first one that the server refuses to change. -/
inductive Swept (p : Policy) : List Value → List String → Except Failure Nat → Prop where
  | done : Swept p [] [] (.ok 0)
  | already {v : Value} {rest : List Value} {names : List String} {result : Except Failure Nat}
      (hannotated : annotated v = true) (hrest : Swept p rest names result) :
      Swept p (v :: rest) names result
  | granted {v : Value} {rest : List Value} {name : String} {names : List String}
      {result : Except Failure Nat} (hbare : annotated v = false) (hname : name? v = some name)
      (hgranted : p.refusal (addressOf name) = none) (hrest : Swept p rest names result) :
      Swept p (v :: rest) (name :: names) (result.map (1 + ·))
  | refused {v : Value} {rest : List Value} {name : String}
      {refusal : { reply : Reply // reply.isRefusal = true }} {e : Error}
      (hbare : annotated v = false) (hname : name? v = some name)
      (hrefused : p.refusal (addressOf name) = some refusal)
      (he : refusal.1.receive Definition.reader = .error e) :
      Swept p (v :: rest) [] (.error (.patchDefinition name e))

theorem Swept.exists_of_mem {definitions : List Value} {result : Except Failure Nat}
    (h : Swept p definitions names result) (hmem : name ∈ names) :
    ∃ v ∈ definitions, name? v = some name ∧ annotated v = false := by
  induction h with
  | done => cases hmem
  | already hannotated hrest ih =>
      obtain ⟨v, hv, h⟩ := ih hmem
      exact ⟨v, List.mem_cons_of_mem _ hv, h⟩
  | refused => cases hmem
  | granted hbare hname hgranted hrest ih =>
      rcases List.mem_cons.mp hmem with rfl | hmem
      · exact ⟨_, List.mem_cons_self, hname, hbare⟩
      · obtain ⟨v, hv, h⟩ := ih hmem
        exact ⟨v, List.mem_cons_of_mem _ hv, h⟩

/-- A sweep gets through some first definitions and stops, if at all, at one that lacks the
annotation and that the server refuses to change. -/
theorem Swept.split {definitions : List Value} {result : Except Failure Nat}
    (h : Swept p definitions names result) :
    ∃ earlier later, definitions = earlier ++ later ∧
      names.map some = (earlier.filter (!annotated ·)).map name? ∧
      (∀ v ∈ earlier, annotated v = true ∨
        ∃ name, name? v = some name ∧ p.refusal (addressOf name) = none) ∧
      ((∃ patched, result = .ok patched ∧ later = []) ∨
        ∃ v rest name refusal e, later = v :: rest ∧ annotated v = false ∧ name? v = some name ∧
          p.refusal (addressOf name) = some refusal ∧
          refusal.1.receive Definition.reader = .error e ∧
          result = .error (.patchDefinition name e)) := by
  induction h with
  | done => exact ⟨[], [], rfl, rfl, fun v hv => absurd hv List.not_mem_nil, Or.inl ⟨0, rfl, rfl⟩⟩
  | @refused v rest name refusal e hbare hname hrefused he =>
      exact ⟨[], v :: rest, rfl, rfl, fun v hv => absurd hv List.not_mem_nil,
        Or.inr ⟨v, rest, name, refusal, e, rfl, hbare, hname, hrefused, he, rfl⟩⟩
  | @already v rest names result hannotated hrest ih =>
      obtain ⟨earlier, later, rfl, hnames, hgranted, hend⟩ := ih
      refine ⟨v :: earlier, later, rfl, ?_, ?_, hend⟩
      · rw [List.filter_cons_of_neg (by simp [hannotated]), hnames]
      · intro w hw
        rcases List.mem_cons.mp hw with rfl | hw
        · exact Or.inl hannotated
        · exact hgranted w hw
  | @granted v rest name names result hbare hname hfree hrest ih =>
      obtain ⟨earlier, later, rfl, hnames, hgranted, hend⟩ := ih
      refine ⟨v :: earlier, later, rfl, ?_, ?_, ?_⟩
      · rw [List.filter_cons_of_pos (by simp [hbare]), List.map_cons, List.map_cons, hnames, hname]
      · intro w hw
        rcases List.mem_cons.mp hw with rfl | hw
        · exact Or.inr ⟨name, hname, hfree⟩
        · exact hgranted w hw
      · rcases hend with ⟨patched, rfl, rfl⟩ |
          ⟨w, rest, name', refusal, e, rfl, hw, hname', hr, he, rfl⟩
        · exact Or.inl ⟨_, rfl, rfl⟩
        · exact Or.inr ⟨w, rest, name', refusal, e, rfl, hw, hname', hr, he, rfl⟩

/-- There is one way only to sweep. -/
theorem Swept.unique {definitions : List Value} {names' : List String}
    {result result' : Except Failure Nat} (h : Swept p definitions names result)
    (h' : Swept p definitions names' result') : names = names' ∧ result = result' := by
  induction h generalizing names' result' with
  | done =>
      cases h'
      exact ⟨rfl, rfl⟩
  | already hannotated hrest ih =>
      cases h' with
      | already _ hrest' => exact ih hrest'
      | granted hbare => simp [hbare] at hannotated
      | refused hbare => simp [hbare] at hannotated
  | granted hbare hname hgranted hrest ih =>
      cases h' with
      | already hannotated => simp [hbare] at hannotated
      | granted _ hname' _ hrest' =>
          obtain ⟨rfl, rfl⟩ := ih hrest'
          rw [hname, Option.some.injEq] at hname'
          exact ⟨by rw [hname'], rfl⟩
      | refused _ hname' hrefused =>
          rw [hname, Option.some.injEq] at hname'
          rw [← hname', hgranted] at hrefused
          cases hrefused
  | refused hbare hname hrefused he =>
      cases h' with
      | already hannotated => simp [hbare] at hannotated
      | granted _ hname' hgranted =>
          rw [hname, Option.some.injEq] at hname'
          rw [← hname', hrefused] at hgranted
          cases hgranted
      | refused _ hname' hrefused' he' =>
          rw [hname, Option.some.injEq] at hname'
          rw [← hname', hrefused, Option.some.injEq] at hrefused'
          rw [← hrefused', he, Except.error.injEq] at he'
          exact ⟨rfl, by rw [hname', he']⟩

/-- A sweep over what was swept before annotates nothing, and it ends as the first one did. -/
theorem Swept.again {definitions : List Value} {result : Except Failure Nat}
    (h : Swept p definitions names result) (hdistinct : (definitions.map name?).Nodup)
    (more : List String) (hmore : ∀ v ∈ definitions, ∀ name ∈ more, name? v ≠ some name) :
    Swept p (definitions.map (annotating (more ++ names))) [] (result.map fun _ => 0) := by
  induction h generalizing more with
  | done => exact .done
  | @already v rest names result hannotated hrest ih =>
      rw [List.map_cons, List.nodup_cons] at hdistinct
      have hhead : annotated (annotating (more ++ names) v) = true :=
        (annotated_annotating _ v).mpr (Or.inl hannotated)
      exact .already hhead (ih hdistinct.2 more fun w hw => hmore w (List.mem_cons_of_mem _ hw))
  | @granted v rest name names result hbare hname hgranted hrest ih =>
      rw [List.map_cons, List.nodup_cons] at hdistinct
      have hhead : annotated (annotating (more ++ name :: names) v) = true :=
        (annotated_annotating _ v).mpr (Or.inr ⟨name, by simp, hname⟩)
      have hresult : ((result.map (1 + ·)).map fun _ => 0) = result.map fun _ => 0 := by
        cases result <;> rfl
      -- The name of the first definition is the name of no other, like those before.
      have hmore' : ∀ w ∈ rest, ∀ name' ∈ more ++ [name], name? w ≠ some name' := by
        intro w hw name' hname'
        rcases List.mem_append.mp hname' with hname' | hname'
        · exact hmore w (List.mem_cons_of_mem _ hw) name' hname'
        · intro hwname
          rw [List.mem_singleton.mp hname', ← hname] at hwname
          exact hdistinct.1 (hwname ▸ List.mem_map_of_mem hw)
      rw [hresult]
      refine .already hhead ?_
      have hrest' := ih hdistinct.2 (more ++ [name]) hmore'
      rwa [List.append_assoc, List.singleton_append] at hrest'
  | @refused v rest name refusal e hbare hname hrefused he =>
      have hhead : annotating (more ++ []) v = v := by
        refine annotating_of_not_mem fun name' hname' hmem => ?_
        rw [List.append_nil] at hmem
        exact hmore v List.mem_cons_self name' hmem hname'
      rw [List.map_cons, hhead]
      exact .refused hbare hname hrefused he

/-- A sweep that annotated nothing and did not fail had nothing to annotate. -/
theorem Swept.annotated_of_nil {definitions : List Value} {patched : Nat}
    (h : Swept p definitions [] (.ok patched)) : ∀ v ∈ definitions, annotated v = true := by
  obtain ⟨earlier, later, rfl, hnames, _, hend⟩ := h.split
  rcases hend with ⟨_, _, rfl⟩ | ⟨_, _, _, _, _, _, _, _, _, _, hfailed⟩
  · intro v hv
    rw [List.append_nil] at hv
    have hempty : earlier.filter (!annotated ·) = [] := List.map_eq_nil_iff.mp hnames.symm
    simpa using List.filter_eq_nil_iff.mp hempty v hv
  · cases hfailed

/-- The names that were annotated are those of the earlier definitions that lacked it. -/
theorem exists_name_mem_iff {definitions earlier : List Value}
    (hdistinct : (definitions.map name?).Nodup) (hearlier : ∀ v ∈ earlier, v ∈ definitions)
    (hnames : names.map some = (earlier.filter (!annotated ·)).map name?) (hv : v ∈ definitions) :
    (∃ name ∈ names, name? v = some name) ↔ v ∈ earlier ∧ annotated v = false := by
  constructor
  · rintro ⟨name, hname, hv'⟩
    have hsome : some name ∈ names.map some := List.mem_map_of_mem hname
    rw [hnames] at hsome
    obtain ⟨w, hw, hwname⟩ := List.mem_map.mp hsome
    obtain ⟨hmem, hbare⟩ := List.mem_filter.mp hw
    have hsame : v = w :=
      List.inj_on_of_nodup_map hdistinct hv (hearlier w hmem) (hv'.trans hwname.symm)
    subst hsame
    exact ⟨hmem, by simpa using hbare⟩
  · rintro ⟨hmem, hbare⟩
    have hsome : name? v ∈ names.map some := by
      rw [hnames]
      exact List.mem_map_of_mem (List.mem_filter.mpr ⟨hmem, by simpa using hbare⟩)
    obtain ⟨name, hname, hv'⟩ := List.mem_map.mp hsome
    exact ⟨name, hname, hv'.symm⟩

variable (clock) in
/-- A sweep over definitions of the server does what `Swept` says. -/
theorem run_annotateEach {definitions : List Value} {ds : List Definition} (patched : Nat)
    (hread : definitions.mapM Definition.ofJson? = some ds) (hfiled : Filed s.definitions)
    (hmem : ∀ v ∈ definitions, v ∈ s.definitions) (hdistinct : (definitions.map name?).Nodup) :
    ∃ names result, Swept p definitions names result ∧
      (annotateEach patched ds).run (serve p) clock s =
        ⟨.ok (result.map (patched + ·)), clock, annotatingAll names s⟩ := by
  induction definitions generalizing s ds patched with
  | nil =>
      cases hread
      refine ⟨[], .ok 0, .done, ?_⟩
      rw [annotatingAll_nil]
      rfl
  | cons v rest ih =>
      obtain ⟨name, hname, hvalid⟩ := hfiled.named v (hmem v List.mem_cons_self)
      rw [List.map_cons, List.nodup_cons] at hdistinct
      simp only [List.mapM_cons, Option.bind_eq_bind, Option.bind_eq_some_iff] at hread
      obtain ⟨d, hd, ds, hds, hcons⟩ := hread
      cases hcons
      have hfound := definition?_of_mem hfiled.distinct (hmem v List.mem_cons_self) hname
      have hrest : ∀ w ∈ rest, w ∈ s.definitions := fun w hw => hmem w (List.mem_cons_of_mem _ hw)
      by_cases hannotated : annotated v = true
      · obtain ⟨names, result, hswept, hrun⟩ := ih patched hds hfiled hrest hdistinct.2
        refine ⟨names, result, .already hannotated hswept, ?_⟩
        rw [annotateEach, run_bind, run_annotate_already hd hannotated]
        exact hrun
      · have hbare : annotated v = false := by simpa using hannotated
        cases hrefusal : p.refusal (addressOf name) with
        | some refusal =>
            obtain ⟨e, he, hrun⟩ := run_annotate_refused hd hname hvalid hfound hbare hrefusal
            refine ⟨[], _, .refused hbare hname hrefusal he, ?_⟩
            rw [annotateEach, run_bind, hrun, annotatingAll_nil]
            rfl
        | none =>
            -- The others are still as they were, as they have other names.
            have hkept : ∀ w ∈ rest, w ∈ (annotatingAll [name] s).definitions := by
              intro w hw
              refine List.mem_map.mpr ⟨w, hrest w hw, annotating_of_not_mem ?_⟩
              intro name' hname' hmem'
              rw [List.mem_singleton.mp hmem'] at hname'
              exact hdistinct.1 (hname.trans hname'.symm ▸ List.mem_map_of_mem hw)
            obtain ⟨names, result, hswept, hrun⟩ :=
              ih (patched + 1) hds (filed_annotatingAll hfiled [name]) hkept hdistinct.2
            -- No later definition has this name, so it is not annotated again.
            have hnew : name ∉ names := by
              intro hmem'
              obtain ⟨w, hw, hname', _⟩ := hswept.exists_of_mem hmem'
              exact hdistinct.1 (hname.trans hname'.symm ▸ List.mem_map_of_mem hw)
            refine ⟨name :: names, _, .granted hbare hname hrefusal hswept, ?_⟩
            rw [annotateEach, run_bind,
              run_annotate_granted hd hname hvalid hfound hbare hrefusal]
            simp only [hrun, annotatingAll_cons hnew]
            cases result <;> simp [Except.map, Nat.add_assoc]

variable (clock) in
/-- All managed definitions are swept, if all of them can be read. -/
theorem run_annotateAll {ds : List Definition} (hfiled : Filed s.definitions)
    (hds : (s.definitions.filter labelled).mapM Definition.ofJson? = some ds) :
    ∃ names result, Swept p (s.definitions.filter labelled) names result ∧
      annotateAll.run (serve p) clock s = ⟨.ok result, clock, annotatingAll names s⟩ := by
  have hmem : ∀ v ∈ s.definitions.filter labelled, v ∈ s.definitions := fun v hv =>
    (List.mem_filter.mp hv).1
  have hdistinct : ((s.definitions.filter labelled).map name?).Nodup :=
    List.Nodup.sublist (List.filter_sublist.map name?) hfiled.distinct
  obtain ⟨names, result, hswept, hrun⟩ := run_annotateEach clock 0 hds hfiled hmem hdistinct
  refine ⟨names, result, hswept, ?_⟩
  rw [annotateAll, Cluster.list, send, Dialogue.bind, run_serve, answer_list]
  simp only [Dialogue.bind, receive_list hds, hrun]
  cases result <;> simp [Except.map]

theorem run_annotateAll_unreadable
    (h : (s.definitions.filter labelled).mapM Definition.ofJson? = none) :
    annotateAll.run (serve p) clock s =
      ⟨.ok (.error (.listDefinitions Definition.selector
        (unfit (.object [("items", .array (s.definitions.filter labelled))])))), clock, s⟩ := by
  rw [annotateAll, Cluster.list, send, Dialogue.bind, run_serve, answer_list]
  simp only [Dialogue.bind, receive_list_unreadable h, Dialogue.run]

/-! ## One name -/

theorem filter_name? (hdistinct : (s.definitions.map name?).Nodup) (name : String) :
    s.definitions.filter (fun v => name? v = some name) =
      (s.definition? (addressOf name)).toList := by
  unfold definition?
  generalize s.definitions = definitions at hdistinct
  induction definitions with
  | nil => rfl
  | cons w rest ih =>
      rw [List.map_cons, List.nodup_cons] at hdistinct
      by_cases hw : name? w = some name
      · have hrest : rest.filter (fun v => name? v = some name) = [] := by
          refine List.filter_eq_nil_iff.mpr fun v hv hname => hdistinct.1 ?_
          rw [hw, ← of_decide_eq_true hname]
          exact List.mem_map_of_mem hv
        rw [List.filter_cons_of_pos (by simpa using hw), hrest,
          List.find?_cons_of_pos (by simpa using address?_eq_iff.mpr hw)]
        rfl
      · rw [List.filter_cons_of_neg (by simpa using hw), ih hdistinct.2,
          List.find?_cons_of_neg (by simpa using fun h => hw (address?_eq_iff.mp h))]

theorem read_definition (hvalid : IsObjectName name) :
    Request.read Definition.path name = .ok ⟨.get, addressOf name, none, none⟩ :=
  read_eq (by decide) (by decide) hvalid

/-- Fetching a definition gives what is stored under its name, if that can be read. -/
theorem run_fetch (hvalid : IsObjectName name) :
    (fetch name).run (serve p) clock s =
      ⟨.ok (match s.definition? (addressOf name) with
        | none => .ok none
        | some v =>
          match Definition.ofJson? v with
          | some d => .ok (some d)
          | none => .error (.readDefinition name (unfit v))), clock, s⟩ := by
  rw [fetch, getOptional, Cluster.get, read_definition hvalid, sendBuilt, send]
  simp only [Dialogue.bind, run_serve, answer_read]
  cases hfound : s.definition? (addressOf name) with
  | none => rfl
  | some v =>
      simp only [found?, receive_success]
      show Dialogue.run _ _ _ (.done _) = _
      cases hd : Definition.ofJson? v with
      | none =>
          have hread : Definition.reader.ofJson? v = none := hd
          rw [hread]
          rfl
      | some d =>
          have hread : Definition.reader.ofJson? v = some d := hd
          rw [hread]
          rfl

/-- One definition is swept. -/
theorem run_annotate_swept (hd : Definition.ofJson? v = some d) (hname : name? v = some name)
    (hvalid : IsObjectName name) (hfound : s.definition? (addressOf name) = some v) :
    ∃ names result, Swept p [v] names result ∧
      (annotate d).run (serve p) clock s =
        ⟨.ok (result.map (· = 1)), clock, annotatingAll names s⟩ := by
  by_cases hannotated : annotated v = true
  · refine ⟨[], .ok 0, .already hannotated .done, ?_⟩
    rw [annotatingAll_nil, run_annotate_already hd hannotated]
    rfl
  · have hbare : annotated v = false := by simpa using hannotated
    cases hrefusal : p.refusal (addressOf name) with
    | none =>
        refine ⟨[name], .ok 1, .granted hbare hname hrefusal .done, ?_⟩
        rw [run_annotate_granted hd hname hvalid hfound hbare hrefusal]
        rfl
    | some refusal =>
        obtain ⟨e, he, hrun⟩ := run_annotate_refused hd hname hvalid hfound hbare hrefusal
        refine ⟨[], _, .refused hbare hname hrefusal he, ?_⟩
        rw [hrun, annotatingAll_nil]
        rfl

variable (clock) in
/-- The definition of a name is swept, if there is one and it is managed. -/
theorem run_annotateNamed (hfiled : Filed s.definitions) (hvalid : IsObjectName name)
    (hreadable : ∀ v, s.definition? (addressOf name) = some v →
      ∃ d, Definition.ofJson? v = some d) :
    ∃ names result,
      Swept p ((s.definitions.filter fun v => name? v = some name).filter labelled) names result ∧
      (annotateNamed name).run (serve p) clock s =
        ⟨.ok (result.map fun _ => ()), clock, annotatingAll names s⟩ := by
  have hnothing : annotatingAll [] s = s := annotatingAll_nil s
  rw [filter_name? hfiled.distinct, annotateNamed, run_bind, run_fetch hvalid]
  cases hfound : s.definition? (addressOf name) with
  | none => exact ⟨[], .ok 0, .done, by rw [hnothing]; rfl⟩
  | some v =>
      obtain ⟨hmem, hname⟩ := mem_of_definition? hfound
      obtain ⟨d, hd⟩ := hreadable v hfound
      simp only [hd, Option.toList_some, Definition.isManaged_eq hd]
      by_cases hlabelled : labelled v = true
      · obtain ⟨names, result, hswept, hrun⟩ := run_annotate_swept hd hname hvalid hfound
        rw [if_pos hlabelled, List.filter_cons_of_pos hlabelled, run_bind, hrun]
        refine ⟨names, result, hswept, ?_⟩
        cases result <;> rfl
      · rw [if_neg hlabelled, List.filter_cons_of_neg hlabelled]
        exact ⟨[], .ok 0, .done, by rw [hnothing]; rfl⟩

theorem run_annotateNamed_unreadable (hvalid : IsObjectName name)
    (hfound : s.definition? (addressOf name) = some v) (hv : Definition.ofJson? v = none) :
    (annotateNamed name).run (serve p) clock s =
      ⟨.ok (.error (.readDefinition name (unfit v))), clock, s⟩ := by
  rw [annotateNamed, run_bind, run_fetch hvalid]
  simp only [hfound, hv, Dialogue.run]

end SecretsWarden.Injection
