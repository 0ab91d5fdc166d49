import SecretsWarden.Injection
import SecretsWarden.Proofs.Cluster.Exchange
import SecretsWarden.Proofs.Json.MergePatch

/-!
# Annotating definitions

What is asked while definitions are annotated, and with which result: one patch for each definition
without the annotation, in order, up to the first failure.
-/

namespace SecretsWarden.Injection

open Cluster Dialogue Json Resource

variable {d : Definition} {definitions : List Definition} {name : String}
  {c : Course Request Reply}

/-- The request that patches a definition. -/
def patching (d : Definition) : Except Error Request :=
  Request.named .patch Definition.path d.name ("?&fieldManager=" ++ fieldManager) (some patchBody)

/-- One definition is patched unless it has the annotation. -/
inductive Annotates (d : Definition) :
    Course Request Reply → Except Failure Bool → Prop where
  | already (h : d.isAnnotated = true) : Annotates d [] (.ok false)
  | sent {c : Course Request Reply} {result : Except Error Definition}
      (h : d.isAnnotated = false) (hsent : Exchanged Definition.reader (patching d) c result) :
      Annotates d c ((result.map fun _ => true).mapError (.patchDefinition d.name))

theorem gives_annotate (d : Definition) : (annotate d).Gives (Annotates d) := by
  unfold annotate
  by_cases hd : d.isAnnotated = true
  · rw [if_pos hd]
    exact gives_done (.already hd)
  · rw [if_neg hd]
    refine (gives_sendBuilt _ _).bind fun result c hsent => ?_
    have hannotates := Annotates.sent (Bool.not_eq_true _ ▸ hd) hsent
    cases result <;> exact gives_done_append hannotates

/-- What went well was a patch, or there was nothing to patch. -/
theorem Annotates.of_ok {patched : Bool} (h : Annotates d c (.ok patched)) :
    (d.isAnnotated = true ∧ c = [] ∧ patched = false) ∨
      (d.isAnnotated = false ∧ patched = true ∧
        ∃ d', Exchanged Definition.reader (patching d) c (.ok d')) := by
  generalize hanswer : Except.ok patched = answer at h
  cases h with
  | already hannotated =>
      cases hanswer
      exact Or.inl ⟨hannotated, rfl, rfl⟩
  | @sent _ read hannotated hsent =>
      cases read with
      | error e => cases hanswer
      | ok d' =>
          cases hanswer
          exact Or.inr ⟨hannotated, rfl, d', hsent⟩

theorem Annotates.of_error {failure : Failure} (h : Annotates d c (.error failure)) :
    d.isAnnotated = false ∧ ∃ e, failure = .patchDefinition d.name e ∧
      Exchanged Definition.reader (patching d) c (.error e) := by
  generalize hanswer : Except.error failure = answer at h
  cases h with
  | already hannotated => cases hanswer
  | @sent _ read hannotated hsent =>
      cases read with
      | ok d' => cases hanswer
      | error e =>
          cases hanswer
          exact ⟨hannotated, e, rfl, hsent⟩

/-! ## All listed definitions -/

/-- Definitions are annotated one after the other, up to the first failure. -/
inductive Sweeps : List Definition → Course Request Reply → Except Failure Nat → Prop where
  | done : Sweeps [] [] (.ok 0)
  | failed {d : Definition} {rest : List Definition} {c : Course Request Reply} {e : Failure}
      (h : Annotates d c (.error e)) : Sweeps (d :: rest) c (.error e)
  | went {d : Definition} {rest : List Definition} {c₁ c₂ : Course Request Reply}
      {patched : Bool} {result : Except Failure Nat} (h : Annotates d c₁ (.ok patched))
      (hrest : Sweeps rest c₂ result) :
      Sweeps (d :: rest) (c₁ ++ c₂) (result.map (patched.toNat + ·))

theorem map_zero_add (result : Except Failure Nat) : result.map (0 + ·) = result := by
  cases result with
  | error e => rfl
  | ok n => exact congrArg Except.ok (Nat.zero_add n)

theorem gives_annotateEach (patched : Nat) (definitions : List Definition) :
    (annotateEach patched definitions).Gives fun c total =>
      ∃ result, total = result.map (patched + ·) ∧ Sweeps definitions c result := by
  induction definitions generalizing patched with
  | nil => exact gives_done ⟨.ok 0, rfl, .done⟩
  | cons d rest ih =>
      refine (gives_annotate d).bind fun answer c hannotates => ?_
      match answer with
      | .error e =>
          refine gives_done ⟨.error e, rfl, ?_⟩
          rw [List.append_nil]
          exact .failed hannotates
      | .ok true =>
          refine (ih (patched + 1)).imp ?_
          rintro c' _ ⟨result, rfl, hrest⟩
          refine ⟨_, ?_, .went hannotates hrest⟩
          cases result <;> simp [Except.map, Nat.add_assoc]
      | .ok false =>
          refine (ih patched).imp ?_
          rintro c' _ ⟨result, rfl, hrest⟩
          refine ⟨_, ?_, .went hannotates hrest⟩
          cases result <;> simp [Except.map]

/-- After a sweep without a failure each definition had the annotation, or got it. -/
theorem Sweeps.settled {result : Except Failure Nat} {patched : Nat}
    (h : Sweeps definitions c result) (hresult : result = .ok patched) :
    ∀ d ∈ definitions, d.isAnnotated = true ∨
      ∃ request reply d', patching d = .ok request ∧ .asked request reply ∈ c ∧
        reply.receive Definition.reader = .ok d' := by
  induction h generalizing patched with
  | done => exact fun d hd => absurd hd List.not_mem_nil
  | failed h => cases hresult
  | @went first rest c₁ c₂ _ result hfirst hrest ih =>
      cases result with
      | error e => cases hresult
      | ok count =>
          intro d hd
          rcases List.mem_cons.mp hd with rfl | hd
          · rcases hfirst.of_ok with ⟨hannotated, _⟩ | ⟨_, _, d', hsent⟩
            · exact Or.inl hannotated
            · obtain ⟨request, reply, hbuilt, rfl, hreply⟩ := hsent.of_ok
              exact Or.inr ⟨request, reply, d', hbuilt, List.mem_cons_self, hreply⟩
          · rcases ih rfl d hd with hannotated | ⟨request, reply, d', hbuilt, hmem, hreply⟩
            · exact Or.inl hannotated
            · exact Or.inr ⟨request, reply, d', hbuilt, List.mem_append_right _ hmem, hreply⟩

/-- The managed definitions are listed, and if that went well, they are annotated. -/
inductive SweepsAll : Course Request Reply → Except Failure Nat → Prop where
  | unlisted {reply : Reply} {e : Error}
      (h : reply.receive (listReader Definition.reader) = .error e) :
      SweepsAll [.asked (.list Definition.path Definition.selectorQuery) reply]
        (.error (.listDefinitions Definition.selector e))
  | listed {reply : Reply} {definitions : List Definition} {c : Course Request Reply}
      {result : Except Failure Nat}
      (h : reply.receive (listReader Definition.reader) = .ok definitions)
      (hsweeps : Sweeps definitions c result) :
      SweepsAll (.asked (.list Definition.path Definition.selectorQuery) reply :: c) result

theorem gives_annotateAll : annotateAll.Gives SweepsAll := by
  refine (gives_list _ _ _).bind ?_
  rintro answer _ ⟨reply, rfl, rfl⟩
  cases hread : reply.receive (listReader Definition.reader) with
  | error e => exact gives_done_append (.unlisted hread)
  | ok definitions =>
      refine (gives_annotateEach 0 definitions).imp ?_
      rintro c _ ⟨result, rfl, hsweeps⟩
      rw [map_zero_add]
      exact .listed hread hsweeps

/-! ## One named definition -/

/-- A definition is read by its name, and annotated if it exists and is managed. -/
inductive AnnotatesNamed (name : String) :
    Course Request Reply → Except Failure Unit → Prop where
  | unread {c : Course Request Reply} {read : Except Error Definition} {e : Error}
      (h : Exchanged Definition.reader (Request.read Definition.path name) c read)
      (hread : absent? read = .error e) :
      AnnotatesNamed name c (.error (.readDefinition name e))
  | absent {c : Course Request Reply} {read : Except Error Definition}
      (h : Exchanged Definition.reader (Request.read Definition.path name) c read)
      (hread : absent? read = .ok none) : AnnotatesNamed name c (.ok ())
  | unmanaged {c : Course Request Reply} {d : Definition}
      (h : Exchanged Definition.reader (Request.read Definition.path name) c (.ok d))
      (hmanaged : d.isManaged = false) : AnnotatesNamed name c (.ok ())
  | managed {c₁ c₂ : Course Request Reply} {d : Definition} {result : Except Failure Bool}
      (h : Exchanged Definition.reader (Request.read Definition.path name) c₁ (.ok d))
      (hmanaged : d.isManaged = true) (hannotates : Annotates d c₂ result) :
      AnnotatesNamed name (c₁ ++ c₂) (result.map fun _ => ())

theorem gives_annotateNamed (name : String) :
    (annotateNamed name).Gives (AnnotatesNamed name) := by
  unfold annotateNamed fetch
  rw [Dialogue.bind_assoc]
  refine (gives_getOptional _ _ _).bind ?_
  rintro _ c ⟨read, rfl, hexchanged⟩
  cases hread : absent? read with
  | error e => exact gives_done_append (.unread hexchanged hread)
  | ok found =>
      cases found with
      | none => exact gives_done_append (.absent hexchanged hread)
      | some d =>
          have hd := absent?_eq_some hread
          subst hd
          show Gives (if d.isManaged then _ else _) _
          by_cases hmanaged : d.isManaged = true
          · rw [if_pos hmanaged]
            exact (gives_annotate d).map fun _ _ h => .managed hexchanged hmanaged h
          · rw [if_neg hmanaged]
            exact gives_done_append (.unmanaged hexchanged (Bool.not_eq_true _ ▸ hmanaged))

end SecretsWarden.Injection
