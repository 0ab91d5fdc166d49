import SecretsWarden.Proofs.StatusRecord.Cycle
import SecretsWarden.Proofs.StatusRecord.Patch

/-!
# A status patch is a merge of conditions

What is read is a list of conditions, and what is sent is a merge patch, in which null would take a
member out and an array takes the place of the old one. Over the object that was read the patch
does to the conditions what merging the new one into the list does, and nothing to anything else.
-/

namespace SecretsWarden

open Cluster Dialogue Json Resource ApiServer

namespace StatusRecord

variable {members : List (String × Value)} {version : String} {conditions : List Condition}

/-! ## The patch -/

theorem nullFree_condition (c : Condition) : c.toJson.NullFree := by
  have hrequired : (Value.object
      [("type", .string c.type), ("status", .string c.status)]).NullFree := by
    refine .object (List.forall_mem_cons.mpr ⟨.string _, ?_⟩)
    exact List.forall_mem_singleton.mpr (.string _)
  unfold Condition.toJson
  refine Value.nullFree_append (Value.nullFree_append (Value.nullFree_append
    (Value.nullFree_append hrequired ?_) ?_) ?_) ?_
  · exact Value.nullFree_optionalMember .string _ _
  · exact Value.nullFree_optionalMember .string _ _
  · exact Value.nullFree_optionalMember (fun _ => .number _) _ _
  · exact Value.nullFree_optionalMember .string _ _

/-- A patch that carries a version takes nothing out. -/
theorem nullFree_patchBody (version : String) (hconditions : conditions ≠ []) :
    (patchBody (some version) conditions).NullFree := by
  rw [patchBody_eq _ hconditions]
  refine Value.nullFree_append ?_ ?_
  · exact Value.nullFree_along (.string version) ["metadata", "resourceVersion"]
  · refine Value.nullFree_along (.array ?_) ["status", "conditions"]
    intro v hv
    obtain ⟨c, _, rfl⟩ := List.mem_map.mp hv
    exact nullFree_condition c

/-- Over the version that it carries, the patch is one of the conditions alone. -/
theorem mergePatch_patchBody (hversion : version? (.object members) = some version)
    (hconditions : conditions ≠ []) :
    (Value.object members).mergePatch (patchBody (some version) conditions) =
      (Value.object members).mergePatch
        (.along ["status", "conditions"] (.array (conditions.map Condition.toJson))) := by
  obtain ⟨v, hat, hstring⟩ := Option.bind_eq_some_iff.mp hversion
  have hstands : (Value.object members).at? ["metadata", "resourceVersion"] =
      some (.string version) := by
    cases v <;> cases hstring
    exact hat
  rw [patchBody_eq _ hconditions, Value.mergePatch_append]
  exact congrArg (Value.mergePatch · _) (Value.mergePatch_along_self hstands)

/-! ## The requests of a try -/

section
variable {σ : Type} {answer : Answerer σ Request Reply} {clock : Nat} {state : σ} {name : String}
  {condition : Condition} {config : SecretsConfig}

/-- The request that reads the object of that name. -/
def reading (name : String) : Request := ⟨.get, SecretsConfig.path ++ "/" ++ name, none, none⟩

/-- The request that patches the status of the object of that name. -/
def patchingStatus (name : String) (body : Value) : Request :=
  ⟨.patch, SecretsConfig.path ++ "/" ++ name ++ "/status",
    some ("&fieldManager=" ++ fieldManager), some body⟩

theorem read_eq_reading (hname : IsObjectName name) :
    Request.read SecretsConfig.path name = .ok (reading name) :=
  read_eq (by decide) (by decide) hname

theorem writing_eq (hname : IsObjectName name) (config : SecretsConfig)
    (conditions : List Condition) :
    writing name config conditions =
      .ok (patchingStatus name (patchBody config.metadata.resourceVersion conditions)) := by
  have hrest : "/status?&fieldManager=" ++ fieldManager =
      "/status" ++ "?" ++ ("&fieldManager=" ++ fieldManager) := by decide
  unfold writing
  rw [hrest, named_below_eq (by decide) (by decide) hname (by decide) (by decide) (by decide)
    (by decide)]
  rfl

variable (answer clock state condition) in
/-- A try begins with the reading. -/
theorem course_update (hname : IsObjectName name) :
    ∃ rest, (update name condition).course answer clock state =
      .asked (reading name) (answer clock state (reading name)).1 :: rest := by
  rw [update, Cluster.get, read_eq_reading hname]
  exact ⟨_, rfl⟩

/-- What a try sends after its reading: a patch if merging makes a difference. -/
theorem exchanges_update (hname : IsObjectName name)
    (hanswer : (answer clock state (reading name)).1.receive SecretsConfig.reader = .ok config) :
    ∃ writes, exchanges ((update name condition).course answer clock state) =
        (reading name, (answer clock state (reading name)).1) :: writes ∧
      (condition.merge? config.conditions = none ∧ writes = [] ∨
        ∃ conditions reply, condition.merge? config.conditions = some conditions ∧
          writes = [(patchingStatus name (patchBody config.metadata.resourceVersion conditions),
            reply)]) := by
  obtain ⟨result, _, hcycle⟩ := gives_update (ends_run answer (update name condition) clock state)
  obtain ⟨rest, hcourse⟩ := course_update answer clock state condition hname
  rw [hcourse] at hcycle ⊢
  refine ⟨exchanges rest, rfl, ?_⟩
  generalize (answer clock state (reading name)).1 = reply at hanswer hcycle
  generalize hwhole : Event.asked (reading name) reply :: rest = whole at hcycle
  cases hcycle with
  | unread h =>
      obtain ⟨reply', rfl, he⟩ := h.of_built (read_eq_reading hname)
      cases hwhole
      cases he.trans hanswer
  | settled h hmerge =>
      obtain ⟨reply', rfl, hlatest⟩ := h.of_built (read_eq_reading hname)
      cases hwhole
      cases hlatest.trans hanswer
      exact Or.inl ⟨hmerge, rfl⟩
  | written h hmerge hwrite =>
      obtain ⟨reply', rfl, hlatest⟩ := h.of_built (read_eq_reading hname)
      obtain ⟨answered, rfl, _⟩ := hwrite.of_built (writing_eq hname _ _)
      cases hwhole
      cases hlatest.trans hanswer
      exact Or.inr ⟨_, answered, hmerge, rfl⟩

/-- **The status patch refines the merge of conditions.** A try that reads the stored object sends
one patch if the merge reports a change, and none otherwise. The patch has no null in it and always
has the array of conditions. Over the stored object it gives an object that reads as that one with
the merged conditions, and in which everything apart from them stands as it was, the metadata with
its version and the other members of the status included. -/
theorem patch_refines_merge (answer : Answerer σ Request Reply) (clock : Nat) (state : σ)
    (condition : Condition) (hname : IsObjectName name)
    (hconfig : SecretsConfig.ofJson? (.object members) = some config)
    (hversion : version? (.object members) = some version)
    (hanswer : (answer clock state (reading name)).1.receive SecretsConfig.reader = .ok config) :
    ∃ writes, exchanges ((update name condition).course answer clock state) =
        (reading name, (answer clock state (reading name)).1) :: writes ∧
      writes.length ≤ 1 ∧ (writes ≠ [] ↔ condition.merge? config.conditions ≠ none) ∧
      ∀ x ∈ writes, ∃ body items after, x.1 = patchingStatus name body ∧ body.NullFree ∧
        body.at? ["status", "conditions"] = some (.array items) ∧ items ≠ [] ∧
        (Value.object members).mergePatch body = .object after ∧
        SecretsConfig.ofJson? (.object after) =
          some { config with status := some ⟨condition.merge config.conditions⟩ } ∧
        ∀ path, Value.Apart path ["status", "conditions"] →
          (Value.object after).at? path = (Value.object members).at? path := by
  obtain ⟨writes, hsent, h⟩ := exchanges_update hname hanswer
  refine ⟨writes, hsent, ?_⟩
  rcases h with ⟨hmerge, rfl⟩ | ⟨conditions, reply, hmerge, rfl⟩
  · refine ⟨Nat.zero_le _, ?_, List.forall_mem_nil _⟩
    rw [hmerge]
    exact ⟨fun h => absurd rfl h, fun h => absurd rfl h⟩
  · have hne := Condition.ne_nil_of_merge? hmerge
    obtain ⟨_, hread⟩ := resourceVersion_of_version? hversion hconfig
    have hmerged : condition.merge config.conditions = conditions := by
      rw [Condition.merge, hmerge, Option.getD_some]
    rw [hread, hmerge, hmerged]
    refine ⟨le_rfl, ?_, ?_⟩
    · exact ⟨fun _ => Option.some_ne_none _, fun _ => List.cons_ne_nil _ _⟩
    · intro x hx
      rw [List.mem_singleton.mp hx]
      obtain ⟨after, hafter⟩ : ∃ after, (Value.object members).mergePatch
          (patchBody (some version) conditions) = .object after :=
        ⟨_, Value.mergePatch_object _ _⟩
      refine ⟨_, conditions.map Condition.toJson, after, rfl, nullFree_patchBody version hne, ?_,
        mt List.map_eq_nil_iff.mp hne, hafter, ?_, ?_⟩
      · rw [patchBody_eq _ hne]
        rfl
      · rw [← hafter, mergePatch_patchBody hversion hne]
        exact ofJson?_mergePatch_status hconfig conditions
      · intro path hpath
        rw [← hafter, mergePatch_patchBody hversion hne]
        exact Value.at?_mergePatch (Value.touches_along hpath _) _

end

/-- A stored object whose status has members that are not known here, one of them null. -/
def withUnknownMembers : List (String × Value) :=
  [("metadata", .object [("name", .string "cluster"), ("resourceVersion", .string "7")]),
    ("spec", .object []),
    ("status", .object [("phase", .string "Ready"), ("note", .null),
      ("conditions", .array [.object [("type", .string "Ready"), ("status", .string "True")]])])]

/-- Another condition is added, and the members that are not known stay. -/
theorem unknown_members_stay :
    ∃ body answered after,
      exchanges ((update "cluster" { type := "UpdateAnnotation", status := "True" }).course
        (fun _ (_ : Unit) _ => (.answered 200 (.json (.object withUnknownMembers)), ())) 0 ()) =
        [(reading "cluster", .answered 200 (.json (.object withUnknownMembers))),
          (patchingStatus "cluster" body, answered)] ∧
      (Value.object withUnknownMembers).mergePatch body = .object after ∧
      (Value.object after).at? ["status", "phase"] = some (.string "Ready") ∧
      (Value.object after).at? ["status", "note"] = some .null := by
  have hconfig : SecretsConfig.ofJson? (.object withUnknownMembers) = some {
      metadata := { name := some "cluster", resourceVersion := some "7" }
      spec := {}
      status := some ⟨[{ type := "Ready", status := "True" }]⟩ } := rfl
  have hname : IsObjectName "cluster" := by decide
  obtain ⟨writes, hsent, hlength, hwrites, h⟩ := patch_refines_merge
    (fun _ (_ : Unit) _ => (.answered 200 (.json (.object withUnknownMembers)), ())) 0 ()
    { type := "UpdateAnnotation", status := "True" } hname hconfig rfl
    (receive_of_ofJson? hconfig)
  have hne : writes ≠ [] := hwrites.mpr (by decide)
  obtain ⟨x, rfl⟩ : ∃ x, writes = [x] :=
    List.length_eq_one_iff.mp (le_antisymm hlength (List.length_pos_iff.mpr hne))
  obtain ⟨body, _, after, hx, _, _, _, hafter, _, hkept⟩ := h x List.mem_cons_self
  refine ⟨body, x.2, after, ?_, hafter, ?_, ?_⟩
  · rw [hsent, ← hx]
  · rw [hkept _ (by decide)]
    rfl
  · rw [hkept _ (by decide)]
    rfl

end StatusRecord

end SecretsWarden
