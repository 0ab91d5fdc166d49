import SecretsWarden.Proofs.Json.Path

/-!
# What a merge patch leaves alone

A merge patch is about the paths along which it has members, and whatever stands beside them is
as before (`at?_mergePatch`). This holds of any value and any patch: members of other names are
kept where there is an object, and where there is none nothing was beside the patched members.
-/

namespace SecretsWarden.Json

namespace Value

/-- Whether a patch has something to say about what stands at a path. -/
def touches (patch : Value) : List String → Bool
  | [] => true
  | name :: path =>
    match patch with
    | .object changes => changes.any fun (n, change) => n = name && change.touches path
    | _ => true

theorem mergePatch_object (v : Value) (changes : List (String × Value)) :
    v.mergePatch (.object changes) = .object (mergeMembers v.membersOrNone changes) := by
  rw [mergePatch]

theorem mergeMembers_null (members : List (String × Value)) (name : String)
    (rest : List (String × Value)) :
    mergeMembers members ((name, .null) :: rest) = mergeMembers (unbind name members) rest := by
  rw [mergeMembers]

theorem mergeMembers_cons (members : List (String × Value)) {change : Value} (name : String)
    (rest : List (String × Value)) (h : change ≠ .null) :
    mergeMembers members ((name, change) :: rest) =
      mergeMembers
        (bind name (mergePatch ((members.lookup name).getD .null) change) members) rest := by
  rw [mergeMembers]
  exact h

theorem mergeMembers_append (members changes more : List (String × Value)) :
    mergeMembers members (changes ++ more) = mergeMembers (mergeMembers members changes) more := by
  induction changes generalizing members with
  | nil => rw [List.nil_append, mergeMembers]
  | cons m rest ih =>
      obtain ⟨name, change⟩ := m
      by_cases h : change = .null
      · subst h
        rw [List.cons_append, mergeMembers_null, mergeMembers_null, ih]
      · rw [List.cons_append, mergeMembers_cons _ _ _ h, mergeMembers_cons _ _ _ h, ih]

/-- A patch of two parts is two patches, one after the other. -/
theorem mergePatch_append (v : Value) (changes more : List (String × Value)) :
    v.mergePatch (.object (changes ++ more)) =
      (v.mergePatch (.object changes)).mergePatch (.object more) := by
  rw [mergePatch_object, mergePatch_object, mergePatch_object, mergeMembers_append]
  rfl

/-- A patch of one member binds that member. -/
theorem mergePatch_singleton (v : Value) (name : String) {change : Value} (h : change ≠ .null) :
    v.mergePatch (.object [(name, change)]) =
      .object (bind name (mergePatch ((v.membersOrNone.lookup name).getD .null) change)
        v.membersOrNone) := by
  rw [mergePatch_object, mergeMembers_cons _ _ _ h, mergeMembers]

theorem get?_eq_lookup (v : Value) (name : String) : v.get? name = v.membersOrNone.lookup name := by
  cases v <;> rfl

theorem at?_null {path : List String} (h : path ≠ []) : null.at? path = none := by
  cases path with
  | nil => exact absurd rfl h
  | cons name path => rfl

theorem touches_null (path : List String) : null.touches path = true := by
  cases path <;> rfl

theorem touches_object {changes : List (String × Value)} {name : String} {path : List String} :
    (object changes).touches (name :: path) = false ↔
      ∀ change, (name, change) ∈ changes → change.touches path = false := by
  simp only [touches, List.any_eq_false, Bool.and_eq_true, decide_eq_true_eq, not_and,
    Bool.not_eq_true, Prod.forall]
  constructor
  · intro h change hmem
    exact h name change hmem rfl
  · rintro h _ change hmem rfl
    exact h change hmem

/-- What a patch does not touch is at its place afterwards as it was before. -/
theorem at?_mergePatch {path : List String} {patch : Value} (h : patch.touches path = false)
    (v : Value) : (v.mergePatch patch).at? path = v.at? path := by
  induction path generalizing patch v with
  | nil => cases h
  | cons name path ih =>
      cases patch with
      | object changes =>
          rw [mergePatch_object, at?_cons, at?_cons, get?_eq_lookup v]
          show ((mergeMembers v.membersOrNone changes).lookup name).bind (·.at? path) = _
          replace h := touches_object.mp h
          -- The changes come one after the other, each to what the earlier ones left.
          generalize v.membersOrNone = members
          induction changes generalizing members with
          | nil => rw [mergeMembers]
          | cons m rest ihrest =>
              obtain ⟨n, change⟩ := m
              have hrest := fun c hc => h c (List.mem_cons_of_mem _ hc)
              by_cases hnull : change = .null
              · subst hnull
                have hn : name ≠ n := by
                  rintro rfl
                  have := h _ List.mem_cons_self
                  rw [touches_null] at this
                  cases this
                rw [mergeMembers_null, ihrest hrest, lookup_unbind_ne hn]
              · rw [mergeMembers_cons _ _ _ hnull, ihrest hrest]
                by_cases hn : name = n
                · subst hn
                  have hchange := h _ List.mem_cons_self
                  have hpath : path ≠ [] := by
                    rintro rfl
                    cases hchange
                  rw [lookup_bind_self, Option.bind_some, ih hchange]
                  cases members.lookup name with
                  | none => exact at?_null hpath
                  | some w => rfl
                · rw [lookup_bind_ne hn]
      | _ => cases h

/-! ## Patches along a path -/

/-- Neither path leads on from the other. -/
def Apart (path other : List String) : Prop := ¬ path <+: other ∧ ¬ other <+: path

instance (path other : List String) : Decidable (Apart path other) := by
  unfold Apart
  infer_instance

/-- The value at the end of a path through objects with one member each. -/
def along : List String → Value → Value
  | [], v => v
  | name :: path, v => .object [(name, along path v)]

theorem not_apart_nil {path : List String} : ¬ Apart path [] := fun h => h.2 List.nil_prefix

theorem nil_not_apart {path : List String} : ¬ Apart [] path := fun h => h.1 List.nil_prefix

theorem apart_cons {name : String} {path other : List String} :
    Apart (name :: path) (name :: other) ↔ Apart path other := by
  simp [Apart, List.cons_prefix_cons]

/-- A patch along one path does not touch what is apart from it. -/
theorem touches_along {path other : List String} (h : Apart path other) (v : Value) :
    (along other v).touches path = false := by
  induction other generalizing path with
  | nil => exact absurd h not_apart_nil
  | cons name other ih =>
      cases path with
      | nil => exact absurd h nil_not_apart
      | cons key path =>
          rw [along, touches_object]
          intro change hmem
          cases List.mem_singleton.mp hmem
          exact ih (apart_cons.mp h)

/-- A patch along a path patches what stands at its end, or null if nothing does. -/
theorem at?_mergePatch_along_end (path : List String) {patch : Value} (hpatch : patch ≠ .null)
    (v : Value) :
    (v.mergePatch (along path patch)).at? path =
      some (((v.at? path).getD .null).mergePatch patch) := by
  induction path generalizing v with
  | nil => rw [along, at?_nil, at?_nil, Option.getD_some]
  | cons name path ih =>
      have hnull : along path patch ≠ .null := by
        cases path with
        | nil => exact hpatch
        | cons => simp [along]
      rw [along, mergePatch_singleton v name hnull, at?_cons, get?, lookup_bind_self,
        Option.bind_some, ih, at?_cons, get?_eq_lookup]
      cases v.membersOrNone.lookup name with
      | some w => rfl
      | none =>
          have hnone : ((null.at? path).getD .null) = .null := by cases path <;> rfl
          rw [Option.getD_none, hnone]
          rfl

/-- A text that is patched in along a path stands at its end. -/
theorem at?_mergePatch_along (path : List String) (text : String) (v : Value) :
    (v.mergePatch (along path (.string text))).at? path = some (.string text) := by
  rw [at?_mergePatch_along_end path (by simp), mergePatch]

/-- A text that stands at the end of a path already is no change there. -/
theorem mergePatch_along_self {path : List String} {text : String} {v : Value}
    (h : v.at? path = some (.string text)) : v.mergePatch (along path (.string text)) = v := by
  induction path generalizing v with
  | nil =>
      rw [at?_nil] at h
      rw [along, mergePatch, Option.some.inj h]
  | cons name path ih =>
      have hnull : along path (.string text) ≠ .null := by cases path <;> simp [along]
      obtain ⟨w, hw, hat⟩ := Option.bind_eq_some_iff.mp (at?_cons v name path ▸ h)
      cases v with
      | object members =>
          have hlookup : members.lookup name = some w := hw
          rw [along, mergePatch_singleton _ _ hnull]
          simp only [membersOrNone, hlookup, Option.getD_some, ih hat, bind_of_lookup hlookup]
      | _ => cases hw

/-- A patch of two parts touches what one of them touches. -/
theorem touches_append {changes more : List (String × Value)} {path : List String}
    (h : (object changes).touches path = false) (hmore : (object more).touches path = false) :
    (object (changes ++ more)).touches path = false := by
  cases path with
  | nil => cases h
  | cons name path =>
      rw [touches_object] at h hmore ⊢
      intro change hmem
      rcases List.mem_append.mp hmem with hmem | hmem
      · exact h change hmem
      · exact hmore change hmem

/-! ## Patches without null -/

/-- Null stands nowhere in the value. -/
inductive NullFree : Value → Prop where
  | bool (b : Bool) : NullFree (.bool b)
  | number (n : Number) : NullFree (.number n)
  | string (s : String) : NullFree (.string s)
  | array {items : List Value} (h : ∀ v ∈ items, NullFree v) : NullFree (.array items)
  | object {members : List (String × Value)} (h : ∀ m ∈ members, NullFree m.2) :
      NullFree (.object members)

theorem nullFree_along {v : Value} (h : NullFree v) (path : List String) :
    NullFree (along path v) := by
  induction path with
  | nil => exact h
  | cons name path ih =>
      rw [along]
      refine .object fun m hm => ?_
      rw [List.mem_singleton.mp hm]
      exact ih

theorem nullFree_append {members more : List (String × Value)} (h : NullFree (.object members))
    (hmore : NullFree (.object more)) : NullFree (.object (members ++ more)) := by
  cases h with
  | object h =>
      cases hmore with
      | object hmore => exact .object (List.forall_mem_append.mpr ⟨h, hmore⟩)

/-- A member that is left out when it has no value is never null. -/
theorem nullFree_optionalMember {α : Type} {write : α → Value} (h : ∀ a, NullFree (write a))
    (name : String) (a : Option α) : NullFree (.object (optionalMember name (a.map write))) := by
  cases a with
  | none => exact .object (List.forall_mem_nil _)
  | some a => exact nullFree_along (h a) [name]

end Value

end SecretsWarden.Json
