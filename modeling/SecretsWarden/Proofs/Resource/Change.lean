import SecretsWarden.Proofs.Resource.Reading

/-!
# What merging changes

Merging a condition says whether it changed the list, and on that alone depends whether the list is
written. It is right about it, also where other writers left several entries of one type: no change
means that the entry that counts is equivalent already, and a change is one entry replaced or added.
-/

namespace SecretsWarden.Resource

namespace Condition

variable {new : Condition} {cs cs' : List Condition}

/-- Whether merging the condition changes the list. -/
def changes (new : Condition) (cs : List Condition) : Bool := (new.merge? cs).isSome

theorem changes_eq_false_iff_merge? : new.changes cs = false ↔ new.merge? cs = none := by
  unfold changes
  rw [← Bool.not_eq_true, Option.not_isSome_iff_eq_none]

/-- Merging once more changes nothing. -/
theorem changes_merge (new : Condition) (cs : List Condition) :
    new.changes (new.merge cs) = false := by
  rw [changes_eq_false_iff_merge?]
  cases h : new.merge? cs with
  | none => rwa [merge_of_none h]
  | some cs' =>
      rw [merge_of_some h]
      exact merge?_merge? h

theorem changes_iff_ne : new.changes cs = true ↔ new.merge cs ≠ cs := by
  constructor
  · intro hchanges heq
    -- What is not changed by the first merge would have to be changed by the second.
    have hagain := changes_merge new cs
    rw [heq, hchanges] at hagain
    cases hagain
  · intro hne
    refine Bool.of_not_eq_false fun hsame => hne (merge_of_none ?_)
    exact changes_eq_false_iff_merge?.mp hsame

/-- Without a change the entry that counts is equivalent already. -/
theorem changes_eq_false_iff :
    new.changes cs = false ↔
      ∃ old, cs.find? (·.type = new.type) = some old ∧ old.equivalent new = true := by
  rw [changes_eq_false_iff_merge?, merge?_eq_none_iff]

theorem exchanged_of_changes (h : new.changes cs = true) : new.Exchanged cs (new.merge cs) := by
  obtain ⟨cs', hmerge⟩ := Option.isSome_iff_exists.mp h
  rw [merge_of_some hmerge]
  exact exchanged_merge? hmerge

/-- How many entries of a type there are: as many as before, or one where there was none. -/
theorem count_type_merge (new : Condition) (cs : List Condition) (type : String) :
    ((new.merge cs).map (·.type)).count type = (cs.map (·.type)).count type ∨
      type = new.type ∧ (cs.map (·.type)).count type = 0 ∧
        ((new.merge cs).map (·.type)).count type = 1 := by
  rw [map_type_merge]
  by_cases hmem : new.type ∈ cs.map (·.type)
  · rw [if_pos hmem]
    exact Or.inl rfl
  · rw [if_neg hmem, List.count_append]
    by_cases htype : type = new.type
    · subst htype
      have hnone := List.count_eq_zero_of_not_mem hmem
      exact Or.inr ⟨rfl, hnone, by simp [hnone]⟩
    · have hne : ¬ new.type = type := fun h => htype h.symm
      exact Or.inl (by simp [hne])

/-- The configuration object that has the merged list carries the condition. -/
theorem carries_of_merge {config : SecretsConfig} (h : config.conditions = new.merge cs) :
    config.Carries new := by
  unfold SecretsConfig.Carries SecretsConfig.condition?
  rw [h]
  exact find?_merge new cs

/-- **Merging is exact about its change.** On every list, it says that there is a change exactly if
the list is another one afterwards, and that there is none exactly if the first entry of the type is
equivalent to the condition. A change replaces that entry or adds one at the end, where there was
none, and leaves all others in place as they are. Afterwards a look-up by the type finds an entry
that is equivalent to the condition, no type has more entries than before unless it had none, and
merging once more changes nothing. -/
theorem merging_changes_first_entry (new : Condition) (cs : List Condition) :
    (new.changes cs = true ↔ new.merge cs ≠ cs) ∧
      (new.changes cs = false ↔
        ∃ old, cs.find? (·.type = new.type) = some old ∧ old.equivalent new = true) ∧
      (new.changes cs = true → new.Exchanged cs (new.merge cs)) ∧
      (∀ config : SecretsConfig, config.conditions = new.merge cs → config.Carries new) ∧
      (∀ type : String,
        ((new.merge cs).map (·.type)).count type = (cs.map (·.type)).count type ∨
          type = new.type ∧ (cs.map (·.type)).count type = 0 ∧
            ((new.merge cs).map (·.type)).count type = 1) ∧
      new.changes (new.merge cs) = false :=
  ⟨changes_iff_ne, changes_eq_false_iff, exchanged_of_changes, fun _ => carries_of_merge,
    count_type_merge new cs, changes_merge new cs⟩

/-- Of two entries of one type only the first one counts, even if the other one is the condition
itself. -/
example :
    let new : Condition := { type := "Ready", status := "True", lastTransitionTime := some "t2" }
    let old : Condition := { type := "Ready", status := "False", lastTransitionTime := some "t1" }
    new.changes [old, new] = true ∧ new.merge [old, new] = [new, new] := by
  decide

end Condition

end SecretsWarden.Resource
