import SecretsWarden.Resource.Condition

/-!
# Merging conditions

Merging touches the first entry of its own type only: entries of other types keep their order and
their fields, and a look-up by the type finds an entry that is equivalent to the merged condition.
A condition survives being written and read again.
-/

namespace SecretsWarden.Resource

open Json

namespace Condition

variable {new : Condition} {cs cs' : List Condition}

theorem equivalent_iff {a b : Condition} :
    a.equivalent b = true ↔ a.type = b.type ∧ a.status = b.status ∧ a.reason = b.reason ∧
      a.message = b.message ∧ a.observedGeneration = b.observedGeneration := by
  simp [equivalent, and_assoc]

theorem equivalent_self (c : Condition) : c.equivalent c = true :=
  equivalent_iff.mpr ⟨rfl, rfl, rfl, rfl, rfl⟩

@[simp] theorem type_replacing (new old : Condition) : (new.replacing old).type = new.type := by
  unfold replacing
  split <;> rfl

theorem equivalent_replacing (new old : Condition) :
    (new.replacing old).equivalent new = true := by
  unfold replacing
  split <;> simp [equivalent]

/-- What is equivalent to a condition is equivalent to any one that is. -/
theorem equivalent_congr {a b : Condition} (h : a.equivalent b = true) (c : Condition) :
    c.equivalent a = c.equivalent b := by
  obtain ⟨h₁, h₂, h₃, h₄, h₅⟩ := equivalent_iff.mp h
  simp only [equivalent, h₁, h₂, h₃, h₄, h₅]

/-! ## Merging as replacing or adding

An entry that is equivalent already is what would take its place, so that leaving it is a case of
replacing it.
-/

theorem replacing_of_equivalent {old : Condition} (h : old.equivalent new = true) :
    new.replacing old = old := by
  obtain ⟨htype, hstatus, hreason, hmessage, hgeneration⟩ := equivalent_iff.mp h
  cases old
  cases new
  simp_all [replacing]

theorem merge_of_none (h : new.merge? cs = none) : new.merge cs = cs := by
  unfold merge
  rw [h, Option.getD_none]

theorem merge_of_some (h : new.merge? cs = some cs') : new.merge cs = cs' := by
  unfold merge
  rw [h, Option.getD_some]

@[simp] theorem merge_nil (new : Condition) : new.merge [] = [new] := rfl

theorem merge_cons (new old : Condition) (rest : List Condition) :
    new.merge (old :: rest) =
      if old.type = new.type then new.replacing old :: rest else old :: new.merge rest := by
  unfold merge
  rw [merge?]
  by_cases htype : old.type = new.type
  · rw [if_pos htype, if_pos htype]
    by_cases hequiv : old.equivalent new = true
    · rw [if_pos hequiv, replacing_of_equivalent hequiv, Option.getD_none]
    · rw [if_neg hequiv, Option.getD_some]
  · rw [if_neg htype, if_neg htype]
    cases new.merge? rest <;> rfl

/-- Merging adds a type at the end, or no type at all. -/
theorem map_type_merge (new : Condition) (cs : List Condition) :
    (new.merge cs).map (·.type) =
      if new.type ∈ cs.map (·.type) then cs.map (·.type) else cs.map (·.type) ++ [new.type] := by
  induction cs with
  | nil => rfl
  | cons old rest ih =>
      rw [merge_cons]
      by_cases htype : old.type = new.type
      · simp [htype]
      · have hne : new.type ≠ old.type := fun h => htype h.symm
        rw [if_neg htype, List.map_cons, ih, List.map_cons]
        simp only [List.mem_cons, hne, false_or]
        split <;> rfl

/-- The entry of the merged type, after merging. -/
theorem find?_merge_self (new : Condition) (cs : List Condition) :
    (new.merge cs).find? (·.type = new.type) =
      some ((cs.find? (·.type = new.type)).elim new new.replacing) := by
  induction cs with
  | nil => simp
  | cons old rest ih =>
      rw [merge_cons]
      by_cases htype : old.type = new.type
      · simp [htype]
      · simp [htype, ih]

theorem find?_merge_ne {type : String} (h : type ≠ new.type) (cs : List Condition) :
    (new.merge cs).find? (·.type = type) = cs.find? (·.type = type) := by
  induction cs with
  | nil => simp [h.symm]
  | cons old rest ih =>
      rw [merge_cons]
      by_cases htype : old.type = new.type
      · have hne : ¬ new.type = type := h.symm
        simp [htype, hne]
      · simp only [if_neg htype, List.find?_cons, ih]

/-! ## What merging leaves -/

theorem ne_nil_of_merge? (h : new.merge? cs = some cs') : cs' ≠ [] := by
  rintro rfl
  cases cs with
  | nil => cases h
  | cons old rest =>
      unfold merge? at h
      split at h
      · split at h <;> cases h
      · simp at h

/-- Nothing has to be written exactly if the entry that counts is equivalent already. -/
theorem merge?_eq_none_iff :
    new.merge? cs = none ↔ ∃ old, cs.find? (·.type = new.type) = some old ∧ old.equivalent new := by
  induction cs with
  | nil => simp [merge?]
  | cons old rest ih =>
      unfold merge?
      by_cases htype : old.type = new.type
      · rw [if_pos htype, List.find?_cons_of_pos (by simpa using htype)]
        by_cases hequiv : old.equivalent new = true <;> simp [hequiv]
      · rw [if_neg htype, List.find?_cons_of_neg (by simpa using htype), Option.map_eq_none_iff, ih]

/-- Entries of other types are left as they are. -/
theorem filter_merge? (h : new.merge? cs = some cs') :
    cs'.filter (·.type ≠ new.type) = cs.filter (·.type ≠ new.type) := by
  induction cs generalizing cs' with
  | nil =>
      cases h
      simp
  | cons old rest ih =>
      unfold merge? at h
      by_cases htype : old.type = new.type
      · rw [if_pos htype] at h
        split at h
        · cases h
        · cases h
          simp [htype]
      · rw [if_neg htype] at h
        obtain ⟨more, hmore, rfl⟩ := Option.map_eq_some_iff.mp h
        simp only [List.filter_cons, ih hmore]

/-- The entry that counts after merging is equivalent to the merged condition. -/
theorem find?_merge (new : Condition) (cs : List Condition) :
    ∃ c, (new.merge cs).find? (·.type = new.type) = some c ∧ c.equivalent new = true := by
  refine ⟨_, find?_merge_self new cs, ?_⟩
  cases cs.find? (·.type = new.type) with
  | none => exact equivalent_self new
  | some old => exact equivalent_replacing new old

/-- Whether something has to be written is the same for equivalent conditions. -/
theorem merge?_eq_none_congr {new' : Condition} (h : new.equivalent new' = true) :
    new.merge? cs = none ↔ new'.merge? cs = none := by
  have htype := (equivalent_iff.mp h).1
  rw [merge?_eq_none_iff, merge?_eq_none_iff, htype]
  simp only [equivalent_congr h]

/-- What was merged need not be merged again. -/
theorem merge?_merge? (h : new.merge? cs = some cs') : new.merge? cs' = none := by
  have hfind := find?_merge new cs
  rw [merge_of_some h] at hfind
  exact merge?_eq_none_iff.mpr hfind

/-- The first entry of a type has another one in its place, or there was none and one is added. -/
inductive Exchanged (new : Condition) : List Condition → List Condition → Prop where
  | replaced {before after : List Condition} {old : Condition}
      (hbefore : ∀ c ∈ before, c.type ≠ new.type) (htype : old.type = new.type) :
      Exchanged new (before ++ old :: after) (before ++ new.replacing old :: after)
  | added {cs : List Condition} (h : ∀ c ∈ cs, c.type ≠ new.type) : Exchanged new cs (cs ++ [new])

theorem exchanged_merge? (h : new.merge? cs = some cs') : new.Exchanged cs cs' := by
  induction cs generalizing cs' with
  | nil =>
      cases h
      exact Exchanged.added (List.forall_mem_nil _)
  | cons old rest ih =>
      unfold merge? at h
      by_cases htype : old.type = new.type
      · rw [if_pos htype] at h
        split at h
        · cases h
        · cases h
          exact @Exchanged.replaced new [] rest old (List.forall_mem_nil _) htype
      · rw [if_neg htype] at h
        obtain ⟨more, hmore, rfl⟩ := Option.map_eq_some_iff.mp h
        cases ih hmore with
        | @replaced before after exchanged hbefore hexchanged =>
            exact @Exchanged.replaced new (old :: before) after exchanged
              (List.forall_mem_cons.mpr ⟨htype, hbefore⟩) hexchanged
        | added hrest => exact .added (List.forall_mem_cons.mpr ⟨htype, hrest⟩)

/-! ## Writing and reading -/

theorem string?_string (s : String) : Value.string? (.string s) = some s := rfl

theorem toInt_in_range (n : Int64) :
    (-9223372036854775808 : Int) ≤ n.toInt ∧ n.toInt ≤ 9223372036854775807 := by
  have hlow := n.le_toInt
  have hhigh := n.toInt_lt
  omega

theorem int64?_integer (n : Int64) : Value.int64? (.number (.integer n.toInt)) = some n := by
  simp only [Value.int64?, Value.integer?, if_pos (toInt_in_range n), Option.map_some,
    Int64.ofInt_toInt]

/-- A condition that was written reads back. -/
theorem ofJson?_toJson (c : Condition) : ofJson? c.toJson = some c := by
  obtain ⟨type, status, reason, message, generation, time⟩ := c
  cases reason <;> cases message <;> cases generation <;> cases time <;>
    simp [ofJson?, toJson, Value.record?, required, Json.optional, optionalMember, List.lookup_cons,
      string?_string, int64?_integer, Value.ofInt]

theorem mapM_ofJson?_toJson (cs : List Condition) : (cs.map toJson).mapM ofJson? = some cs := by
  induction cs with
  | nil => rfl
  | cons c rest ih => simp [ofJson?_toJson, ih]

end Condition

end SecretsWarden.Resource
