import Mathlib.Data.List.Basic
import SecretsWarden.Proofs.Resource.Change

/-!
# Updates of different types commute

Two writers that keep to types of their own do not disturb each other: however their updates come
between each other, each update changes the list or not as it would without the other writer, and
the lists they end in have the same entries. The entries of one type are a list of their own, on
which only the updates of that type work; the two writers meet in the order of what they add.
-/

namespace SecretsWarden.Resource

namespace Condition

variable {c : Condition} {cs cs' xs ys zs zs' : List Condition}

/-- The list after conditions were merged into it one after the other. -/
def mergeInto (cs updates : List Condition) : List Condition :=
  updates.foldl (fun cs c => c.merge cs) cs

/-- The updates, each with whether it changes the list that it meets. -/
def marked (cs : List Condition) : List Condition → List (Condition × Bool)
  | [] => []
  | c :: rest => (c, c.changes cs) :: marked (c.merge cs) rest

@[simp] theorem mergeInto_nil (cs : List Condition) : mergeInto cs [] = cs := rfl

@[simp] theorem mergeInto_cons (cs rest : List Condition) (c : Condition) :
    mergeInto cs (c :: rest) = mergeInto (c.merge cs) rest :=
  rfl

/-! ## The entries of one type -/

/-- The entries of a type are merged among themselves. -/
theorem filter_merge (c : Condition) (cs : List Condition) (type : String) :
    (c.merge cs).filter (·.type = type) =
      if c.type = type then c.merge (cs.filter (·.type = type)) else cs.filter (·.type = type) := by
  induction cs with
  | nil =>
      by_cases hc : c.type = type <;> simp [hc]
  | cons old rest ih =>
      rw [merge_cons]
      by_cases hold : old.type = c.type
      · by_cases hc : c.type = type
        · have holdtype : old.type = type := hold.trans hc
          simp [hc, holdtype, merge_cons]
        · simp [hold, hc]
      · rw [if_neg hold, List.filter_cons, ih, List.filter_cons]
        by_cases holdtype : old.type = type
        · have hc : ¬ c.type = type := fun h => hold (holdtype.trans h.symm)
          simp [holdtype, hc]
        · simp [holdtype]

theorem filter_merge_of_ne {type : String} (h : c.type ≠ type) (cs : List Condition) :
    (c.merge cs).filter (·.type = type) = cs.filter (·.type = type) := by
  rw [filter_merge, if_neg h]

/-- Whether an update changes a list depends on the entries of its type. -/
theorem changes_congr (h : cs.filter (·.type = c.type) = cs'.filter (·.type = c.type)) :
    c.changes cs = c.changes cs' := by
  rw [Bool.eq_iff_iff, ← not_iff_not, Bool.not_eq_true, Bool.not_eq_true, changes_eq_false_iff,
    changes_eq_false_iff, ← List.head?_filter, ← List.head?_filter, h]

theorem filter_mergeInto (cs updates : List Condition) (type : String) :
    (mergeInto cs updates).filter (·.type = type) =
      mergeInto (cs.filter (·.type = type)) (updates.filter (·.type = type)) := by
  induction updates generalizing cs with
  | nil => rfl
  | cons c rest ih =>
      rw [mergeInto_cons, ih, filter_merge]
      by_cases hc : c.type = type <;> simp [hc]

/-- What the updates change depends on the entries of their types. -/
theorem marked_congr
    (h : ∀ c ∈ xs, cs.filter (·.type = c.type) = cs'.filter (·.type = c.type)) :
    marked cs xs = marked cs' xs := by
  induction xs generalizing cs cs' with
  | nil => rfl
  | cons c rest ih =>
      obtain ⟨hc, hrest⟩ := List.forall_mem_cons.mp h
      have hmerged : marked (c.merge cs) rest = marked (c.merge cs') rest := by
        refine ih fun d hd => ?_
        rw [filter_merge, filter_merge, hrest d hd]
      rw [marked, marked, changes_congr hc, hmerged]

/-- An update does not concern what updates of other types change. -/
theorem marked_merge (h : ∀ x ∈ xs, x.type ≠ c.type) (cs : List Condition) :
    marked (c.merge cs) xs = marked cs xs :=
  marked_congr fun x hx => filter_merge_of_ne (h x hx).symm cs

/-- Lists with the same entries of each type, in the same order, have the same entries. -/
theorem perm_of_filter_eq
    (h : ∀ type : String, cs.filter (·.type = type) = cs'.filter (·.type = type)) :
    cs.Perm cs' := by
  refine List.perm_iff_count.mpr fun c => ?_
  have hcount := congrArg (List.count c) (h c.type)
  rwa [List.count_filter (by simp), List.count_filter (by simp)] at hcount

/-- If the types stand in the same order, too, then the lists are the same. -/
theorem eq_of_filter_eq
    (h : ∀ type : String, cs.filter (·.type = type) = cs'.filter (·.type = type))
    (htypes : cs.map (·.type) = cs'.map (·.type)) : cs = cs' := by
  induction cs generalizing cs' with
  | nil => exact (List.map_eq_nil_iff.mp htypes.symm).symm
  | cons c rest ih =>
      cases cs' with
      | nil => cases htypes
      | cons c' rest' =>
          obtain ⟨htype, hrest⟩ := List.cons.inj htypes
          have hfirst := h c.type
          rw [List.filter_cons_of_pos (by simp), List.filter_cons_of_pos (by simp [htype])] at hfirst
          obtain ⟨rfl, -⟩ := List.cons.inj hfirst
          refine congrArg (c :: ·) (ih (fun type => ?_) hrest)
          have hall := h type
          by_cases hc : c.type = type
          · rw [List.filter_cons_of_pos (by simpa using hc),
              List.filter_cons_of_pos (by simpa using hc)] at hall
            exact (List.cons.inj hall).2
          · rwa [List.filter_cons_of_neg (by simpa using hc),
              List.filter_cons_of_neg (by simpa using hc)] at hall

/-! ## Two updates -/

/-- A type that is there stays where it is. -/
theorem map_type_merge_of_mem (h : c.type ∈ cs.map (·.type)) :
    (c.merge cs).map (·.type) = cs.map (·.type) := by
  rw [map_type_merge, if_pos h]

theorem mem_map_type_merge {type : String} (h : type ∈ cs.map (·.type)) (c : Condition) :
    type ∈ (c.merge cs).map (·.type) := by
  rw [map_type_merge]
  split
  · exact h
  · exact List.mem_append_left _ h

/-- Two updates of different types can change places, unless both add an entry. -/
theorem merge_comm {a b : Condition} (hne : a.type ≠ b.type) (ha : a.type ∈ cs.map (·.type)) :
    a.merge (b.merge cs) = b.merge (a.merge cs) := by
  refine eq_of_filter_eq (fun type => ?_) ?_
  · rw [filter_merge, filter_merge, filter_merge, filter_merge]
    by_cases hat : a.type = type
    · have hbt : ¬ b.type = type := fun h => hne (hat.trans h.symm)
      simp only [hat, hbt, if_true, if_false]
    · simp only [hat, if_false]
  · rw [map_type_merge_of_mem (mem_map_type_merge ha b), map_type_merge, map_type_merge,
      map_type_merge_of_mem ha]

/-- An update can be made before others of different types that are all there. -/
theorem mergeInto_merge (hne : ∀ x ∈ xs, x.type ≠ c.type)
    (hxs : ∀ x ∈ xs, x.type ∈ cs.map (·.type)) :
    mergeInto (c.merge cs) xs = c.merge (mergeInto cs xs) := by
  induction xs generalizing cs with
  | nil => rfl
  | cons x rest ih =>
      obtain ⟨hx, hrest⟩ := List.forall_mem_cons.mp hne
      obtain ⟨hmem, hmems⟩ := List.forall_mem_cons.mp hxs
      rw [mergeInto_cons, mergeInto_cons, merge_comm hx hmem]
      exact ih hrest fun y hy => mem_map_type_merge (hmems y hy) x

/-! ## Interleavings -/

/-- The third list consists of the first two, the order of each being kept. -/
inductive Interleaves {α : Type} : List α → List α → List α → Prop where
  | nil : Interleaves [] [] []
  | left {x : α} {xs ys zs : List α} (h : Interleaves xs ys zs) :
      Interleaves (x :: xs) ys (x :: zs)
  | right {y : α} {xs ys zs : List α} (h : Interleaves xs ys zs) :
      Interleaves xs (y :: ys) (y :: zs)

theorem Interleaves.symm {α : Type} {xs ys zs : List α} (h : Interleaves xs ys zs) :
    Interleaves ys xs zs := by
  induction h with
  | nil => exact .nil
  | left h ih => exact .right ih
  | right h ih => exact .left ih

/-- No type is among both lists of updates. -/
def Apart (xs ys : List Condition) : Prop := ∀ x ∈ xs, ∀ y ∈ ys, x.type ≠ y.type

theorem Apart.symm (h : Apart xs ys) : Apart ys xs := fun y hy x hx => (h x hx y hy).symm

theorem Apart.of_cons_left {x : Condition} (h : Apart (x :: xs) ys) :
    (∀ y ∈ ys, y.type ≠ x.type) ∧ Apart xs ys :=
  ⟨fun y hy => (h x List.mem_cons_self y hy).symm,
    fun z hz => h z (List.mem_cons_of_mem x hz)⟩

/-- The updates of one type come from one of the two lists. -/
theorem Interleaves.filter_eq (h : Interleaves xs ys zs) (hapart : Apart xs ys) (type : String) :
    zs.filter (·.type = type) =
      xs.filter (·.type = type) ++ ys.filter (·.type = type) := by
  induction h with
  | nil => rfl
  | @left x xs ys zs h ih =>
      rw [List.filter_cons, List.filter_cons, ih hapart.of_cons_left.2]
      split <;> rfl
  | @right y xs ys zs h ih =>
      obtain ⟨hy, hrest⟩ := hapart.symm.of_cons_left
      rw [List.filter_cons, List.filter_cons, ih hrest.symm]
      by_cases htype : y.type = type
      · have hxs : xs.filter (·.type = type) = [] := by
          refine List.filter_eq_nil_iff.mpr fun x hx => ?_
          simpa [← htype] using hy x hx
        simp [htype, hxs]
      · simp [htype]

/-- Each update changes the list or not as it would without the other list of updates. -/
theorem interleaves_marked (h : Interleaves xs ys zs) (hapart : Apart xs ys)
    (cs : List Condition) :
    Interleaves (marked cs xs) (marked cs ys) (marked cs zs) := by
  induction h generalizing cs with
  | nil => exact .nil
  | @left x xs ys zs h ih =>
      obtain ⟨hys, hrest⟩ := hapart.of_cons_left
      have hmarked := ih hrest (x.merge cs)
      rw [marked_merge hys] at hmarked
      exact .left hmarked
  | @right y xs ys zs h ih =>
      obtain ⟨hxs, hrest⟩ := hapart.symm.of_cons_left
      have hmarked := ih hrest.symm (y.merge cs)
      rw [marked_merge hxs] at hmarked
      exact .right hmarked

/-- Updates of types that are all there can be made before the others. -/
theorem mergeInto_of_interleaves (h : Interleaves xs ys zs) (hapart : Apart xs ys)
    (hxs : ∀ x ∈ xs, x.type ∈ cs.map (·.type)) :
    mergeInto cs zs = mergeInto (mergeInto cs xs) ys := by
  induction h generalizing cs with
  | nil => rfl
  | left h ih =>
      obtain ⟨-, hmems⟩ := List.forall_mem_cons.mp hxs
      exact ih hapart.of_cons_left.2 fun y hy => mem_map_type_merge (hmems y hy) _
  | right h ih =>
      obtain ⟨hy, hrest⟩ := hapart.symm.of_cons_left
      rw [mergeInto_cons, mergeInto_cons, ← mergeInto_merge hy hxs]
      exact ih hrest.symm fun x hx => mem_map_type_merge (hxs x hx) _

/-- **Updates of different types commute.** Take two lists of updates that have no type in common,
and two ways in which they come between each other. Then each update changes the list or not as it
would if the other list of updates was not there, so it does the same in both ways. The lists in
which they end have the same entries, and they are the same if all types of one of the two lists of
updates were there from the beginning. -/
theorem interleaved_updates_commute (hapart : Apart xs ys) (hzs : Interleaves xs ys zs)
    (hzs' : Interleaves xs ys zs') (cs : List Condition) :
    Interleaves (marked cs xs) (marked cs ys) (marked cs zs) ∧
      Interleaves (marked cs xs) (marked cs ys) (marked cs zs') ∧
      (mergeInto cs zs).Perm (mergeInto cs zs') ∧
      (((∀ x ∈ xs, x.type ∈ cs.map (·.type)) ∨ ∀ y ∈ ys, y.type ∈ cs.map (·.type)) →
        mergeInto cs zs = mergeInto cs zs') := by
  refine ⟨interleaves_marked hzs hapart cs, interleaves_marked hzs' hapart cs, ?_, ?_⟩
  · refine perm_of_filter_eq fun type => ?_
    rw [filter_mergeInto, filter_mergeInto, hzs.filter_eq hapart, hzs'.filter_eq hapart]
  · rintro (hxs | hys)
    · rw [mergeInto_of_interleaves hzs hapart hxs, mergeInto_of_interleaves hzs' hapart hxs]
    · rw [mergeInto_of_interleaves hzs.symm hapart.symm hys,
        mergeInto_of_interleaves hzs'.symm hapart.symm hys]

/-- What one writer reports on its annotations, twice. -/
def reports : List Condition := [
  { type := "UpdateAnnotation", status := "False", lastTransitionTime := some "t1" },
  { type := "UpdateAnnotation", status := "True", lastTransitionTime := some "t3" }]

/-- What another writer reports in between. -/
def readiness : List Condition := [
  { type := "Ready", status := "True", lastTransitionTime := some "t2" }]

/-- The list that both start from, in which one type stands twice. -/
def stored : List Condition := [
  { type := "UpdateAnnotation", status := "True", lastTransitionTime := some "t0" },
  { type := "UpdateAnnotation", status := "Unknown" }]

/-- The other writer's report can come before, between or after. -/
theorem readiness_before_or_between :
    Apart reports readiness ∧ (∀ x ∈ reports, x.type ∈ stored.map (·.type)) ∧
      mergeInto stored (readiness ++ reports) =
        mergeInto stored [reports[0], readiness[0], reports[1]] := by
  have hapart : Apart reports readiness := by
    unfold Apart
    decide
  have hpresent : ∀ x ∈ reports, x.type ∈ stored.map (·.type) := by decide
  have hbefore : Interleaves reports readiness (readiness ++ reports) :=
    .right (.left (.left .nil))
  have hbetween : Interleaves reports readiness [reports[0], readiness[0], reports[1]] :=
    .left (.right (.left .nil))
  exact ⟨hapart, hpresent,
    (interleaved_updates_commute hapart hbefore hbetween stored).2.2.2 (Or.inl hpresent)⟩

/-- Where both writers add their type, the order of the two entries is that of the updates. -/
example :
    mergeInto [] (readiness ++ reports) ≠ mergeInto [] (reports ++ readiness) := by
  decide

end Condition

end SecretsWarden.Resource
