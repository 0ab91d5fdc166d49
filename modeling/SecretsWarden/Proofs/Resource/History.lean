import Mathlib.Data.List.Induction
import SecretsWarden.Proofs.Resource.Condition

/-!
# What a history of conditions leaves

Conditions that are merged into an empty list one after the other leave one entry for each type.
The entry is the last condition of its type, but its time is older: it is that of the first
condition since which the status has been the same, no matter what was merged in between.
-/

namespace SecretsWarden.Resource

namespace Condition

/-- The list after conditions were merged in one after the other. -/
def mergeAll (applied : List Condition) : List Condition :=
  applied.foldl (fun cs c => c.merge cs) []

@[simp] theorem mergeAll_nil : mergeAll [] = [] := rfl

theorem mergeAll_snoc (applied : List Condition) (c : Condition) :
    mergeAll (applied ++ [c]) = c.merge (mergeAll applied) := by
  unfold mergeAll
  rw [List.foldl_append]
  rfl

/-! ## One entry for each type -/

theorem eraseDups_snoc (types : List String) (type : String) :
    (types ++ [type]).eraseDups =
      if type ∈ types.eraseDups then types.eraseDups else types.eraseDups ++ [type] := by
  rw [List.eraseDups_append]
  by_cases h : type ∈ types
  · simp [List.removeAll, h]
  · simp [List.removeAll, h, List.eraseDups_cons]

/-- The types stand in the order in which they first came. -/
theorem map_type_mergeAll (applied : List Condition) :
    (mergeAll applied).map (·.type) = (applied.map (·.type)).eraseDups := by
  induction applied using List.reverseRecOn with
  | nil => rfl
  | append_singleton applied c ih =>
      rw [mergeAll_snoc, map_type_merge, ih, List.map_append, List.map_singleton, eraseDups_snoc]

theorem nodup_merge {cs : List Condition} (h : (cs.map (·.type)).Nodup) (c : Condition) :
    ((c.merge cs).map (·.type)).Nodup := by
  rw [map_type_merge]
  split
  · exact h
  · rename_i hnew
    refine List.nodup_append.mpr ⟨h, by simp, ?_⟩
    intro type htype other hother heq
    cases List.mem_singleton.mp hother
    exact hnew (heq ▸ htype)

theorem nodup_mergeAll (applied : List Condition) : ((mergeAll applied).map (·.type)).Nodup := by
  induction applied using List.reverseRecOn with
  | nil => exact List.nodup_nil
  | append_singleton applied c ih =>
      rw [mergeAll_snoc]
      exact nodup_merge ih c

/-- Where each type comes once, an entry is what a look-up by its type finds. -/
theorem mem_iff_find? {cs : List Condition} (h : (cs.map (·.type)).Nodup) {entry : Condition} :
    entry ∈ cs ↔ cs.find? (·.type = entry.type) = some entry := by
  induction cs with
  | nil => simp
  | cons c rest ih =>
      obtain ⟨hfresh, hrest⟩ := List.nodup_cons.mp h
      by_cases htype : c.type = entry.type
      · have hnot : entry ∉ rest := by
          intro hmem
          have hmap : entry.type ∈ rest.map (·.type) := List.mem_map_of_mem hmem
          rw [← htype] at hmap
          exact hfresh hmap
        simp [htype, hnot, eq_comm]
      · have hne : entry ≠ c := fun heq => htype (heq ▸ rfl)
        rw [List.find?_cons_of_neg (by simpa using htype), List.mem_cons, ← ih hrest]
        simp [hne]

/-! ## What an entry is -/

/-- A list of conditions ends with `first` and `later`, which have the same status, and what is
before them ends with another one. -/
def EndsInRun (cs : List Condition) (first : Condition) (later : List Condition) : Prop :=
  (∃ earlier, cs = earlier ++ first :: later ∧
      ∀ c ∈ earlier.getLast?, c.status ≠ first.status) ∧
    ∀ c ∈ later, c.status = first.status

variable {cs later : List Condition} {first c : Condition}

theorem endsInRun_singleton (c : Condition) : EndsInRun [c] c [] :=
  ⟨⟨[], rfl, by simp⟩, by simp⟩

theorem EndsInRun.snoc_same (h : EndsInRun cs first later) (hc : c.status = first.status) :
    EndsInRun (cs ++ [c]) first (later ++ [c]) := by
  obtain ⟨⟨earlier, rfl, hearlier⟩, hlater⟩ := h
  refine ⟨⟨earlier, by simp, hearlier⟩, ?_⟩
  intro d hd
  rcases List.mem_append.mp hd with hd | hd
  · exact hlater d hd
  · cases List.mem_singleton.mp hd
    exact hc

theorem EndsInRun.snoc_flip (h : EndsInRun cs first later) (hc : c.status ≠ first.status) :
    EndsInRun (cs ++ [c]) c [] := by
  obtain ⟨⟨earlier, rfl, _⟩, hlater⟩ := h
  refine ⟨⟨earlier ++ first :: later, rfl, ?_⟩, by simp⟩
  intro d hd hstatus
  -- The run before ends in the status of its first condition.
  have hlast : d.status = first.status := by
    rw [List.getLast?_append, List.getLast?_cons, Option.some_or, Option.mem_some_iff] at hd
    subst hd
    cases hend : later.getLast? with
    | none => rfl
    | some last => exact hlater last (List.mem_of_getLast? hend)
  exact hc (hstatus.symm.trans hlast)

/-- The last condition of a run, with the time of the first. -/
def ofRun (first : Condition) (later : List Condition) : Condition :=
  { later.getLastD first with lastTransitionTime := first.lastTransitionTime }

theorem status_ofRun (h : EndsInRun cs first later) :
    (ofRun first later).status = first.status := by
  show (later.getLastD first).status = first.status
  rw [List.getLastD_eq_getLast?]
  cases hend : later.getLast? with
  | none => rfl
  | some last => exact h.2 last (List.mem_of_getLast? hend)

/-- What is found for a type after the conditions of that type were merged. -/
inductive Stands : List Condition → Option Condition → Prop where
  | absent : Stands [] none
  | entry {cs later : List Condition} {first : Condition} (h : EndsInRun cs first later) :
      Stands cs (some (ofRun first later))

theorem Stands.eq_ofRun {entry : Condition} (h : Stands cs (some entry)) :
    ∃ first later, EndsInRun cs first later ∧ entry = ofRun first later := by
  cases h with
  | entry hrun => exact ⟨_, _, hrun, rfl⟩

/-- One more condition of the type prolongs the run, or begins a new one. -/
theorem Stands.replaced {found : Option Condition} (h : Stands cs found) (c : Condition) :
    Stands (cs ++ [c]) (some (found.elim c c.replacing)) := by
  cases h with
  | absent => exact .entry (endsInRun_singleton c)
  | @entry _ later first hrun =>
      rw [Option.elim_some, replacing, status_ofRun hrun]
      by_cases hstatus : first.status = c.status
      · have hsnoc : { c with lastTransitionTime := (ofRun first later).lastTransitionTime } =
            ofRun first (later ++ [c]) := by
          unfold ofRun
          rw [List.getLastD_concat]
        rw [if_pos hstatus, hsnoc]
        exact .entry (hrun.snoc_same hstatus.symm)
      · rw [if_neg hstatus]
        exact .entry (hrun.snoc_flip fun heq => hstatus heq.symm)

theorem stands_mergeAll (applied : List Condition) (type : String) :
    Stands (applied.filter (·.type = type)) ((mergeAll applied).find? (·.type = type)) := by
  induction applied using List.reverseRecOn with
  | nil => exact .absent
  | append_singleton applied c ih =>
      rw [mergeAll_snoc, List.filter_append]
      by_cases htype : c.type = type
      · subst htype
        rw [find?_merge_self, List.filter_cons_of_pos (by simp), List.filter_nil]
        exact ih.replaced c
      · rw [find?_merge_ne (fun h => htype h.symm), List.filter_cons_of_neg (by simpa using htype),
          List.filter_nil, List.append_nil]
        exact ih

/-! ## When the time can change -/

/-- As long as a type keeps its status, its entry keeps its time. -/
theorem lastTransitionTime_mergeAll_append {applied more : List Condition} {entry : Condition}
    (hentry : (mergeAll applied).find? (·.type = entry.type) = some entry)
    (hmore : ∀ c ∈ more, c.type = entry.type → c.status = entry.status) :
    ∃ last, (mergeAll (applied ++ more)).find? (·.type = entry.type) = some last ∧
      last.status = entry.status ∧ last.lastTransitionTime = entry.lastTransitionTime := by
  induction more using List.reverseRecOn with
  | nil => exact ⟨entry, by rwa [List.append_nil], rfl, rfl⟩
  | append_singleton more c ih =>
      obtain ⟨last, hfind, hstatus, htime⟩ := ih fun d hd => hmore d (List.mem_append_left _ hd)
      rw [← List.append_assoc, mergeAll_snoc]
      by_cases htype : c.type = entry.type
      · have hc : c.status = entry.status := hmore c (by simp) htype
        have hmerged := find?_merge_self c (mergeAll (applied ++ more))
        rw [htype, hfind, Option.elim_some, replacing, if_pos (hstatus.trans hc.symm)] at hmerged
        exact ⟨_, hmerged, hc, htime⟩
      · rw [find?_merge_ne (fun h => htype h.symm)]
        exact ⟨last, hfind, hstatus, htime⟩

/-- **What a history leaves.** Each type that was applied has one entry, in the order of their
first conditions. It is the last condition of its type with the time of the first one since which
the status has been the same, so that only another status of its own type brings a new time. -/
theorem history_of_merging (applied : List Condition) :
    (mergeAll applied).map (·.type) = (applied.map (·.type)).eraseDups ∧
      (∀ entry ∈ mergeAll applied, ∃ first later,
        EndsInRun (applied.filter (·.type = entry.type)) first later ∧
          entry = ofRun first later) ∧
      ∀ entry ∈ mergeAll applied, ∀ more : List Condition,
        (∀ c ∈ more, c.type = entry.type → c.status = entry.status) →
          ∃ last ∈ mergeAll (applied ++ more), last.type = entry.type ∧
            last.lastTransitionTime = entry.lastTransitionTime := by
  refine ⟨map_type_mergeAll applied, ?_, ?_⟩
  · intro entry hentry
    have hstands := stands_mergeAll applied entry.type
    rw [(mem_iff_find? (nodup_mergeAll applied)).mp hentry] at hstands
    exact hstands.eq_ofRun
  · intro entry hentry more hmore
    have hfind := (mem_iff_find? (nodup_mergeAll applied)).mp hentry
    obtain ⟨last, hlast, _, htime⟩ := lastTransitionTime_mergeAll_append hfind hmore
    exact ⟨last, List.mem_of_find?_eq_some hlast, by simpa using List.find?_some hlast, htime⟩

/-- One type turns false and is then worded anew, with another type in between. -/
def rewording : List Condition := [
  { type := "Ready", status := "True", lastTransitionTime := some "t0" },
  { type := "Ready", status := "False", message := some "no", lastTransitionTime := some "t1" },
  { type := "Synced", status := "True", lastTransitionTime := some "t2" },
  { type := "Ready", status := "False", message := some "gone", lastTransitionTime := some "t3" }]

/-- What was worded anew has the time at which it turned. -/
def reworded : Condition :=
  { type := "Ready", status := "False", message := some "gone", lastTransitionTime := some "t1" }

theorem rewording_keeps_time :
    reworded ∈ mergeAll rewording ∧ ∃ first later,
      EndsInRun (rewording.filter (·.type = reworded.type)) first later ∧
        reworded = ofRun first later :=
  have hmem : reworded ∈ mergeAll rewording := by decide
  ⟨hmem, (history_of_merging rewording).2.1 reworded hmem⟩

end Condition

end SecretsWarden.Resource
