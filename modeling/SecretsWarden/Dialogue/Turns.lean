/-!
# Taking turns

Those who act at times of their own take turns: the earliest one comes next, and of those that
are due at one time the first in the list.
-/

namespace SecretsWarden

/-- The first of the earliest. -/
def earliest? : List (Nat × α) → Option (Nat × α)
  | [] => none
  | t :: rest =>
    match earliest? rest with
    | some u => if u.1 < t.1 then some u else some t
    | none => some t

/-- How many turns are taken in some time at most. There are few in a millisecond. -/
def turnLimit (millis : Nat) : Nat := 100 * (millis + 1000)

theorem earliest?_eq_none_iff {ts : List (Nat × α)} : earliest? ts = none ↔ ts = [] := by
  cases ts with
  | nil => simp [earliest?]
  | cons t rest =>
    simp only [earliest?]
    split
    · split <;> simp
    · simp

theorem mem_of_earliest? {ts : List (Nat × α)} {t : Nat × α} (h : earliest? ts = some t) :
    t ∈ ts := by
  fun_induction earliest? ts generalizing t with
  | case1 => simp at h
  | case2 => simp_all
  | case3 => simp_all
  | case4 => simp_all

/-- Nobody else is due before the one whose turn it is. -/
theorem earliest?_le {ts : List (Nat × α)} {t u : Nat × α} (h : earliest? ts = some t)
    (hu : u ∈ ts) : t.1 ≤ u.1 := by
  fun_induction earliest? ts generalizing t with
  | case1 => simp at h
  | case2 a rest b hb hlt ih =>
    obtain rfl := Option.some.inj h
    rcases List.mem_cons.1 hu with rfl | hu
    · omega
    · exact ih hb hu
  | case3 a rest b hb hlt ih =>
    obtain rfl := Option.some.inj h
    rcases List.mem_cons.1 hu with rfl | hu
    · omega
    · have := ih hb hu
      omega
  | case4 a rest hb =>
    obtain rfl := Option.some.inj h
    obtain rfl := earliest?_eq_none_iff.1 hb
    simp_all

end SecretsWarden
