import SecretsWarden.Json.MergePatch

/-!
# Paths into a JSON value

A path of names leads through nested objects. Binding a name changes what that name leads to and
nothing else.
-/

namespace SecretsWarden.Json

namespace Value

@[simp] theorem at?_nil (v : Value) : v.at? [] = some v := rfl

theorem at?_cons (v : Value) (name : String) (path : List String) :
    v.at? (name :: path) = (v.get? name).bind (·.at? path) := rfl

theorem at?_singleton (v : Value) (name : String) : v.at? [name] = v.get? name := by
  rw [at?_cons]
  cases v.get? name <;> rfl

theorem at?_append (v : Value) (path rest : List String) :
    v.at? (path ++ rest) = (v.at? path).bind (·.at? rest) := by
  induction path generalizing v with
  | nil => rfl
  | cons name path ih =>
      simp only [List.cons_append, at?_cons]
      cases v.get? name with
      | none => rfl
      | some w => exact ih w

theorem mem_names {v : Value} {name : String} :
    name ∈ v.names ↔ (v.get? name).isSome = true := by
  cases v with
  | object members => simp [names, get?, List.lookup_isSome_iff]
  | _ => simp [names, get?]

/-! ## Binding and unbinding -/

theorem lookup_cons_eq_ite {α : Type} (key name : String) (a : α) (rest : List (String × α)) :
    ((name, a) :: rest).lookup key = if key = name then some a else rest.lookup key := by
  rw [List.lookup_cons]
  by_cases h : key = name
  · simp [h]
  · rw [if_neg h, beq_eq_false_iff_ne.mpr h]

theorem lookup_bind (name key : String) (v : Value) (members : List (String × Value)) :
    (bind name v members).lookup key = if key = name then some v else members.lookup key := by
  induction members with
  | nil => exact lookup_cons_eq_ite key name v []
  | cons m rest ih =>
      obtain ⟨n, w⟩ := m
      unfold bind
      by_cases hn : n = name
      · subst hn
        by_cases h : key = n <;> simp [lookup_cons_eq_ite, h]
      · rw [if_neg hn, lookup_cons_eq_ite, lookup_cons_eq_ite, ih]
        by_cases hk : key = n
        · simp [hk, hn]
        · simp [hk]

@[simp] theorem lookup_bind_self (name : String) (v : Value) (members : List (String × Value)) :
    (bind name v members).lookup name = some v := by
  rw [lookup_bind, if_pos rfl]

theorem lookup_bind_ne {name key : String} (h : key ≠ name) (v : Value)
    (members : List (String × Value)) : (bind name v members).lookup key = members.lookup key := by
  rw [lookup_bind, if_neg h]

/-- Binding a name to what it has already changes nothing. -/
theorem bind_of_lookup {name : String} {v : Value} {members : List (String × Value)}
    (h : members.lookup name = some v) : bind name v members = members := by
  induction members with
  | nil => cases h
  | cons m rest ih =>
      obtain ⟨n, w⟩ := m
      rw [lookup_cons_eq_ite] at h
      unfold bind
      by_cases hn : n = name
      · rw [if_pos hn.symm] at h
        rw [if_pos hn, Option.some.inj h]
      · rw [if_neg (Ne.symm hn)] at h
        rw [if_neg hn, ih h]

theorem lookup_unbind_ne {name key : String} (h : key ≠ name) (members : List (String × Value)) :
    (unbind name members).lookup key = members.lookup key := by
  induction members with
  | nil => rfl
  | cons m rest ih =>
      obtain ⟨n, w⟩ := m
      unfold unbind at ih ⊢
      by_cases hn : n = name
      · subst hn
        rw [List.filter_cons_of_neg (by simp), lookup_cons_eq_ite, if_neg h, ih]
      · rw [List.filter_cons_of_pos (by simpa using hn), lookup_cons_eq_ite, lookup_cons_eq_ite, ih]

end Value

end SecretsWarden.Json
