import SecretsWarden.Json.Decode
import SecretsWarden.Proofs.Json.Path

/-!
# Reading after a member was bound

A member that was bound is read from its new value, and reading any other member gives what it
gave before.
-/

namespace SecretsWarden.Json

open Value

variable {α : Type} {members : List (String × Value)} {name key : String} {v : Value}
  {read : Value → Option α}

@[simp] theorem required_bind_self : required (bind name v members) name read = read v := by
  rw [required, lookup_bind_self, Option.bind_some]

theorem required_bind_ne (h : key ≠ name) :
    required (bind name v members) key read = required members key read := by
  rw [required, required, lookup_bind_ne h]

@[simp] theorem defaulted_bind_self {a : α} :
    defaulted (bind name v members) name a read = read v := by
  rw [defaulted, lookup_bind_self]

theorem optional_of_lookup (h : members.lookup name = some v) (hv : v ≠ .null) :
    Json.optional members name read = (read v).map some := by
  unfold Json.optional
  rw [h]
  split
  · rename_i hnone
    cases hnone
  · rename_i hnull
    cases hnull
    exact absurd rfl hv
  · rename_i hsome
    cases hsome
    rfl

theorem optional_bind_self (hv : v ≠ .null) :
    Json.optional (bind name v members) name read = (read v).map some :=
  optional_of_lookup (lookup_bind_self name v members) hv

theorem optional_bind_ne (h : key ≠ name) :
    Json.optional (bind name v members) key read = Json.optional members key read := by
  unfold Json.optional
  rw [lookup_bind_ne h]

/-- A member that was read is there and not null, unless it was left out. -/
theorem optional_eq_some {a : Option α} (h : Json.optional members name read = some a) :
    (a = none ∧ (members.lookup name = none ∨ members.lookup name = some .null)) ∨
      ∃ v b, a = some b ∧ members.lookup name = some v ∧ v ≠ .null ∧ read v = some b := by
  unfold Json.optional at h
  split at h
  · rename_i hlookup
    exact Or.inl ⟨(Option.some.inj h).symm, Or.inl hlookup⟩
  · rename_i hlookup
    exact Or.inl ⟨(Option.some.inj h).symm, Or.inr hlookup⟩
  · rename_i v hnull hlookup
    obtain ⟨b, hread, rfl⟩ := Option.map_eq_some_iff.mp h
    exact Or.inr ⟨v, b, rfl, hlookup, hnull, hread⟩

end SecretsWarden.Json
