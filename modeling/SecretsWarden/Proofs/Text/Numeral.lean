import Mathlib.Data.Nat.Digits.Defs
import SecretsWarden.Text.Numeral

/-!
# What counts as a numeral

The reader goes through the characters with the value so far in hand and gives up on the first
digit that takes it past the limit. Here numerals are described without a reader: a sign that
may be missing, at least one digit, and the number in base ten. The value never falls as digits
are read, so giving up early refuses only what is too large as a whole; zeros in front do not
count.
-/

namespace SecretsWarden.Text

/-- The string writes the number: at most one plus sign, then at least one ASCII digit, the most
significant one first. -/
def Writes (s : String) (n : Nat) : Prop :=
  ∃ sign digits : List Char,
    s.toList = sign ++ digits ∧ (sign = [] ∨ sign = ['+']) ∧ digits ≠ [] ∧
      (∀ c ∈ digits, c.isDigit) ∧
      n = Nat.ofDigits 10 (digits.reverse.map fun c => c.toNat - '0'.toNat)

/-! ## Digits -/

/-- What a value becomes when digits follow it. -/
def followedBy (value : Nat) (cs : List Char) : Nat :=
  cs.foldl (fun n c => 10 * n + (c.toNat - '0'.toNat)) value

@[simp] theorem followedBy_nil (value : Nat) : followedBy value [] = value := rfl

theorem followedBy_cons (value : Nat) (c : Char) (cs : List Char) :
    followedBy value (c :: cs) = followedBy (10 * value + (c.toNat - '0'.toNat)) cs := by
  unfold followedBy
  rw [List.foldl_cons]

theorem le_followedBy (value : Nat) (cs : List Char) : value ≤ followedBy value cs := by
  induction cs generalizing value with
  | nil => exact Nat.le_refl value
  | cons c cs ih =>
      rw [followedBy_cons]
      have h := ih (10 * value + (c.toNat - '0'.toNat))
      omega

theorem followedBy_zero (cs : List Char) :
    followedBy 0 cs = Nat.ofDigits 10 (cs.reverse.map fun c => c.toNat - '0'.toNat) := by
  rw [followedBy, List.foldl_eq_foldr_reverse, Nat.ofDigits_eq_foldr, List.foldr_map]
  simp only [Nat.cast_id, Nat.add_comm]

theorem readDigits_eq_ok {max value : Nat} (h : value ≤ max) {cs : List Char} {n : Nat} :
    readDigits max value cs = .ok n ↔
      (∀ c ∈ cs, c.isDigit) ∧ n = followedBy value cs ∧ n ≤ max := by
  induction cs generalizing value with
  | nil =>
      constructor
      · rintro ⟨⟩
        exact ⟨by simp, rfl, h⟩
      · rintro ⟨-, rfl, -⟩
        rfl
  | cons c cs ih =>
      rw [readDigits, followedBy_cons]
      by_cases hc : c.isDigit
      · by_cases hmax : 10 * value + (c.toNat - '0'.toNat) ≤ max
        · simp only [hc, if_true, hmax, ih hmax, List.forall_mem_cons, true_and]
        · -- The digits that follow cannot bring the value down again.
          have hle := le_followedBy (10 * value + (c.toNat - '0'.toNat)) cs
          simp only [hc, if_true, hmax, if_false, reduceCtorEq, false_iff]
          rintro ⟨-, rfl, hn⟩
          omega
      · simp [hc]

/-! ## Numerals -/

/-- A plus sign in front is passed over. -/
theorem readNumeral_eq_readDigits {max : Nat} {s : String} {sign digits : List Char}
    (hs : s.toList = sign ++ digits) (hsign : sign = [] ∨ sign = ['+']) (hne : digits ≠ [])
    (hd : ∀ c ∈ digits, c.isDigit) : readNumeral max s = readDigits max 0 digits := by
  obtain ⟨d, ds, rfl⟩ := List.exists_cons_of_ne_nil hne
  have hplus : d ≠ '+' := by
    rintro rfl
    exact absurd (hd '+' (by simp)) (by decide)
  unfold readNumeral
  rcases hsign with rfl | rfl
  · rw [List.nil_append] at hs
    rw [hs]
    split <;> simp_all
  · rw [List.singleton_append] at hs
    simp only [hs]

/-- **The reader takes the numerals up to its limit, and no other text.** -/
theorem readNumeral_eq_ok {max : Nat} {s : String} {n : Nat} :
    readNumeral max s = .ok n ↔ Writes s n ∧ n ≤ max := by
  constructor
  · intro h
    suffices ∃ sign digits : List Char, s.toList = sign ++ digits ∧
        (sign = [] ∨ sign = ['+']) ∧ digits ≠ [] ∧ readDigits max 0 digits = .ok n by
      obtain ⟨sign, digits, hs, hsign, hne, hread⟩ := this
      obtain ⟨hd, hn, hmax⟩ := (readDigits_eq_ok (Nat.zero_le max)).mp hread
      exact ⟨⟨sign, digits, hs, hsign, hne, hd, hn.trans (followedBy_zero digits)⟩, hmax⟩
    unfold readNumeral at h
    split at h
    · cases h
    · cases h
    · next cs hcs hs => exact ⟨['+'], cs, hs, .inr rfl, by rintro rfl; exact hcs rfl, h⟩
    · next hempty _ _ => exact ⟨[], s.toList, rfl, .inl rfl, hempty, h⟩
  · rintro ⟨⟨sign, digits, hs, hsign, hne, hd, hn⟩, hmax⟩
    rw [readNumeral_eq_readDigits hs hsign hne hd, readDigits_eq_ok (Nat.zero_le max)]
    exact ⟨hd, hn.trans (followedBy_zero digits).symm, hmax⟩

end SecretsWarden.Text
