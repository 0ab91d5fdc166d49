import Mathlib.Tactic.SplitIfs
import SecretsWarden.Text.Utf8

/-!
# The decoder reads UTF-8

What bytes say is settled apart from the decoder: they say a string if they are its encoding.
The decoder carries the bounds of the next byte in its state. What it takes for one character is
the encoding of that character, and it takes the encoding of every character for it; the rest is
an induction over the characters.
-/

namespace SecretsWarden.Text

/-! ## One character -/

/-- The bytes that close an open sequence, and the code point to which they bring its bits. -/
inductive Closes : (bits low high following : Nat) → List UInt8 → Nat → Prop
  | last {bits low high code : Nat} {b : UInt8} (hlow : low ≤ b.toNat) (hhigh : b.toNat ≤ high)
      (hcode : code = bits * 0x40 + b.toNat % 0x40) : Closes bits low high 0 [b] code
  | more {bits low high following code : Nat} {b : UInt8} {bs : List UInt8}
      (hlow : low ≤ b.toNat) (hhigh : b.toNat ≤ high)
      (hbs : Closes (bits * 0x40 + b.toNat % 0x40) 0x80 0xbf following bs code) :
      Closes bits low high (following + 1) (b :: bs) code

/-- The bytes that the decoder takes for one character, and its code point. -/
inductive TakenFor : List UInt8 → Nat → Prop
  | single {code : Nat} {b : UInt8} (hb : b.toNat < 0x80) (hcode : code = b.toNat) :
      TakenFor [b] code
  | several {low high following code : Nat} {b : UInt8} {bs : List UInt8}
      (hlead : utf8Lead? b.toNat = some (low, high, following))
      (hbs : Closes (utf8LeadBits b.toNat (following + 1)) low high following bs code) :
      TakenFor (b :: bs) code

theorem exists_bounds {l h f m following : Nat} :
    (∃ low high, some (l, h, f) = some (low, high, following) ∧ low ≤ m ∧ m ≤ high) ↔
      following = f ∧ l ≤ m ∧ m ≤ h := by
  constructor
  · rintro ⟨low, high, ⟨⟩, hlow, hhigh⟩
    exact ⟨rfl, hlow, hhigh⟩
  · rintro ⟨rfl, hlow, hhigh⟩
    exact ⟨l, h, rfl, hlow, hhigh⟩

/-- What a first byte asks of the second one. The narrower bounds keep out what is written longer
than it need be, the surrogates, and what lies past the last code point. -/
theorem utf8Lead?_bounds {n m following : Nat} :
    (∃ low high, utf8Lead? n = some (low, high, following) ∧ low ≤ m ∧ m ≤ high) ↔
      0x80 ≤ m ∧ m ≤ 0xbf ∧
        (following = 0 ∧ 0xc2 ≤ n ∧ n ≤ 0xdf ∨
          following = 1 ∧ 0xe0 ≤ n ∧ n ≤ 0xef ∧ (n = 0xe0 → 0xa0 ≤ m) ∧ (n = 0xed → m ≤ 0x9f) ∨
          following = 2 ∧ 0xf0 ≤ n ∧ n ≤ 0xf4 ∧ (n = 0xf0 → 0x90 ≤ m) ∧
            (n = 0xf4 → m ≤ 0x8f)) := by
  unfold utf8Lead?
  split_ifs
  all_goals simp only [exists_bounds, false_and, exists_false, false_iff]
  all_goals omega

theorem not_lt_of_utf8Lead? {n : Nat} {bounds : Nat × Nat × Nat} (h : utf8Lead? n = some bounds) :
    ¬ n < 0x80 := by
  unfold utf8Lead? at h
  split_ifs at h
  all_goals omega

/-- The encoding of a character, from its code point. -/
theorem utf8EncodeChar_ofNat {code : Nat} (h : code.isValidChar) :
    String.utf8EncodeChar (Char.ofNat code) =
      if code ≤ 0x7f then [UInt8.ofNat code]
      else if code ≤ 0x7ff then
        [UInt8.ofNat (code / 64 % 0x20 + 0xc0), UInt8.ofNat (code % 0x40 + 0x80)]
      else if code ≤ 0xffff then
        [UInt8.ofNat (code / 4096 % 0x10 + 0xe0), UInt8.ofNat (code / 64 % 0x40 + 0x80),
          UInt8.ofNat (code % 0x40 + 0x80)]
      else
        [UInt8.ofNat (code / 262144 % 0x08 + 0xf0), UInt8.ofNat (code / 4096 % 0x40 + 0x80),
          UInt8.ofNat (code / 64 % 0x40 + 0x80), UInt8.ofNat (code % 0x40 + 0x80)] := by
  have hval : (Char.ofNat code).val.toNat = code := by
    rw [Char.ofNat, dif_pos h]
    rfl
  unfold String.utf8EncodeChar
  rw [hval]

/-- What the decoder takes for a character is the encoding of that character. -/
theorem TakenFor.eq_encode {bytes : List UInt8} {code : Nat} (h : TakenFor bytes code) :
    bytes = String.utf8EncodeChar (Char.ofNat code) := by
  cases h with
  | single hb hcode =>
      subst hcode
      rw [utf8EncodeChar_ofNat (.inl (by omega)), if_pos (by omega), UInt8.ofNat_toNat]
  | several hlead hbs =>
      cases hbs with
      | last hlow hhigh hcode =>
          have hlead := utf8Lead?_bounds.mp ⟨_, _, hlead, hlow, hhigh⟩
          simp only [utf8LeadBits, Nat.reduceAdd, if_true] at hcode
          rw [utf8EncodeChar_ofNat (.inl (by omega)), if_neg (by omega), if_pos (by omega)]
          simp only [List.cons.injEq, and_true, ← UInt8.toNat_inj, UInt8.toNat_ofNat']
          omega
      | more hlow hhigh hbs =>
          have hlead := utf8Lead?_bounds.mp ⟨_, _, hlead, hlow, hhigh⟩
          cases hbs with
          | last hlow' hhigh' hcode =>
              simp only [utf8LeadBits, Nat.reduceAdd, Nat.reduceEqDiff, if_true, if_false] at hcode
              rw [utf8EncodeChar_ofNat (by unfold Nat.isValidChar; omega), if_neg (by omega),
                if_neg (by omega), if_pos (by omega)]
              simp only [List.cons.injEq, and_true, ← UInt8.toNat_inj, UInt8.toNat_ofNat']
              omega
          | more hlow' hhigh' hbs =>
              cases hbs with
              | last hlow'' hhigh'' hcode =>
                  simp only [utf8LeadBits, Nat.reduceAdd, Nat.reduceEqDiff, if_false] at hcode
                  rw [utf8EncodeChar_ofNat (by unfold Nat.isValidChar; omega), if_neg (by omega),
                    if_neg (by omega), if_neg (by omega)]
                  simp only [List.cons.injEq, and_true, ← UInt8.toNat_inj, UInt8.toNat_ofNat']
                  omega
              | more _ _ _ => omega

theorem exists_byte {n : Nat} (h : n < 0x100) : ∃ b : UInt8, UInt8.ofNat n = b ∧ b.toNat = n :=
  ⟨UInt8.ofNat n, rfl, by rw [UInt8.toNat_ofNat']; omega⟩

/-- The decoder takes the encoding of a character for that character. -/
theorem takenFor_encode (c : Char) : TakenFor (String.utf8EncodeChar c) c.toNat := by
  have h : c.toNat.isValidChar := c.valid
  have hencode := utf8EncodeChar_ofNat h
  rw [Char.ofNat_toNat] at hencode
  rw [hencode]
  generalize c.toNat = code at h ⊢
  unfold Nat.isValidChar at h
  obtain ⟨t, ht, htn⟩ := exists_byte (show code % 0x40 + 0x80 < 0x100 by omega)
  obtain ⟨u, hu, hun⟩ := exists_byte (show code / 64 % 0x40 + 0x80 < 0x100 by omega)
  obtain ⟨v, hv, hvn⟩ := exists_byte (show code / 4096 % 0x40 + 0x80 < 0x100 by omega)
  rw [ht, hu, hv]
  split_ifs with h₁ h₂ h₃
  · obtain ⟨b, hb, hbn⟩ := exists_byte (show code < 0x100 by omega)
    rw [hb]
    exact .single (by omega) (by omega)
  · obtain ⟨b, hb, hbn⟩ := exists_byte (show code / 64 % 0x20 + 0xc0 < 0x100 by omega)
    obtain ⟨low, high, hlead, hlow, hhigh⟩ : ∃ low high, utf8Lead? b.toNat = some (low, high, 0) ∧
        low ≤ t.toNat ∧ t.toNat ≤ high := utf8Lead?_bounds.mpr (by omega)
    rw [hb]
    refine .several hlead (.last hlow hhigh ?_)
    simp only [utf8LeadBits, Nat.reduceAdd, if_true]
    omega
  · obtain ⟨b, hb, hbn⟩ := exists_byte (show code / 4096 % 0x10 + 0xe0 < 0x100 by omega)
    obtain ⟨low, high, hlead, hlow, hhigh⟩ : ∃ low high, utf8Lead? b.toNat = some (low, high, 1) ∧
        low ≤ u.toNat ∧ u.toNat ≤ high := utf8Lead?_bounds.mpr (by omega)
    rw [hb]
    refine .several hlead (.more hlow hhigh (.last (by omega) (by omega) ?_))
    simp only [utf8LeadBits, Nat.reduceAdd, Nat.reduceEqDiff, if_true, if_false]
    omega
  · obtain ⟨b, hb, hbn⟩ := exists_byte (show code / 262144 % 0x08 + 0xf0 < 0x100 by omega)
    obtain ⟨low, high, hlead, hlow, hhigh⟩ : ∃ low high, utf8Lead? b.toNat = some (low, high, 2) ∧
        low ≤ v.toNat ∧ v.toNat ≤ high := utf8Lead?_bounds.mpr (by omega)
    rw [hb]
    refine .several hlead (.more hlow hhigh (.more (by omega) (by omega)
      (.last (by omega) (by omega) ?_)))
    simp only [utf8LeadBits, Nat.reduceAdd, Nat.reduceEqDiff, if_false]
    omega

/-! ## All characters -/

theorem readUtf8_of_closes {bits low high following code : Nat} {bs : List UInt8}
    (h : Closes bits low high following bs code) (index start length : Nat) (read : List Char)
    (rest : List UInt8) :
    readUtf8 index (.within start length bits low high following) read (bs ++ rest) =
      readUtf8 (index + bs.length) .between (Char.ofNat code :: read) rest := by
  induction h generalizing index length with
  | last hlow hhigh hcode =>
      subst hcode
      rw [List.singleton_append, readUtf8, if_pos ⟨hlow, hhigh⟩, if_pos rfl]
      rfl
  | @more bits low high following code b bs hlow hhigh _ ih =>
      rw [List.cons_append, readUtf8, if_pos ⟨hlow, hhigh⟩, if_neg (Nat.succ_ne_zero following),
        Nat.add_sub_cancel, ih, List.length_cons]
      congr 1
      omega

theorem readUtf8_of_takenFor {bs : List UInt8} {code : Nat} (h : TakenFor bs code) (index : Nat)
    (read : List Char) (rest : List UInt8) :
    readUtf8 index .between read (bs ++ rest) =
      readUtf8 (index + bs.length) .between (Char.ofNat code :: read) rest := by
  cases h with
  | single hb hcode =>
      subst hcode
      rw [List.singleton_append, readUtf8, if_pos hb]
      rfl
  | @several low high following code b bs hlead hbs =>
      have hb : ¬ b.toNat < 0x80 := not_lt_of_utf8Lead? hlead
      rw [List.cons_append, readUtf8]
      simp only [hb, if_false, hlead]
      rw [readUtf8_of_closes hbs, List.length_cons]
      congr 1
      omega

theorem exists_closes_of_ok {index start length bits low high following : Nat} {read : List Char}
    {bytes : List UInt8} {s : String}
    (h : readUtf8 index (.within start length bits low high following) read bytes = .ok s) :
    ∃ bs rest code, bytes = bs ++ rest ∧ Closes bits low high following bs code := by
  induction bytes generalizing index length bits low high following with
  | nil => cases h
  | cons b bytes ih =>
      rw [readUtf8] at h
      split_ifs at h with hbounds hlast
      · subst hlast
        exact ⟨[b], bytes, _, rfl, .last hbounds.1 hbounds.2 rfl⟩
      · obtain ⟨bs, rest, code, rfl, hbs⟩ := ih h
        obtain ⟨following, rfl⟩ := Nat.exists_eq_succ_of_ne_zero hlast
        exact ⟨b :: bs, rest, code, rfl, .more hbounds.1 hbounds.2 hbs⟩

theorem exists_takenFor_of_ok {index : Nat} {read : List Char} {bytes : List UInt8} {s : String}
    (h : readUtf8 index .between read bytes = .ok s) (hne : bytes ≠ []) :
    ∃ bs rest code, bytes = bs ++ rest ∧ TakenFor bs code := by
  obtain ⟨b, bytes, rfl⟩ := List.exists_cons_of_ne_nil hne
  rw [readUtf8] at h
  by_cases hb : b.toNat < 0x80
  · exact ⟨[b], bytes, _, rfl, .single hb rfl⟩
  · simp only [hb, if_false] at h
    cases hlead : utf8Lead? b.toNat with
    | none =>
        rw [hlead] at h
        cases h
    | some bounds =>
        obtain ⟨low, high, following⟩ := bounds
        rw [hlead] at h
        obtain ⟨bs, rest, code, rfl, hbs⟩ := exists_closes_of_ok h
        exact ⟨b :: bs, rest, code, rfl, .several hlead hbs⟩

theorem readUtf8_encode (index : Nat) (read cs : List Char) :
    readUtf8 index .between read (cs.flatMap String.utf8EncodeChar) =
      .ok (String.ofList (read.reverse ++ cs)) := by
  induction cs generalizing index read with
  | nil => rw [List.flatMap_nil, List.append_nil, readUtf8]
  | cons c cs ih =>
      rw [List.flatMap_cons, readUtf8_of_takenFor (takenFor_encode c), ih, Char.ofNat_toNat, List.reverse_cons,
        List.append_assoc, List.singleton_append]

theorem exists_encode_of_ok {index : Nat} {read : List Char} {bytes : List UInt8} {s : String}
    (h : readUtf8 index .between read bytes = .ok s) :
    ∃ cs : List Char, bytes = cs.flatMap String.utf8EncodeChar := by
  induction hn : bytes.length using Nat.strongRecOn generalizing index read bytes with
  | _ n ih =>
      by_cases hne : bytes = []
      · exact ⟨[], hne⟩
      · obtain ⟨bs, rest, code, rfl, hbs⟩ := exists_takenFor_of_ok h hne
        rw [readUtf8_of_takenFor hbs] at h
        have hpos : 0 < bs.length := by cases hbs <;> simp
        obtain ⟨cs, rfl⟩ := ih rest.length (by rw [← hn, List.length_append]; omega) h rfl
        exact ⟨Char.ofNat code :: cs, by rw [hbs.eq_encode, List.flatMap_cons]⟩

/-- **The decoder yields a string exactly for its encoding.** -/
theorem decodeUtf8_eq_ok {bytes : List UInt8} {s : String} :
    decodeUtf8 bytes = .ok s ↔ bytes.toByteArray = s.toByteArray := by
  have hencode : s.toByteArray = (s.toList.flatMap String.utf8EncodeChar).toByteArray := by
    rw [← String.utf8Encode_toList, List.utf8Encode]
  rw [hencode, List.toByteArray_inj]
  constructor
  · intro h
    obtain ⟨cs, rfl⟩ := exists_encode_of_ok h
    rw [decodeUtf8, readUtf8_encode] at h
    cases h
    rw [List.reverse_nil, List.nil_append, String.toList_ofList]
  · rintro rfl
    rw [decodeUtf8, readUtf8_encode, List.reverse_nil, List.nil_append, String.ofList_toList]

/-- The decoder and the library accept the same bytes, and make the same string of them. -/
theorem toOption_decodeUtf8 (bytes : List UInt8) :
    (decodeUtf8 bytes).toOption = String.fromUTF8? bytes.toByteArray := by
  unfold String.fromUTF8?
  cases h : decodeUtf8 bytes with
  | ok s =>
      have hs := decodeUtf8_eq_ok.mp h
      have hvalid : bytes.toByteArray.IsValidUTF8 := hs ▸ s.isValidUTF8
      rw [dif_pos hvalid]
      exact congrArg some (String.toByteArray_inj.mp hs.symm)
  | error fault =>
      have hinvalid : ¬ bytes.toByteArray.IsValidUTF8 := by
        intro hvalid
        have hs : decodeUtf8 bytes = .ok (String.fromUTF8 bytes.toByteArray hvalid) :=
          decodeUtf8_eq_ok.mpr rfl
        rw [h] at hs
        cases hs
      rw [dif_neg hinvalid]
      rfl

end SecretsWarden.Text
