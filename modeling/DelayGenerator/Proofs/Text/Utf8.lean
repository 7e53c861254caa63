/-
This file reads back text in UTF-8: the bytes of a character are decoded as this character, whatever
stands behind them.
-/

import DelayGenerator.Text.Utf8
import Mathlib.Tactic.IntervalCases

namespace DelayGenerator.Text

/-- What a byte that begins two, three or four bytes announces. -/
theorem lead?_two {high : Nat} (low : 2 ≤ high) (below : high < 32) :
    lead? (UInt8.ofNat (high % 32 + 0xC0)) = some ⟨1, high, 0x80, 0xBF⟩ := by
  interval_cases high <;> rfl

theorem lead?_three {high : Nat} (below : high < 16) :
    lead? (UInt8.ofNat (high % 16 + 0xE0)) =
      some ⟨2, high, if high = 0 then 0xA0 else 0x80, if high = 13 then 0x9F else 0xBF⟩ := by
  interval_cases high <;> rfl

theorem lead?_four {high : Nat} (below : high < 5) :
    lead? (UInt8.ofNat (high % 8 + 0xF0)) =
      some ⟨3, high, if high = 0 then 0x90 else 0x80, if high = 4 then 0x8F else 0xBF⟩ := by
  interval_cases high <;> rfl

section

variable {lead : Lead} {byte : UInt8} {rest : List UInt8}

theorem decodeUtf8With_ascii (ascii : byte < 0x80) :
    decodeUtf8With none (byte :: rest) = Char.ofNat byte.toNat :: decodeUtf8With none rest := by
  rw [decodeUtf8With, if_pos ascii]

/-- A byte that announces others is no character by itself. -/
theorem decodeUtf8With_lead (announces : lead? byte = some lead) :
    decodeUtf8With none (byte :: rest) = decodeUtf8With (some lead) rest := by
  have high : ¬ byte < 0x80 := by
    intro ascii
    have small : byte.toNat < 0x80 := UInt8.lt_iff_toNat_lt.mp ascii
    rw [lead?] at announces
    grind
  rw [decodeUtf8With, if_neg high, announces]

/-- A byte that may follow goes on with the character under way. -/
theorem decodeUtf8With_following (least : lead.least ≤ byte) (greatest : byte ≤ lead.greatest)
    (more : 1 < lead.following) :
    decodeUtf8With (some lead) (byte :: rest) =
      decodeUtf8With (some ⟨lead.following - 1, lead.payload * 64 + (byte.toNat - 0x80), 0x80, 0xBF⟩) rest := by
  rw [decodeUtf8With, if_pos (by simp [least, greatest])]
  exact if_neg (Nat.not_le_of_lt more)

/-- The last byte that follows completes the character. -/
theorem decodeUtf8With_last (least : lead.least ≤ byte) (greatest : byte ≤ lead.greatest)
    (last : lead.following ≤ 1) :
    decodeUtf8With (some lead) (byte :: rest) =
      Char.ofNat (lead.payload * 64 + (byte.toNat - 0x80)) :: decodeUtf8With none rest := by
  rw [decodeUtf8With, if_pos (by simp [least, greatest])]
  exact if_pos last

end

/-- The byte that stands behind the first one for the six bits of a number. -/
def following (value : Nat) : UInt8 := UInt8.ofNat (value % 64 + 0x80)

theorem toNat_following (value : Nat) : (following value).toNat = value % 64 + 0x80 :=
  UInt8.toNat_ofNat_of_lt' (show value % 64 + 0x80 < 256 by omega)

theorem following_bounds (value : Nat) : 0x80 ≤ following value ∧ following value ≤ 0xBF := by
  simp only [UInt8.le_iff_toNat_le, toNat_following]
  change 0x80 ≤ value % 64 + 0x80 ∧ value % 64 + 0x80 ≤ 0xBF
  omega

section

variable {value : Nat} {special : Prop} [Decidable special] {bound : UInt8}

/-- Some first bytes narrow the range of the byte that follows next. -/
theorem le_following (narrow : special → bound.toNat ≤ value % 64 + 0x80) :
    (if special then bound else 0x80) ≤ following value := by
  split
  next here =>
    rw [UInt8.le_iff_toNat_le, toNat_following]
    exact narrow here
  next => exact (following_bounds value).1

theorem following_le (narrow : special → value % 64 + 0x80 ≤ bound.toNat) :
    following value ≤ (if special then bound else 0xBF) := by
  split
  next here =>
    rw [UInt8.le_iff_toNat_le, toNat_following]
    exact narrow here
  next => exact (following_bounds value).2

end

/-- The bytes of a character, by its size. -/
theorem utf8EncodeChar_cases (character : Char) :
    (character.toNat < 0x80 ∧ String.utf8EncodeChar character = [UInt8.ofNat character.toNat]) ∨
    (0x80 ≤ character.toNat ∧ character.toNat < 0x800 ∧ String.utf8EncodeChar character =
      [UInt8.ofNat (character.toNat / 64 % 32 + 0xC0), following character.toNat]) ∨
    (0x800 ≤ character.toNat ∧ character.toNat < 0x10000 ∧ String.utf8EncodeChar character =
      [UInt8.ofNat (character.toNat / 4096 % 16 + 0xE0), following (character.toNat / 64),
        following character.toNat]) ∨
    (0x10000 ≤ character.toNat ∧ String.utf8EncodeChar character =
      [UInt8.ofNat (character.toNat / 262144 % 8 + 0xF0), following (character.toNat / 4096),
        following (character.toNat / 64), following character.toNat]) := by
  have same : character.val.toNat = character.toNat := rfl
  rw [String.utf8EncodeChar, same]
  split
  · exact Or.inl ⟨by omega, rfl⟩
  · split
    · exact Or.inr (Or.inl ⟨by omega, by omega, rfl⟩)
    · split
      · exact Or.inr (Or.inr (Or.inl ⟨by omega, by omega, rfl⟩))
      · exact Or.inr (Or.inr (Or.inr ⟨by omega, rfl⟩))

/-- The bytes of a character beyond ASCII are beyond ASCII too. -/
theorem high_of_mem_utf8EncodeChar {character : Char} (high : 0x80 ≤ character.toNat) {byte : UInt8}
    (member : byte ∈ String.utf8EncodeChar character) : 0x80 ≤ byte.toNat := by
  -- The first byte has its high bits set, and the others are of one kind.
  have some {value : Nat} (low : 0x80 ≤ value) (small : value < 256) (tail : List Nat)
      (member : byte ∈ UInt8.ofNat value :: tail.map following) : 0x80 ≤ byte.toNat := by
    rcases List.mem_cons.mp member with rfl | member
    · rwa [UInt8.toNat_ofNat_of_lt' small]
    · obtain ⟨value, _, rfl⟩ := List.mem_map.mp member
      rw [toNat_following]
      omega
  rcases utf8EncodeChar_cases character with ⟨small, _⟩ | ⟨_, _, bytes⟩ | ⟨_, _, bytes⟩ | ⟨_, bytes⟩
  · omega
  · rw [bytes] at member
    exact some (by omega) (by omega) [_] member
  · rw [bytes] at member
    exact some (by omega) (by omega) [_, _] member
  · rw [bytes] at member
    exact some (by omega) (by omega) [_, _, _] member

theorem utf8EncodeChar_ascii {character : Char} (ascii : character.toNat < 0x80) :
    String.utf8EncodeChar character = [UInt8.ofNat character.toNat] := by
  rcases utf8EncodeChar_cases character with ⟨_, bytes⟩ | ⟨high, _⟩ | ⟨high, _⟩ | ⟨high, _⟩
  · exact bytes
  all_goals omega

/-- A byte that is an ASCII character stands for this character. -/
theorem exists_of_flatMap_utf8EncodeChar {characters : List Char} {byte : UInt8} {bytes : List UInt8}
    (ascii : byte.toNat < 0x80) (begins : characters.flatMap String.utf8EncodeChar = byte :: bytes) :
    ∃ others, characters = Char.ofNat byte.toNat :: others ∧
      bytes = others.flatMap String.utf8EncodeChar := by
  cases characters with
  | nil => contradiction
  | cons first others =>
      rw [List.flatMap_cons] at begins
      rcases Nat.lt_or_ge first.toNat 0x80 with low | high
      · rw [utf8EncodeChar_ascii low, List.singleton_append, List.cons.injEq] at begins
        obtain ⟨rfl, rfl⟩ := begins
        rw [UInt8.toNat_ofNat_of_lt' (show first.toNat < 256 by omega), Char.ofNat_toNat]
        exact ⟨others, rfl, rfl⟩
      · obtain ⟨head, tail, parts⟩ := List.exists_cons_of_ne_nil String.utf8EncodeChar_ne_nil
        have beyond := high_of_mem_utf8EncodeChar high (parts ▸ List.mem_cons_self)
        rw [parts, List.cons_append, List.cons.injEq] at begins
        rw [begins.1] at beyond
        omega

/-- The bytes of a character are decoded as this character. -/
theorem decodeUtf8With_utf8EncodeChar (character : Char) (rest : List UInt8) :
    decodeUtf8With none (String.utf8EncodeChar character ++ rest) = character :: decodeUtf8With none rest := by
  have isCharacter : character.toNat < 0xD800 ∨ 0xDFFF < character.toNat ∧ character.toNat < 0x110000 :=
    character.valid
  rcases utf8EncodeChar_cases character with
    ⟨small, bytes⟩ | ⟨low, high, bytes⟩ | ⟨low, high, bytes⟩ | ⟨low, bytes⟩
  · have byte : (UInt8.ofNat character.toNat).toNat = character.toNat :=
      UInt8.toNat_ofNat_of_lt' (show character.toNat < 256 by omega)
    have ascii : UInt8.ofNat character.toNat < 0x80 := by
      rw [UInt8.lt_iff_toNat_lt, byte]
      exact small
    rw [bytes, List.singleton_append, decodeUtf8With_ascii ascii, byte, Char.ofNat_toNat]
  · have announces := @lead?_two (character.toNat / 64) (by omega) (by omega)
    have bounds := following_bounds character.toNat
    have whole : character.toNat / 64 * 64 + ((following character.toNat).toNat - 0x80) = character.toNat := by
      rw [toNat_following]
      omega
    rw [bytes, List.cons_append, List.singleton_append, decodeUtf8With_lead announces,
      decodeUtf8With_last bounds.1 bounds.2 (Nat.le_refl 1), whole, Char.ofNat_toNat]
  · have announces := @lead?_three (character.toNat / 4096) (by omega)
    have bounds := following_bounds character.toNat
    -- Overlong forms and surrogates are excluded.
    have least : (if character.toNat / 4096 = 0 then 0xA0 else 0x80) ≤ following (character.toNat / 64) :=
      le_following fun _ => show 0xA0 ≤ _ by omega
    have greatest : following (character.toNat / 64) ≤ (if character.toNat / 4096 = 13 then 0x9F else 0xBF) :=
      following_le fun _ => show _ ≤ 0x9F by omega
    have whole : (character.toNat / 4096 * 64 + ((following (character.toNat / 64)).toNat - 0x80)) * 64 +
        ((following character.toNat).toNat - 0x80) = character.toNat := by
      rw [toNat_following, toNat_following]
      omega
    rw [bytes, List.cons_append, List.cons_append, List.singleton_append, decodeUtf8With_lead announces,
      decodeUtf8With_following least greatest (Nat.lt_succ_self 1),
      decodeUtf8With_last bounds.1 bounds.2 (Nat.le_refl 1), whole, Char.ofNat_toNat]
  · have announces := @lead?_four (character.toNat / 262144) (by omega)
    have middle := following_bounds (character.toNat / 64)
    have bounds := following_bounds character.toNat
    -- Overlong forms and code points that are too great are excluded.
    have least : (if character.toNat / 262144 = 0 then 0x90 else 0x80) ≤ following (character.toNat / 4096) :=
      le_following fun _ => show 0x90 ≤ _ by omega
    have greatest : following (character.toNat / 4096) ≤ (if character.toNat / 262144 = 4 then 0x8F else 0xBF) :=
      following_le fun _ => show _ ≤ 0x8F by omega
    have whole : ((character.toNat / 262144 * 64 + ((following (character.toNat / 4096)).toNat - 0x80)) * 64 +
          ((following (character.toNat / 64)).toNat - 0x80)) * 64 +
        ((following character.toNat).toNat - 0x80) = character.toNat := by
      rw [toNat_following, toNat_following, toNat_following]
      omega
    rw [bytes, List.cons_append, List.cons_append, List.cons_append, List.singleton_append,
      decodeUtf8With_lead announces, decodeUtf8With_following least greatest (show 1 < 3 by decide),
      decodeUtf8With_following middle.1 middle.2 (Nat.lt_succ_self 1),
      decodeUtf8With_last bounds.1 bounds.2 (Nat.le_refl 1), whole, Char.ofNat_toNat]

theorem decodeUtf8_utf8 (text : String) : decodeUtf8 (utf8 text) = text := by
  have characters (characters : List Char) :
      decodeUtf8With none (characters.flatMap String.utf8EncodeChar) = characters := by
    induction characters with
    | nil => rfl
    | cons character others inductionHypothesis =>
        rw [List.flatMap_cons, decodeUtf8With_utf8EncodeChar, inductionHypothesis]
  rw [decodeUtf8, utf8, characters, String.ofList_toList]

end DelayGenerator.Text
