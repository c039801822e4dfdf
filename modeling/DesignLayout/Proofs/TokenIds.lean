import Mathlib
import DesignLayout.Json.Lexeme
import DesignLayout.Token.Basic

/-!
# Ids of tokens

The steps of the hash wrap one by one, which comes to the same as wrapping
once: the id of a token is what 32 bits keep of the number whose digits to the
base 31 are the units of the name.  So the id of a joined name comes from the
ids of its parts and the number of units of the second.
-/

namespace DesignLayout

open Json.Lexeme (Content)

namespace Text

section reading

/-- A character is one unit that is no surrogate, or a high surrogate and the
low one that makes the character with it. -/
theorem characterUnits_cases (character : Char) :
    (characterUnits character = [character.toNat] ∧ character.toNat < 2 ^ 16 ∧
      Content.isHigh character.toNat = false ∧ Content.isLow character.toNat = false) ∨
    ∃ high low, characterUnits character = [high, low] ∧
      Content.isHigh high ∧ Content.isLow low ∧ Content.joined high low = character := by
  have valid : character.toNat < 0xD800 ∨ 0xDFFF < character.toNat ∧ character.toNat < 0x110000 :=
    character.valid
  unfold characterUnits
  split
  case isTrue basic =>
    refine .inl ⟨rfl, basic, ?_, ?_⟩
    · simp only [Content.isHigh, Bool.and_eq_false_iff, decide_eq_false_iff_not]
      omega
    · simp only [Content.isLow, Bool.and_eq_false_iff, decide_eq_false_iff_not]
      omega
  case isFalse supplementary =>
    refine .inr ⟨_, _, rfl, ?_, ?_, ?_⟩
    · simp only [Content.isHigh, Bool.and_eq_true, decide_eq_true_eq]
      omega
    · simp only [Content.isLow, Bool.and_eq_true, decide_eq_true_eq]
      omega
    · have whole : 0x10000 + (0xD800 + (character.toNat - 0x10000) / 0x400 - 0xD800) * 0x400 +
          (0xDC00 + (character.toNat - 0x10000) % 0x400 - 0xDC00) = character.toNat := by
        omega
      rw [Content.joined, whole, Char.ofNat_toNat]

theorem lt_of_mem_units {text : String} {unit : Nat} (member : unit ∈ units text) :
    unit < 2 ^ 16 := by
  obtain ⟨character, -, unitMember⟩ := List.mem_flatMap.mp member
  rcases characterUnits_cases character with
    ⟨written, basic, -⟩ | ⟨high, low, written, isHigh, isLow, -⟩
  · rw [written, List.mem_singleton] at unitMember
    exact unitMember ▸ basic
  · simp only [Content.isHigh, Content.isLow, Bool.and_eq_true, decide_eq_true_eq] at isHigh isLow
    rw [written, List.mem_pair] at unitMember
    rcases unitMember with rfl | rfl <;> omega

/-- The units of a character are read as the character, unless a half of another
one waits before them. -/
theorem foldl_addUnit_characterUnits (character : Char) {content : Content}
    (whole : content.high = none) :
    (characterUnits character).foldl Content.addUnit content = content.add character := by
  rcases characterUnits_cases character with
    ⟨written, -, noHigh, noLow⟩ | ⟨high, low, written, isHigh, isLow, joined⟩
  · rw [written, List.foldl_cons, List.foldl_nil, Content.addUnit, whole]
    simp [noHigh, noLow, Char.ofNat_toNat]
  · have waiting : content.addUnit high = { content with high := some high } := by
      simp [Content.addUnit, whole, isHigh]
    rw [written, List.foldl_cons, List.foldl_cons, List.foldl_nil, waiting]
    simp [Content.addUnit, Content.add, isLow, joined, whole]

theorem foldl_addUnit_units (characters : List Char) {content : Content}
    (whole : content.high = none) :
    (characters.flatMap characterUnits).foldl Content.addUnit content =
      { content with characters := characters.reverse ++ content.characters } := by
  induction characters generalizing content with
  | nil => rfl
  | cons character rest ih =>
      rw [List.flatMap_cons, List.foldl_append, foldl_addUnit_characterUnits character whole,
        ih rfl]
      simp [Content.add, whole]

/-- The units of a text, read one by one, make the text. -/
theorem text?_units (text : String) :
    ((units text).foldl Content.addUnit .empty).text? = some text := by
  rw [units, foldl_addUnit_units text.toList rfl]
  simp [Content.text?, Content.empty]

end reading

/-- The number with the given digits to the base 31, of which the first is the
highest.  A digit may be larger than the base. -/
def unitsValue (units : List Nat) : Nat :=
  ∑ place : Fin units.length, units[place] * 31 ^ (units.length - 1 - place)

theorem unitsValue_cons (unit : Nat) (units : List Nat) :
    unitsValue (unit :: units) = unit * 31 ^ units.length + unitsValue units := by
  have split := Fin.sum_univ_succ fun place : Fin (units.length + 1) =>
    (unit :: units)[place] * 31 ^ (units.length - place)
  simpa [unitsValue, Nat.sub_sub, Nat.add_comm 1] using split

end Text

section wrapping

theorem toInt_ofNat_modEq (number : Nat) :
    (Int32.ofNat number).toInt ≡ number [ZMOD 2 ^ 32] := by
  rw [Int32.toInt_ofNat']
  exact Int.bmod_emod

/-- Of the numbers that are congruent, 32 bits hold one. -/
theorem toInt_modEq_iff {first second : Int32} :
    first.toInt ≡ second.toInt [ZMOD 2 ^ 32] ↔ first = second := by
  have firstLow := first.le_toInt
  have firstHigh := first.toInt_lt
  have secondLow := second.le_toInt
  have secondHigh := second.toInt_lt
  rw [← Int32.toInt_inj, Int.ModEq]
  omega

theorem ofNat_eq_ofNat_iff {first second : Nat} :
    Int32.ofNat first = Int32.ofNat second ↔ first ≡ second [MOD 2 ^ 32] := by
  rw [← toInt_modEq_iff, ← Int.natCast_modEq_iff]
  constructor
  · intro same
    exact (toInt_ofNat_modEq first).symm.trans (same.trans (toInt_ofNat_modEq second))
  · intro same
    exact (toInt_ofNat_modEq first).trans (same.trans (toInt_ofNat_modEq second).symm)

end wrapping

/-- A step of the hash may be wrapped after it instead of within it. -/
theorem ofNat_hashStep (value unit : Nat) :
    Int32.ofNat value * 31 + Int32.ofNat unit = Int32.ofNat (value * 31 + unit) := by
  rw [Int32.ofNat_add, Int32.ofNat_mul]
  rfl

/-- All steps may be wrapped at the end, whatever was there before them. -/
theorem foldl_hash (units : List Nat) (start : Nat) :
    units.foldl (fun hash unit => hash * 31 + Int32.ofNat unit) (Int32.ofNat start) =
      Int32.ofNat (start * 31 ^ units.length + Text.unitsValue units) := by
  induction units generalizing start with
  | nil => simp [Text.unitsValue]
  | cons unit rest ih =>
      rw [List.foldl_cons, ofNat_hashStep, ih, Text.unitsValue_cons, List.length_cons]
      congr 1
      ring

theorem tokenId_eq (name : String) :
    tokenId name = Int32.ofNat (Text.unitsValue (Text.units name)) := by
  have hashed := foldl_hash (Text.units name) 0
  rwa [zero_mul, zero_add] at hashed

/-- The hash of a joined name goes on from that of the first part. -/
theorem tokenId_append (left right : String) :
    tokenId (left ++ right) =
      Int32.ofNat (Text.unitsValue (Text.units left) * 31 ^ (Text.units right).length +
        Text.unitsValue (Text.units right)) := by
  rw [← foldl_hash, ← tokenId_eq, tokenId, tokenId, Text.units_append, List.foldl_append]

/-- A name is spelled by sixteen-bit units, and its id is the one signed number of 32
bits that is congruent to the number with these units as digits.  So the id of a joined
name is congruent to that of the first part, moved up by the units of the second, plus
that of the second.  The same text behind two names leaves their ids equal or different
as they were, and so does the same text before two names of equally many units. -/
theorem tokenId_positional :
    (∀ name : String,
      (∀ unit ∈ Text.units name, unit < 2 ^ 16) ∧
      ((Text.units name).foldl Content.addUnit .empty).text? = some name) ∧
    (∀ (name : String) (id : Int32), tokenId name = id ↔
      id.toInt ≡ Text.unitsValue (Text.units name) [ZMOD 2 ^ 32]) ∧
    (∀ left right : String, (tokenId (left ++ right)).toInt ≡
      (tokenId left).toInt * 31 ^ (Text.units right).length + (tokenId right).toInt
        [ZMOD 2 ^ 32]) ∧
    (∀ left other right : String,
      tokenId (left ++ right) = tokenId (other ++ right) ↔ tokenId left = tokenId other) ∧
    ∀ left right other : String, (Text.units right).length = (Text.units other).length →
      (tokenId (left ++ right) = tokenId (left ++ other) ↔ tokenId right = tokenId other) := by
  refine ⟨fun name => ⟨fun unit => Text.lt_of_mem_units, Text.text?_units name⟩, ?_, ?_, ?_, ?_⟩
  · intro name id
    have congruent := toInt_ofNat_modEq (Text.unitsValue (Text.units name))
    rw [← tokenId_eq] at congruent
    rw [← toInt_modEq_iff]
    exact ⟨fun same => same.symm.trans congruent, fun same => congruent.trans same.symm⟩
  · intro left right
    rw [tokenId_append, tokenId_eq left, tokenId_eq right]
    refine (toInt_ofNat_modEq _).trans ?_
    push_cast
    exact ((toInt_ofNat_modEq _).symm.mul_right _).add (toInt_ofNat_modEq _).symm
  · intro left other right
    rw [tokenId_append, tokenId_append, tokenId_eq left, tokenId_eq other, ofNat_eq_ofNat_iff,
      ofNat_eq_ofNat_iff]
    constructor
    · intro same
      -- The base is odd, so that nothing is lost when an id is moved up.
      have coprime : Nat.gcd (2 ^ 32) (31 ^ (Text.units right).length) = 1 :=
        Nat.Coprime.pow _ _ (by decide)
      exact (same.add_right_cancel' _).cancel_right_of_coprime coprime
    · intro same
      exact (same.mul_right _).add_right _
  · intro left right other sizes
    rw [tokenId_append, tokenId_append, tokenId_eq right, tokenId_eq other, ofNat_eq_ofNat_iff,
      ofNat_eq_ofNat_iff, sizes]
    exact ⟨Nat.ModEq.add_left_cancel' _, Nat.ModEq.add_left _⟩

/-- Ids that wrap, and names with one id behind and before a character of two units.
Before names with one id and different numbers of units, a text makes their ids
different. -/
theorem tokenId_positional_sharedId :
    tokenId "Neutral/Grey 900" = -1407588672 ∧
    Text.units "🎨" = [0xD83C, 0xDFA8] ∧ tokenId "Aa" = tokenId "BB" ∧
    (Text.units "Aa").length = (Text.units "BB").length ∧
    tokenId ("Aa" ++ "🎨") = tokenId ("BB" ++ "🎨") ∧
    tokenId ("🎨" ++ "Aa") = tokenId ("🎨" ++ "BB") ∧
    tokenId "\x00a" = tokenId "a" ∧ tokenId ("b" ++ "\x00a") ≠ tokenId ("b" ++ "a") := by
  obtain ⟨-, congruent, -, behind, before⟩ := tokenId_positional
  have same : tokenId "Aa" = tokenId "BB" := by decide
  have sizes : (Text.units "Aa").length = (Text.units "BB").length := by decide
  exact ⟨(congruent _ _).mpr (by decide), by decide, same, sizes,
    (behind _ _ _).mpr same, (before _ _ _ sizes).mpr same, by decide, by decide⟩

end DesignLayout
