import Mathlib
import DesignLayout.Json.Parser
import DesignLayout.Json.Printer

/-!
# Lexemes of written values

The lexer takes a written string or whole number for the lexeme that it was
written from.  A string ends by itself; a number ends where a character
follows that belongs to no number.
-/

namespace DesignLayout.Json

/-- Reading a text from between two lexemes adds these lexemes. -/
def Lexes (text : List Char) (lexemes : List Lexeme) : Prop :=
  ∀ before, text.foldlM Lexeme.step? ⟨before, .between⟩ =
    some ⟨lexemes.reverse ++ before, .between⟩

namespace Lexes

theorem append {left right : List Char} {first later : List Lexeme}
    (leftRead : Lexes left first) (rightRead : Lexes right later) :
    Lexes (left ++ right) (first ++ later) := by
  intro before
  rw [List.foldlM_append, leftRead before]
  simpa using rightRead (first.reverse ++ before)

/-- All lexemes of a text that ends between two of them. -/
theorem list? {text : List Char} {lexemes : List Lexeme} (read : Lexes text lexemes) :
    Lexeme.list? text = some lexemes := by
  simp [Lexeme.list?, read [], Lexeme.finish?]

end Lexes

private theorem hexValue?_digitChar :
    ∀ digit < 16, Text.hexValue? (Nat.digitChar digit) = some digit := by
  decide

/-- A character below the blanks is read from the four digits of its unit. -/
private theorem foldlM_unit {number : Nat} (small : number < 32) (lexemes : List Lexeme)
    (characters : List Char) :
    ['\\', 'u', '0', '0', Nat.digitChar (number / 16), Nat.digitChar (number % 16)].foldlM
        Lexeme.step? ⟨lexemes, .string ⟨characters, none, true⟩⟩ =
      some ⟨lexemes, .string ⟨Char.ofNat number :: characters, none, true⟩⟩ := by
  have high := hexValue?_digitChar (number / 16) (by omega)
  have low := hexValue?_digitChar (number % 16) (by omega)
  have zero : Text.hexValue? '0' = some 0 := by decide
  have whole : 16 * (number / 16) + number % 16 = number := Nat.div_add_mod number 16
  have noHigh : Lexeme.Content.isHigh number = false := by
    simp [Lexeme.Content.isHigh]
    omega
  have noLow : Lexeme.Content.isLow number = false := by
    simp [Lexeme.Content.isLow]
    omega
  simp [Lexeme.step?, high, low, zero, whole, Lexeme.Content.addUnit, noHigh, noLow,
    Lexeme.Content.add]

/-- Each character of a string is read from its escape, or for itself. -/
theorem foldlM_escapedCharacter (character : Char) (lexemes : List Lexeme)
    (characters : List Char) :
    (escapedCharacter character).foldlM Lexeme.step?
        ⟨lexemes, .string ⟨characters, none, true⟩⟩ =
      some ⟨lexemes, .string ⟨character :: characters, none, true⟩⟩ := by
  unfold escapedCharacter
  split
  case isTrue equal => subst equal; rfl
  case isFalse noQuote =>
    split
    case isTrue equal => subst equal; rfl
    case isFalse noBackslash =>
      split
      case isTrue equal => subst equal; rfl
      split
      case isTrue equal => subst equal; rfl
      split
      case isTrue equal => subst equal; rfl
      split
      case isTrue equal => subst equal; rfl
      split
      case isTrue equal => subst equal; rfl
      split
      case isTrue small =>
        rw [foldlM_unit small, Char.ofNat_toNat]
      case isFalse large =>
        simp [Lexeme.step?, noQuote, noBackslash, large, Lexeme.Content.add]

theorem lexes_stringText (value : String) : Lexes (stringText value) [.string (some value)] := by
  intro before
  have content : ∀ text characters : List Char,
      (text.flatMap escapedCharacter).foldlM Lexeme.step?
          ⟨before, .string ⟨characters, none, true⟩⟩ =
        some ⟨before, .string ⟨text.reverse ++ characters, none, true⟩⟩ := by
    intro text
    induction text with
    | nil => intro characters; rfl
    | cons character text ih =>
        intro characters
        rw [List.flatMap_cons, List.foldlM_append, foldlM_escapedCharacter]
        simpa using ih (character :: characters)
  have opened : Lexeme.step? ⟨before, .between⟩ '"' =
      some ⟨before, .string ⟨[], none, true⟩⟩ := rfl
  rw [stringText, List.cons_append, List.foldlM_cons, opened]
  simp only [Option.bind_eq_bind, Option.bind_some, List.foldlM_append, content]
  simp [Lexeme.step?, Lexeme.Content.text?]

/-- A mark stands for itself. -/
theorem lexes_mark {character : Char} {lexeme : Lexeme}
    (read : ∀ before, Lexeme.begin? before character = some ⟨lexeme :: before, .between⟩) :
    Lexes [character] [lexeme] := by
  intro before
  simp [Lexeme.step?, read]

private theorem head?_toDigits {number : Nat} (positive : number ≠ 0) :
    (Nat.toDigits 10 number).head? ≠ some '0' := by
  induction number using Nat.strongRecOn with
  | ind number ih =>
      rw [Nat.toDigits_eq_if (by decide)]
      split
      · simpa using positive
      · have shorter := ih (number / 10) (by omega) (by omega)
        rw [List.head?_append_of_ne_nil _ Nat.toDigits_ne_nil]
        exact shorter

private theorem isWhole_toDigits (number : Nat) :
    Numeral.isWhole (Nat.toDigits 10 number) = true := by
  have digits : (Nat.toDigits 10 number).all Char.isDigit = true :=
    List.all_eq_true.mpr fun digit member =>
      Nat.isDigit_of_mem_toDigits (by decide) (by decide) member
  have notEmpty : (Nat.toDigits 10 number).isEmpty = false := by
    simp [Nat.toDigits_ne_nil]
  by_cases zero : number = 0
  · subst number
    decide
  · simp [Numeral.isWhole, Numeral.isDigits, digits, notEmpty, head?_toDigits zero]

theorem ofCharacters?_intText (value : Int) :
    Numeral.ofCharacters? (intText value) =
      some ⟨decide (value < 0), Nat.toDigits 10 value.natAbs, [], none⟩ := by
  have digits : ∀ digit ∈ Nat.toDigits 10 value.natAbs, digit.isDigit = true :=
    fun digit member => Nat.isDigit_of_mem_toDigits (by decide) (by decide) member
  have unsigned : ∀ negative, Numeral.unsigned? negative (Nat.toDigits 10 value.natAbs) =
      some ⟨negative, Nat.toDigits 10 value.natAbs, [], none⟩ := by
    intro negative
    have taken := List.takeWhile_eq_self_iff.mpr digits
    have dropped := List.dropWhile_eq_nil_iff.mpr digits
    simp [Numeral.unsigned?, List.span_eq_takeWhile_dropWhile, taken, dropped,
      isWhole_toDigits, Numeral.ending?]
  rw [intText]
  split
  case isTrue negative => simp [Numeral.ofCharacters?, unsigned, negative]
  case isFalse notNegative =>
    obtain ⟨head, tail, written⟩ :=
      List.exists_cons_of_ne_nil (Nat.toDigits_ne_nil (n := value.natAbs) (b := 10))
    have notMinus : head ≠ '-' := by
      intro equal
      subst equal
      exact absurd (digits '-' (by simp [written])) (by decide)
    have read := unsigned false
    rw [decide_eq_false notNegative]
    rw [written] at read ⊢
    unfold Numeral.ofCharacters?
    split
    case h_1 minus => exact absurd (List.cons.inj minus).1 notMinus
    case h_2 => exact read

theorem value_intText {value : Int} (low : -(2 : Int) ^ 63 ≤ value)
    (high : value < (2 : Int) ^ 64) :
    Numeral.value ⟨decide (value < 0), Nat.toDigits 10 value.natAbs, [], none⟩ =
      .int value := by
  have restored : Numeral.digitsValue (Nat.toDigits 10 value.natAbs) = value.natAbs :=
    Nat.ofDigitChars_ten_toDigits
  unfold Numeral.value
  simp only [restored]
  by_cases negative : value < 0
  · have bounded : value.natAbs ≤ UInt64.size / 2 := by
      rw [show UInt64.size / 2 = 2 ^ 63 from rfl]
      omega
    have nonzero : value.natAbs ≠ 0 := by omega
    have signed : -(value.natAbs : Int) = value := by omega
    simp only [negative, decide_true, if_true, bounded, nonzero, and_false,
      not_false_eq_true, and_true, List.isEmpty_nil, Option.isNone_none, signed]
  · have bounded : value.natAbs ≤ UInt64.size - 1 := by
      rw [show UInt64.size - 1 = 2 ^ 64 - 1 from rfl]
      omega
    have unsigned : (value.natAbs : Int) = value := by omega
    simp only [negative, decide_false, Bool.false_eq_true, if_false, bounded, false_and,
      not_false_eq_true, and_true, List.isEmpty_nil, Option.isNone_none, if_true, unsigned]

private theorem isNumeralCharacter_of_isDigit {character : Char}
    (digit : character.isDigit = true) : Lexeme.isNumeralCharacter character = true := by
  simp [Lexeme.isNumeralCharacter, digit]

private theorem foldlM_numeral {text : List Char}
    (numerals : ∀ character ∈ text, Lexeme.isNumeralCharacter character = true)
    (lexemes : List Lexeme) (characters : List Char) :
    text.foldlM Lexeme.step? ⟨lexemes, .numeral characters⟩ =
      some ⟨lexemes, .numeral (text.reverse ++ characters)⟩ := by
  induction text generalizing characters with
  | nil => rfl
  | cons character text ih =>
      have first := numerals character List.mem_cons_self
      have later := ih (fun other member => numerals other (List.mem_cons_of_mem _ member))
        (character :: characters)
      simpa [Lexeme.step?, first] using later

/-- A number starts with a digit or a sign, and has no other characters than
those of numbers. -/
private theorem exists_intText (value : Int) :
    ∃ head tail, intText value = head :: tail ∧
      (∀ before, Lexeme.begin? before head = some ⟨before, .numeral [head]⟩) ∧
      ∀ character ∈ tail, Lexeme.isNumeralCharacter character = true := by
  have digits : ∀ digit ∈ Nat.toDigits 10 value.natAbs, digit.isDigit = true :=
    fun digit member => Nat.isDigit_of_mem_toDigits (by decide) (by decide) member
  rw [intText]
  split
  · exact ⟨'-', _, rfl, fun _ => rfl, fun character member =>
      isNumeralCharacter_of_isDigit (digits character member)⟩
  · obtain ⟨head, tail, written⟩ :=
      List.exists_cons_of_ne_nil (Nat.toDigits_ne_nil (n := value.natAbs) (b := 10))
    rw [written] at digits ⊢
    have digit := digits head List.mem_cons_self
    refine ⟨head, tail, rfl, fun before => ?_, fun character member =>
      isNumeralCharacter_of_isDigit (digits character (List.mem_cons_of_mem _ member))⟩
    have noBlank : Lexeme.isBlank head = false := by
      apply Bool.eq_false_of_not_eq_true
      intro blank
      simp only [Lexeme.isBlank, Bool.or_eq_true, decide_eq_true_eq] at blank
      rcases blank with ((rfl | rfl) | rfl) | rfl <;> exact absurd digit (by decide)
    have noQuote : head ≠ '"' := by
      intro equal
      subst equal
      exact absurd digit (by decide)
    simp [Lexeme.begin?, noBlank, noQuote, digit]

/-- A whole number is read up to a character that belongs to no number. -/
theorem lexes_intText {value : Int} (low : -(2 : Int) ^ 63 ≤ value)
    (high : value < (2 : Int) ^ 64) {next : Char} {lexemes : List Lexeme}
    (ends : Lexeme.isNumeralCharacter next = false) (read : Lexes [next] lexemes) :
    Lexes (intText value ++ [next]) (.scalar (.int value) :: lexemes) := by
  intro before
  have numeral := ofCharacters?_intText value
  obtain ⟨head, tail, written, opens, numerals⟩ := exists_intText value
  rw [written] at numeral ⊢
  have opened : Lexeme.step? ⟨before, .between⟩ head = some ⟨before, .numeral [head]⟩ :=
    opens before
  have later : Lexeme.begin? (.scalar (.int value) :: before) next =
      some ⟨lexemes.reverse ++ .scalar (.int value) :: before, .between⟩ := by
    simpa [Lexeme.step?] using read (.scalar (.int value) :: before)
  rw [List.cons_append, List.foldlM_cons, opened, Option.bind_eq_bind, Option.bind_some,
    List.foldlM_append, foldlM_numeral numerals]
  simp [Lexeme.step?, ends, Lexeme.finish?, numeral, value_intText low high, later]

theorem lexes_blanks {text : List Char}
    (blank : ∀ character ∈ text, Lexeme.isBlank character = true) : Lexes text [] := by
  intro before
  induction text with
  | nil => rfl
  | cons character text ih =>
      have passed : Lexeme.step? ⟨before, .between⟩ character = some ⟨before, .between⟩ := by
        simp [Lexeme.step?, Lexeme.begin?, blank character List.mem_cons_self]
      rw [List.foldlM_cons, passed, Option.bind_eq_bind, Option.bind_some]
      exact ih fun other member => blank other (List.mem_cons_of_mem _ member)

theorem lexes_lineStart (depth : Nat) : Lexes (lineStart depth) [] := by
  apply lexes_blanks
  intro character member
  rcases List.mem_cons.mp member with rfl | margin
  · rfl
  · rw [(List.mem_replicate.mp margin).2]
    rfl

end DesignLayout.Json
