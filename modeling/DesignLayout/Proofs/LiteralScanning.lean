import DesignLayout.Proofs.Outcomes
import DesignLayout.Proofs.Scanning
import DesignLayout.Source.Literal

/-!
# Source text of design values

The source text of a value closes every bracket that it opens and has no
braces.  Numbers and hex digits are plain, and whatever a text contains, the
string literal for it ends at its last quote.
-/

namespace DesignLayout

section numbers

/-- Whether a character may be part of a number in source text. -/
def isNumeral (character : Char) : Bool :=
  character.isDigit || character ∈ ['-', '.', 'N', 'a', 'i', 'n', 'f']

theorem isPlain_of_isDigit {character : Char} (digit : character.isDigit = true) :
    isPlain character = true := by
  by_contra special
  simp only [isPlain, decide_eq_true_eq, not_not] at special
  fin_cases special <;> exact absurd digit (by decide)

theorem isPlain_of_isNumeral {character : Char} (numeral : isNumeral character = true) :
    isPlain character = true := by
  rcases Bool.or_eq_true_iff.mp numeral with digit | mark
  · exact isPlain_of_isDigit digit
  · have marks : Plain ['-', '.', 'N', 'a', 'i', 'n', 'f'] := by decide
    exact marks character (of_decide_eq_true mark)

/-- Every character may be part of a number. -/
def Numeral (text : List Char) : Prop :=
  ∀ character ∈ text, isNumeral character = true

instance (text : List Char) : Decidable (Numeral text) :=
  decidable_of_iff (text.all isNumeral = true) List.all_eq_true

namespace Numeral

variable {text other : List Char}

theorem plain (numeral : Numeral text) : Plain text :=
  fun character member => isPlain_of_isNumeral (numeral character member)

theorem append (numeral : Numeral text) (otherNumeral : Numeral other) :
    Numeral (text ++ other) :=
  List.forall_mem_append.mpr ⟨numeral, otherNumeral⟩

theorem sublist (numeral : Numeral text) (part : other.Sublist text) : Numeral other :=
  fun character member => numeral character (part.subset member)

end Numeral

theorem numeral_toDigits (number : Nat) : Numeral (Nat.toDigits 10 number) := by
  intro character member
  have digit := Nat.isDigit_of_mem_toDigits (by decide) (by decide) member
  exact Bool.or_eq_true_iff.mpr (.inl digit)

theorem plain_toDigits (number : Nat) : Plain (Nat.toDigits 10 number) :=
  (numeral_toDigits number).plain

theorem numeral_sign (negative : Bool) : Numeral (NumberStyle.sign negative) := by
  cases negative <;> decide

theorem plain_replicate {character : Char} (plain : isPlain character = true) (count : Nat) :
    Plain (List.replicate count character) := by
  intro other member
  rw [List.eq_of_mem_replicate member]
  exact plain

theorem numeral_layPositional (style : NumberStyle) {digits : List Char}
    (numeral : Numeral digits) (exponent : Int) :
    Numeral (style.layPositional digits exponent) := by
  unfold NumberStyle.layPositional
  have zeros : ∀ count, Numeral (List.replicate count '0') := by
    intro count character member
    rw [List.eq_of_mem_replicate member]
    decide
  split
  · apply (numeral.append (zeros _)).append
    split <;> decide
  · split
    · have point : Numeral ['.'] := by decide
      have whole : ∀ count, Numeral (digits.take count) :=
        fun count => numeral.sublist (List.take_sublist count digits)
      have fraction : ∀ count, Numeral (digits.drop count) :=
        fun count => numeral.sublist (List.drop_sublist count digits)
      exact (whole _).append (point.append (fraction _))
    · have point : Numeral ['0', '.'] := by decide
      exact point.append ((zeros _).append numeral)

/-- Source text has no exponent. -/
theorem numeral_layMagnitude (magnitude : Magnitude) :
    Numeral (NumberStyle.source.layMagnitude magnitude) := by
  have positional : ∀ leading, NumberStyle.source.positional leading = true := fun _ => rfl
  unfold NumberStyle.layMagnitude
  split
  · split <;> decide
  · simp only [positional, if_true]
    exact numeral_layPositional _ (numeral_toDigits _) _

theorem numeral_sourceText (number : Float) :
    Numeral (NumberStyle.source.text number).toList := by
  unfold NumberStyle.text
  split
  · decide
  · rw [String.toList_ofList]
    exact (numeral_sign _).append (by decide)
  · rw [String.toList_ofList]
    exact (numeral_sign _).append (numeral_layMagnitude _)

theorem numeral_wholeText (number : Float) : Numeral (wholeText number).toList := by
  unfold wholeText
  split
  · split
    · exact numeral_sourceText number
    · rw [String.toList_ofList]
      exact (numeral_sign _).append (numeral_toDigits _)
  · exact numeral_sourceText number

theorem plain_hex (color : Color) : Plain color.hex.toList := by
  have digits : ∀ digit : Fin 16, isPlain (Nat.digitChar digit).toUpper = true := by decide
  rw [Color.hex, String.toList_ofList]
  intro character member
  obtain ⟨byte, -, inside⟩ := List.mem_flatMap.mp member
  obtain ⟨digit, found, rfl⟩ := List.mem_map.mp inside
  have small := byte.toNat_lt
  rcases List.mem_pair.mp found with rfl | rfl
  · exact digits ⟨byte.toNat / 16, by omega⟩
  · exact digits ⟨byte.toNat % 16, by omega⟩

end numbers

namespace Source

/-- No character of a text ends the string literal that it stands in. -/
theorem run?_escaped (opened braces characters : List Char) :
    Scan.run? ⟨.string, opened, braces⟩ (characters.flatMap escapedCharacter) =
      some ⟨.string, opened, braces⟩ := by
  have step : ∀ character, Scan.run? ⟨.string, opened, braces⟩ (escapedCharacter character) =
      some ⟨.string, opened, braces⟩ := by
    intro character
    unfold escapedCharacter
    split_ifs with backslash quote
    · rfl
    · rfl
    · rfl
    · rfl
    · rfl
    · rfl
    · simp [Scan.run?, Scan.step?, backslash, quote]
  induction characters with
  | nil => rfl
  | cons character rest ih =>
      rw [List.flatMap_cons, Scan.run?_append, step]
      exact ih

/-- An escape brings in nothing but its own characters, and it is all that is written
for a line break or a tab. -/
theorem mem_escapedCharacter {sought : Char} (apart : sought ∉ ['\\', '"', '$', 'n', 'r', 't'])
    (character : Char) :
    sought ∈ escapedCharacter character ↔ sought = character ∧ sought ∉ ['\n', '\r', '\t'] := by
  unfold escapedCharacter
  split_ifs with backslash quote dollar newline carriage tab
  all_goals grind

theorem toList_escaped (text : String) :
    (escaped text).toList = text.toList.flatMap escapedCharacter :=
  String.toList_ofList

theorem mem_escaped {sought : Char} (apart : sought ∉ ['\\', '"', '$', 'n', 'r', 't'])
    (text : String) :
    sought ∈ (escaped text).toList ↔ sought ∈ text.toList ∧ sought ∉ ['\n', '\r', '\t'] := by
  simp only [toList_escaped, List.mem_flatMap, mem_escapedCharacter apart]
  constructor
  · rintro ⟨character, member, rfl, broken⟩
    exact ⟨member, broken⟩
  · rintro ⟨member, broken⟩
    exact ⟨sought, member, rfl, broken⟩

theorem toList_stringLiteral (text : String) :
    (stringLiteral text).toList = ['"'] ++ (text.toList.flatMap escapedCharacter ++ ['"']) := by
  simp [stringLiteral, escaped]

theorem passes_stringLiteral (text : String) :
    Passes (stringLiteral text).toList [] [] [] := by
  have opening : Scan.run? ⟨.code, [], []⟩ ['"'] = some ⟨.string, [], []⟩ := rfl
  have closing : Scan.run? ⟨.string, [], []⟩ ['"'] = some ⟨.code, [], []⟩ := rfl
  rw [Passes, toList_stringLiteral, Scan.run?_append, opening, Option.bind_some, Scan.run?_append,
    run?_escaped, Option.bind_some, closing]

theorem numeral_number {value : Float} {text : String} (written : number value = .ok text) :
    Numeral text.toList := by
  unfold number at written
  split at written
  · cases written
    exact numeral_sourceText value
  · cases written

theorem plain_number {value : Float} {text : String} (written : number value = .ok text) :
    Plain text.toList :=
  (numeral_number written).plain

theorem plain_wholeNumber {value : Float} {text : String}
    (written : wholeNumber value = .ok text) : Plain text.toList := by
  unfold wholeNumber at written
  split at written
  · cases written
    exact (numeral_wholeText value).plain
  · cases written

theorem plain_typeSize {value : Float} {text : String} (written : typeSize value = .ok text) :
    Plain text.toList := by
  obtain ⟨digits, size, written⟩ := exists_of_bind written
  cases written
  exact (plain_number size).text_append (by decide)

theorem plain_letterSpacing? {spacing : LetterSpacing} {part : Option String}
    (written : letterSpacing? spacing = .ok part) : ∀ text ∈ part, Plain text.toList := by
  unfold letterSpacing? at written
  split at written
  · obtain ⟨size, sized, written⟩ := exists_of_bind written
    cases written
    intro text shown
    cases shown
    exact Plain.text_append (by decide) (plain_typeSize sized)
  · cases written
    simp

theorem plain_lineHeight? {height : LineHeight} {part : Option String}
    (written : lineHeight? height = .ok part) : ∀ text ∈ part, Plain text.toList := by
  unfold lineHeight? at written
  split at written
  · obtain ⟨size, sized, written⟩ := exists_of_bind written
    cases written
    intro text shown
    cases shown
    exact Plain.text_append (by decide) (plain_typeSize sized)
  · cases written
    simp

theorem plain_decoration? (decoration : TextDecoration) :
    ∀ text ∈ decoration? decoration, Plain text.toList := by
  intro text shown
  cases decoration <;> cases shown <;> decide

theorem passes_intercalate {separator : List Char} (plain : Plain separator)
    {parts : List (List Char)} (passes : ∀ part ∈ parts, Passes part [] [] []) :
    Passes (separator.intercalate parts) [] [] [] := by
  induction parts with
  | nil => exact .nil
  | cons part rest ih =>
      have first := passes part List.mem_cons_self
      have later := ih fun other member => passes other (List.mem_cons_of_mem _ member)
      cases rest with
      | nil => simpa using first
      | cons other rest =>
          rw [List.intercalate_cons_cons]
          exact (first.append plain.passes).append later

theorem passes_fontStyle {font : Typography} {text : String}
    (written : fontStyle font = .ok text) : Passes text.toList [] [] [] := by
  obtain ⟨digits, weight, written⟩ := exists_of_bind written
  obtain ⟨size, sized, written⟩ := exists_of_bind written
  obtain ⟨spacing, spaced, written⟩ := exists_of_bind written
  obtain ⟨height, lined, written⟩ := exists_of_bind written
  cases written
  have parts : ∀ part ∈ [some ("fontWeight = FontWeight(" ++ digits ++ ")"),
      some ("fontSize = " ++ size),
      if font.face.isSlanted then some "fontStyle = FontStyle.Italic" else none, spacing, height,
      decoration? font.decoration], ∀ text ∈ part, Passes text.toList [] [] [] := by
    simp only [List.forall_mem_cons]
    refine ⟨?_, ?_, ?_, ?_, ?_, ?_, List.forall_mem_nil _⟩
    · intro text shown
      cases shown
      have opening : Passes "fontWeight = FontWeight(".toList [] ['('] [] := by decide
      have closing : Passes ")".toList ['('] [] [] := by decide
      rw [String.toList_append, String.toList_append]
      exact .enclosed opening (plain_wholeNumber weight).passes closing
    · intro text shown
      cases shown
      exact (Plain.text_append (by decide) (plain_typeSize sized)).passes
    · intro text shown
      split at shown
      · cases shown
        exact Plain.passes (by decide)
      · cases shown
    · exact fun text shown => (plain_letterSpacing? spaced text shown).passes
    · exact fun text shown => (plain_lineHeight? lined text shown).passes
    · exact fun text shown => (plain_decoration? font.decoration text shown).passes
  have opening : Passes "TextStyle(".toList [] ['('] [] := by decide
  have closing : Passes ")".toList ['('] [] [] := by decide
  have separator : Plain ", ".toList := by decide
  rw [String.toList_append, String.toList_append, String.toList_intercalate]
  refine .enclosed opening (passes_intercalate separator fun part member => ?_) closing
  obtain ⟨text, shown, rfl⟩ := List.mem_map.mp member
  obtain ⟨part, member, same⟩ := List.mem_filterMap.mp shown
  exact parts part member text same

theorem passes_color {value : Color} {text : String} (written : color value = .ok text) :
    Passes text.toList [] [] [] := by
  unfold color at written
  split at written
  · cases written
    have opening : Passes "Color(0x".toList [] ['('] [] := by decide
    have closing : Passes ")".toList ['('] [] [] := by decide
    rw [String.toList_append, String.toList_append]
    exact .enclosed opening (plain_hex value).passes closing
  · cases written

end Source

/-- The source text of every value closes the brackets that it opens. -/
theorem Primitive.passes_source {value : Primitive} {text : String}
    (written : value.source = .ok text) : Passes text.toList [] [] [] := by
  cases value with
  | number value =>
      obtain ⟨digits, number, written⟩ := exists_of_bind written
      cases written
      exact ((Source.plain_number number).text_append (by decide)).passes
  | text value =>
      cases written
      exact Source.passes_stringLiteral value
  | color value => exact Source.passes_color written
  | font value => exact Source.passes_fontStyle written

end DesignLayout
