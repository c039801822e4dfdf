import DesignLayout.Code.Marked
import DesignLayout.Proofs.Json.Fields
import DesignLayout.Proofs.Json.Lexing

/-!
# Token records are read back

Decoding the record of a token gives the token, whatever its name and value
contain, and no record contains the marker: a marker in a name or a value is
written as the digits of its unit.
-/

namespace DesignLayout

open Json

private theorem int32?_toInt (number : Int32) : int32? (.int number.toInt) = some number := by
  have low := number.le_toInt
  have high := number.toInt_lt
  have bounds : Int32.minValue.toInt ≤ number.toInt ∧
      number.toInt ≤ Int32.maxValue.toInt := by
    rw [show Int32.minValue.toInt = -(2 : Int) ^ 31 from rfl,
      show Int32.maxValue.toInt = (2 : Int) ^ 31 - 1 from rfl]
    omega
  rw [int32?, if_pos bounds, Int32.ofInt_toInt]

namespace Token

/-- The lexemes of a record, in order. -/
def recordLexemes (token : Token) : List Lexeme :=
  [.openObject, .string (some "id"), .colon, .scalar (.int token.id.toInt), .comma,
    .string (some "name"), .colon, .string (some token.name), .comma,
    .string (some "value"), .colon, .string (some token.value), .comma,
    .string (some "table"), .colon, .string (some token.category.name), .closeObject]

theorem record_eq (token : Token) :
    token.record =
      ['\x7b'] ++ (stringText "id" ++ ([':'] ++ ((intText token.id.toInt ++ [',']) ++
        (stringText "name" ++ ([':'] ++ (stringText token.name ++ ([','] ++
          (stringText "value" ++ ([':'] ++ (stringText token.value ++ ([','] ++
            (stringText "table" ++ ([':'] ++ (stringText token.category.name ++
              ['\x7d'])))))))))))))) := by
  simp [record, toJson, compactText, compactFields, scalarText]

theorem lexes_record (token : Token) : Lexes token.record token.recordLexemes := by
  have low : -(2 : Int) ^ 63 ≤ token.id.toInt :=
    (show -(2 : Int) ^ 63 ≤ -(2 : Int) ^ 31 by decide).trans token.id.le_toInt
  have high : token.id.toInt < (2 : Int) ^ 64 :=
    token.id.toInt_lt.trans (by decide)
  have comma : Lexes [','] [.comma] := lexes_mark fun _ => rfl
  have colon : Lexes [':'] [.colon] := lexes_mark fun _ => rfl
  have opening : Lexes ['\x7b'] [.openObject] := lexes_mark fun _ => rfl
  have closing : Lexes ['\x7d'] [.closeObject] := lexes_mark fun _ => rfl
  have id : Lexes (intText token.id.toInt ++ [',']) [.scalar (.int token.id.toInt), .comma] :=
    lexes_intText low high rfl comma
  rw [record_eq]
  exact opening.append ((lexes_stringText "id").append (colon.append (id.append
    ((lexes_stringText "name").append (colon.append
      ((lexes_stringText token.name).append (comma.append
    ((lexes_stringText "value").append (colon.append
      ((lexes_stringText token.value).append (comma.append
    ((lexes_stringText "table").append (colon.append
      ((lexes_stringText token.category.name).append closing))))))))))))))

theorem ofCharacters?_record (token : Token) :
    Json.ofCharacters? token.record = some token.toJson := by
  rw [Json.ofCharacters?, (lexes_record token).list?]
  rfl

theorem ofJson?_toJson (token : Token) : ofJson? token.toJson = some token := by
  have category : Category.ofJson? (.str token.category.name) = some token.category := by
    cases token.category <;> rfl
  apply record?_obj
  rw [run_requiredField_bind rfl (int32?_toInt token.id),
    run_requiredField_bind rfl (rfl : string? (.str token.name) = some token.name),
    run_requiredField_bind rfl (rfl : string? (.str token.value) = some token.value),
    run_requiredField_bind rfl category]
  rfl

/-- The record of a token is decoded to the token. -/
theorem ofRecord?_record (token : Token) : ofRecord? token.record = some token := by
  rw [ofRecord?, ofCharacters?_record]
  exact ofJson?_toJson token

end Token

private theorem marker_not_mem_escapedCharacter (character : Char) :
    marker ∉ escapedCharacter character := by
  unfold escapedCharacter
  split
  · decide
  split
  · decide
  split
  · decide
  split
  · decide
  split
  · decide
  split
  · decide
  split
  · decide
  split
  case isTrue small => simp [marker]
  case isFalse large =>
    intro member
    rw [← List.mem_singleton.mp member] at large
    exact large (by decide)

theorem marker_not_mem_stringText (value : String) : marker ∉ stringText value := by
  have content : marker ∉ value.toList.flatMap escapedCharacter := by
    intro member
    obtain ⟨character, -, inside⟩ := List.mem_flatMap.mp member
    exact marker_not_mem_escapedCharacter character inside
  simpa [stringText, marker] using content

private theorem marker_not_mem_intText (value : Int) : marker ∉ intText value := by
  have digits : marker ∉ Nat.toDigits 10 value.natAbs := by
    intro member
    have digit := Nat.isDigit_of_mem_toDigits (by decide) (by decide) member
    exact absurd digit (by decide)
  have minus : marker ≠ '-' := by decide
  rw [intText]
  split
  · simp [minus, digits]
  · exact digits

theorem marker_not_mem_record (token : Token) : marker ∉ token.record := by
  have marks : marker ≠ '\x7b' ∧ marker ≠ ':' ∧ marker ≠ ',' ∧ marker ≠ '\x7d' := by decide
  rw [Token.record_eq]
  simp [marker_not_mem_stringText, marker_not_mem_intText, marks]

end DesignLayout
