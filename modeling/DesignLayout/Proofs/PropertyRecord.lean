import DesignLayout.Proofs.Json.Fields
import DesignLayout.Property.Json

/-!
# Properties are read back

Colors, typography and links are read as what they were written from, as long
as their numbers are finite.  No value of its own reads as a link, and no link
as a value of its own.
-/

namespace DesignLayout

open Json

theorem Color.readAs {color : Color}
    (finite : ∀ number ∈ color.channels, finiteNumber number = true) :
    ReadAs ofJson? color.toJson color where
  readable := rfl
  reads := by
    have red := float?_float (finite color.red (by simp [channels]))
    have green := float?_float (finite color.green (by simp [channels]))
    have blue := float?_float (finite color.blue (by simp [channels]))
    have alpha := float?_float (finite color.alpha (by simp [channels]))
    apply record?_obj
    rw [run_requiredField_bind rfl red, run_requiredField_bind rfl green,
      run_requiredField_bind rfl blue, run_defaultedField_bind rfl alpha]
    rfl

theorem FontFace.readAs (face : FontFace) : ReadAs ofJson? face.toJson face where
  readable := rfl
  reads := by
    apply record?_obj
    rw [run_requiredField_bind rfl (rfl : string? (.str face.family) = some face.family),
      run_requiredField_bind rfl (rfl : string? (.str face.style) = some face.style)]
    rfl

theorem LengthUnit.ofJson?_word (loose : Bool) (unit : LengthUnit) :
    ofJson? loose (.str unit.word) = some unit := by
  cases unit <;> rfl

theorem LetterSpacing.readAs {spacing : LetterSpacing} (loose : Bool)
    (finite : finiteNumber spacing.value = true) :
    ReadAs (ofJson? loose) spacing.toJson spacing where
  readable := rfl
  reads := by
    apply record?_obj
    rw [run_requiredField_bind rfl (spacing.unit.ofJson?_word loose),
      run_requiredField_bind rfl (float?_float finite)]
    rfl

namespace LineHeight

def numbers : LineHeight → List Float
  | .auto => []
  | .pixels value => [value]
  | .percent value => [value]

theorem readAs {height : LineHeight} (numbered : Bool)
    (finite : ∀ number ∈ height.numbers, finiteNumber number = true) :
    ReadAs (ofJson? numbered) height.toJson height where
  readable := by cases height <;> rfl
  reads := by
    have value : ∀ {number : Float}, finiteNumber number = true →
        record? (requiredField "value" float?) (.obj [("value", .float number)]) = some number :=
      fun finite => record?_obj (run_requiredField rfl (float?_float finite))
    cases height with
    | auto =>
        rw [ofJson?, toJson, tagged?_obj rfl]
        rfl
    | pixels number =>
        rw [ofJson?, toJson, tagged?_obj rfl, Option.bind_eq_bind, Option.bind_some]
        simp only [value (finite number List.mem_cons_self), Option.map_some]
    | percent number =>
        rw [ofJson?, toJson, tagged?_obj rfl, Option.bind_eq_bind, Option.bind_some]
        simp only [value (finite number List.mem_cons_self), Option.map_some]

end LineHeight

theorem TextDecoration.ofJson?_word (loose : Bool) (decoration : TextDecoration) :
    ofJson? loose (.str decoration.word) = some decoration := by
  cases decoration <;> rfl

theorem TextCase.ofJson?_word (loose : Bool) (letterCase : TextCase) :
    ofJson? loose (.str letterCase.word) = some letterCase := by
  cases letterCase <;> rfl

namespace Typography

def numbers (font : Typography) : List Float :=
  [font.size, font.weight, font.letterSpacing.value] ++ font.lineHeight.numbers

theorem readAs {font : Typography} (numbered : Bool)
    (finite : ∀ number ∈ font.numbers, finiteNumber number = true) :
    ReadAs (ofJson? numbered) font.toJson font := by
  have size := float?_float (finite font.size (by simp [numbers]))
  have weight := float?_float (finite font.weight (by simp [numbers]))
  have letterSpacing := LetterSpacing.readAs false
    (finite font.letterSpacing.value (by simp [numbers]))
  have lineHeight := LineHeight.readAs numbered
    fun number member => finite number (List.mem_append_right _ member)
  constructor
  · simp [toJson, isReadable, readableFields, font.face.readAs.readable, letterSpacing.readable,
      lineHeight.readable]
  · apply record?_obj
    rw [run_requiredField_bind rfl size, run_requiredField_bind rfl weight,
      run_requiredField_bind rfl (font.decoration.ofJson?_word false),
      run_requiredField_bind rfl font.face.readAs.reads,
      run_requiredField_bind rfl letterSpacing.reads,
      run_requiredField_bind rfl lineHeight.reads,
      run_requiredField_bind rfl (font.letterCase.ofJson?_word false)]
    rfl

end Typography

section properties

variable {α : Type} {read : Json → Option α} {write : α → Json}

theorem TokenLink.readAs {link : TokenLink α} (readAs : ReadAs read (write link.value) link.value) :
    ReadAs (ofJson? read) (link.toJson write) link where
  readable := by simp [toJson, isReadable, readableFields, readAs.readable]
  reads := by
    apply record?_obj
    rw [run_requiredField_bind rfl (rfl : string? (.str link.id) = some link.id),
      run_requiredField_bind rfl (rfl : string? (.str link.name) = some link.name),
      run_requiredField_bind rfl readAs.reads]
    rfl

/-- A property is read back where a value of its own does not read as a
link. -/
theorem Property.readAs {property : Property α}
    (noLink : TokenLink.ofJson? read (write property.value) = none)
    (readAs : ReadAs read (write property.value) property.value) :
    ReadAs (ofJson? read) (property.toJson write) property := by
  apply ReadAs.whole
  cases property with
  | linked link =>
      have written : ReadAs (TokenLink.ofJson? read) (link.toJson write) link :=
        TokenLink.readAs readAs
      exact ⟨written.readable, by rw [toJson, written.reads]⟩
  | own value =>
      rw [value_own] at noLink readAs
      exact ⟨readAs.readable, by rw [toJson, noLink, readAs.reads, Option.map_some]⟩

end properties

theorem Dimension.readAs {length : Dimension} (finite : finiteNumber length.value = true) :
    ReadAs ofJson? length.toJson length :=
  Property.readAs rfl ⟨rfl, float?_float finite⟩

theorem Property.readAs_color {color : Property Color}
    (finite : ∀ number ∈ color.value.channels, finiteNumber number = true) :
    ReadAs (ofJson? Color.ofJson?) (color.toJson Color.toJson) color :=
  Property.readAs rfl (Color.readAs finite)

theorem Property.readAs_typography {style : Property Typography} (numbered : Bool)
    (finite : ∀ number ∈ style.value.numbers, finiteNumber number = true) :
    ReadAs (ofJson? (Typography.ofJson? numbered)) (style.toJson Typography.toJson) style :=
  Property.readAs rfl (Typography.readAs numbered finite)

end DesignLayout
