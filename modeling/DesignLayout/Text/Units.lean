/-!
# Sixteen-bit units

Hosts that keep text in sixteen-bit units see a character above `0xFFFF` as
two units, a high and a low surrogate.
-/

namespace DesignLayout.Text

/-- The sixteen-bit units of a character. -/
def characterUnits (character : Char) : List Nat :=
  if character.toNat < 0x10000 then [character.toNat]
  else
    [0xD800 + (character.toNat - 0x10000) / 0x400,
      0xDC00 + (character.toNat - 0x10000) % 0x400]

/-- The sixteen-bit units of a text. -/
def units (text : String) : List Nat :=
  text.toList.flatMap characterUnits

@[simp] theorem units_append (left right : String) :
    units (left ++ right) = units left ++ units right := by
  simp [units]

end DesignLayout.Text
