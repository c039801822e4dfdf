import DesignLayout.Proofs.Json.Fields
import DesignLayout.Proofs.Json.Lexing
import DesignLayout.Settings

/-!
# Settings are read back

The text of a settings file is read as the settings that it was written from,
whatever their config contains.
-/

namespace DesignLayout

open Json

theorem Window.ofJson?_toJson (window : Window) : Window.ofJson? window.toJson = some window := by
  apply record?_obj
  rw [run_requiredField_bind rfl (uint32?_toNat window.width),
    run_requiredField_bind rfl (uint32?_toNat window.height)]
  rfl

namespace Settings

/-- The lexemes of a settings file, in order. -/
def fileLexemes (settings : Settings) : List Lexeme :=
  [.openObject, .string (some "pluginWindowSize"), .colon,
    .openObject, .string (some "w"), .colon, .scalar (.int settings.window.width.toNat), .comma,
    .string (some "h"), .colon, .scalar (.int settings.window.height.toNat), .closeObject, .comma,
    .string (some "mappingConfig"), .colon, .string (some settings.config), .comma,
    .string (some "showMappedValues"), .colon, .scalar (.bool settings.showsValues), .closeObject]

/-- A field stands on a line of its own. -/
def fieldText (depth : Nat) (name : String) (text : List Char) : List Char :=
  lineStart depth ++ (stringText name ++ (':' :: ' ' :: text))

theorem lexes_fieldText (depth : Nat) (name : String) {text : List Char} {lexemes : List Lexeme}
    (read : Lexes text lexemes) :
    Lexes (fieldText depth name text) (.string (some name) :: .colon :: lexemes) := by
  have colon : Lexes [':', ' '] [.colon] := fun _ => rfl
  exact (lexes_lineStart depth).append ((lexes_stringText name).append (colon.append read))

theorem fileText_eq (settings : Settings) :
    settings.toJson.prettyText 0 =
      ['\x7b'] ++ (fieldText 1 "pluginWindowSize"
        (['\x7b'] ++ (fieldText 2 "w" (intText settings.window.width.toNat ++ [',']) ++
          (fieldText 2 "h" (intText settings.window.height.toNat ++ ['\n']) ++
            [' ', ' ', '\x7d', ',']))) ++
        (fieldText 1 "mappingConfig" (stringText settings.config ++ [',']) ++
          (fieldText 1 "showMappedValues" (scalarText (.bool settings.showsValues) ++ ['\n']) ++
            ['\x7d']))) := by
  simp [toJson, Window.toJson, prettyText, prettyFields, fieldText, lineStart, scalarText]

private theorem lexes_number (number : UInt32) {next : Char} {lexemes : List Lexeme}
    (ends : Lexeme.isNumeralCharacter next = false) (read : Lexes [next] lexemes) :
    Lexes (intText number.toNat ++ [next]) (.scalar (.int number.toNat) :: lexemes) := by
  have low : -(2 : Int) ^ 63 ≤ number.toNat :=
    (show -(2 : Int) ^ 63 ≤ 0 by decide).trans (Int.natCast_nonneg _)
  have small : (number.toNat : Int) < 2 ^ 32 := by exact_mod_cast number.toNat_lt
  have high : (number.toNat : Int) < 2 ^ 64 := small.trans (by norm_num)
  exact lexes_intText low high ends read

private theorem lexes_truth (truth : Bool) :
    Lexes (scalarText (.bool truth) ++ ['\n']) [.scalar (.bool truth)] := by
  cases truth <;> exact fun _ => rfl

theorem lexes_fileText (settings : Settings) :
    Lexes (settings.toJson.prettyText 0) settings.fileLexemes := by
  have opening : Lexes ['\x7b'] [.openObject] := lexes_mark fun _ => rfl
  have closing : Lexes ['\x7d'] [.closeObject] := lexes_mark fun _ => rfl
  have comma : Lexes [','] [.comma] := lexes_mark fun _ => rfl
  have blank : Lexes ['\n'] [] := fun _ => rfl
  have width := lexes_fieldText 2 "w" (lexes_number settings.window.width rfl comma)
  have height := lexes_fieldText 2 "h" (lexes_number settings.window.height rfl blank)
  have close : Lexes [' ', ' ', '\x7d', ','] [.closeObject, .comma] := fun _ => rfl
  have window := lexes_fieldText 1 "pluginWindowSize"
    (opening.append (width.append (height.append close)))
  have config := lexes_fieldText 1 "mappingConfig"
    ((lexes_stringText settings.config).append comma)
  have shows := lexes_fieldText 1 "showMappedValues" (lexes_truth settings.showsValues)
  rw [fileText_eq]
  exact opening.append (window.append (config.append (shows.append closing)))

theorem ofJson?_toJson (settings : Settings) : ofJson? settings.toJson = some settings := by
  apply record?_obj
  rw [run_requiredField_bind rfl settings.window.ofJson?_toJson,
    run_requiredField_bind rfl (rfl : string? (.str settings.config) = some settings.config),
    run_requiredField_bind rfl
      (rfl : bool? (.bool settings.showsValues) = some settings.showsValues)]
  rfl

private theorem parse?_pretty (settings : Settings) :
    Json.parse? settings.fileText = some settings.toJson := by
  rw [fileText, pretty, Json.parse?, String.toList_ofList, ofCharacters?,
    (lexes_fileText settings).list?]
  rfl

theorem parse?_fileText (settings : Settings) : parse? settings.fileText = some settings := by
  rw [parse?, parse?_pretty, Option.bind_eq_bind, Option.bind_some, ofJson?_toJson]

/-- A settings file holds its settings. -/
theorem parse_fileText (settings : Settings) : parse settings.fileText = settings := by
  rw [parse, parse?_fileText, Option.getD_some]

end Settings

end DesignLayout
