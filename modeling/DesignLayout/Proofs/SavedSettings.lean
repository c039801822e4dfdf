import DesignLayout.Proofs.SavedRuns

/-!
# What a rendering saves

A rendering that saves writes the settings under which it printed, with the
config of its table in place of theirs.  The window stays as it was.  Whether
values are shown stays as it was too, unless the rendering was asked for names:
then the file says from now on that values are not shown.
-/

namespace DesignLayout.Command

variable {directory : Directory} {document settingsFile content : String} {flags : RenderFlags}
  {effect : Effect} {stored : Settings}

/-- The settings in a file that holds a complete record. -/
theorem readSettings_of_complete (present : directory settingsFile = .text content)
    (complete : Settings.parse? content = some stored) :
    readSettings directory settingsFile = .ok stored := by
  rw [readSettings, present]
  show Except.ok ((Settings.parse? content).getD .default) = _
  rw [complete, Option.getD_some]

/-- What a rendering saves are the settings under which it printed, with the
config of its table. -/
theorem exists_saved_of_run_render (saves : flags.save = true)
    (settings : readSettings directory settingsFile = .ok stored)
    (ran : run directory (.render document settingsFile flags) = .ok effect) :
    ∃ config : String, effect.saved =
      some (settingsFile, { flags.settings stored with config }.fileText) := by
  obtain ⟨root, other, code, table, layout, others, rendered⟩ := exists_of_run_render ran
  obtain rfl := Except.ok.inj (settings.symm.trans others)
  rw [run_render_of layout settings rendered] at ran
  obtain ⟨printed, -, ran⟩ := exists_of_bind ran
  obtain rfl := Except.ok.inj ran
  exact ⟨_, if_pos saves⟩

/-- A rendering that saves succeeds where its tree is rendered and printed. -/
theorem run_render_saving {code : Code} {table : TokenTable} {printed : String}
    (saves : flags.save = true) (settings : readSettings directory settingsFile = .ok stored)
    (rendering : (readLayout directory document >>= renderTree) = .ok (code, table))
    (shown : printedCode code (table.merge (.ofConfigOrEmpty stored.config) true)
      (flags.settings stored).showsValues flags.marked = .ok printed) :
    ∃ config : String, run directory (.render document settingsFile flags) = .ok
      ⟨printed, some (settingsFile, { flags.settings stored with config }.fileText)⟩ := by
  obtain ⟨root, layout, rendered⟩ := exists_of_bind rendering
  exact ⟨_, (run_render_of layout settings rendered).trans (saving_eq _ saves _ shown)⟩

/-- A rendering that saves writes its settings file and no other.  The record
that it leaves there has the window that was loaded, and says that values are
shown if the loaded record did and names were not asked for.  So it differs
from what was loaded at most in the config just where names were not asked for
or values were not shown before. -/
theorem run_render_saved (present : directory settingsFile = .text content)
    (complete : Settings.parse? content = some stored) (saves : flags.save = true)
    (ran : run directory (.render document settingsFile flags) = .ok effect) :
    ∃ kept : Settings,
      (∀ other, directory.after (.ok effect) other =
        if other = settingsFile then .text kept.fileText else directory other) ∧
      Settings.parse? kept.fileText = some kept ∧
      kept.window = stored.window ∧
      kept.showsValues = (stored.showsValues && !flags.names) ∧
      ({ kept with config := stored.config } = stored ↔
        (flags.names = true → stored.showsValues = false)) := by
  obtain ⟨config, saved⟩ :=
    exists_saved_of_run_render saves (readSettings_of_complete present complete) ran
  obtain ⟨printed, written⟩ := effect
  cases saved
  refine ⟨{ flags.settings stored with config }, directory.after_saved printed settingsFile _,
    Settings.parse?_fileText _, ?_⟩
  rcases stored with ⟨window, before, shows⟩
  rcases flags with ⟨names, marked, save⟩
  cases names with
  | false => simp [RenderFlags.settings]
  | true => simp [RenderFlags.settings, eq_comm]

/-- Names are asked for where values were not shown before, and the record lists
its fields in another order than it is saved. -/
theorem run_render_saved_hiddenValues :
    let content := "\x7b\"showMappedValues\":false,\"mappingConfig\":\"\"," ++
      "\"pluginWindowSize\":\x7b\"h\":768,\"w\":1024\x7d\x7d"
    let stored : Settings := ⟨⟨1024, 768⟩, "", false⟩
    let directory := Directory.ofFiles
      [("doc.json", "\x7b\"root\":\x7b\"type\":\"FRAME\",\"paddingTop\":16\x7d\x7d"),
        ("kompose.json", content)]
    ∃ (effect : Effect) (kept : Settings),
      run directory (.render "doc.json" "kompose.json" ⟨true, false, true⟩) = .ok effect ∧
      directory.after (.ok effect) "kompose.json" = .text kept.fileText ∧
      { kept with config := stored.config } = stored := by
  intro content stored directory
  let code : Code := ⟨[.text "// \nBox(\n    modifier = Modifier\n        .padding(top = ",
    .token (Token.named .padding "16.dp" "16.dp"), .text "),\n) \x7b\n    // empty\n\x7d\n"]⟩
  let table := TokenTable.ofList [.named .padding "16.dp" "16.dp"]
  have complete : Settings.parse? content = some stored := by
    decide +kernel
  have rendering : (readLayout directory "doc.json" >>= renderTree) = .ok (code, table) := by
    decide +kernel
  have shown : printedCode code (table.merge (.ofConfigOrEmpty "") true) false false =
      .ok ("// \nBox(\n    modifier = Modifier\n        .padding(top = 16.dp),\n) \x7b\n" ++
        "    // empty\n\x7d\n") := by
    decide
  let flags : RenderFlags := ⟨true, false, true⟩
  have present : directory "kompose.json" = .text content := rfl
  have settings := readSettings_of_complete present complete
  have saves : flags.save = true := rfl
  obtain ⟨config, ran⟩ := run_render_saving saves settings rendering shown
  obtain ⟨kept, files, -, -, -, changes⟩ := run_render_saved present complete saves ran
  exact ⟨_, kept, ran, (files _).trans (if_pos rfl), changes.mpr fun _ => rfl⟩

/-- Names are asked for where values were shown before: the file that is saved
says that they are not. -/
theorem run_render_saved_names :
    ¬ ∀ (directory : Directory) (document settingsFile content : String) (flags : RenderFlags)
      (effect : Effect) (stored : Settings), directory settingsFile = .text content →
      Settings.parse? content = some stored → flags.save = true →
      run directory (.render document settingsFile flags) = .ok effect →
      ∃ kept : Settings, directory.after (.ok effect) settingsFile = .text kept.fileText ∧
        { kept with config := stored.config } = stored := by
  intro claim
  let stored : Settings := ⟨⟨800, 600⟩, "", true⟩
  let directory := Directory.ofFiles
    [("doc.json", "\x7b\"root\":\x7b\"type\":\"FRAME\",\"paddingTop\":16\x7d\x7d"),
      ("kompose.json", stored.fileText)]
  let code : Code := ⟨[.text "// \nBox(\n    modifier = Modifier\n        .padding(top = ",
    .token (Token.named .padding "16.dp" "16.dp"), .text "),\n) \x7b\n    // empty\n\x7d\n"]⟩
  let table := TokenTable.ofList [.named .padding "16.dp" "16.dp"]
  have rendering : (readLayout directory "doc.json" >>= renderTree) = .ok (code, table) := by
    decide +kernel
  have shown : printedCode code (table.merge (.ofConfigOrEmpty "") true) false false =
      .ok ("// \nBox(\n    modifier = Modifier\n        .padding(top = 16.dp),\n) \x7b\n" ++
        "    // empty\n\x7d\n") := by
    decide +kernel
  let flags : RenderFlags := ⟨true, false, true⟩
  have complete : Settings.parse? stored.fileText = some stored := stored.parse?_fileText
  have present : directory "kompose.json" = .text stored.fileText := rfl
  have settings := readSettings_of_complete present complete
  have saves : flags.save = true := rfl
  obtain ⟨config, ran⟩ := run_render_saving saves settings rendering shown
  obtain ⟨kept, file, unchanged⟩ :=
    claim directory "doc.json" "kompose.json" stored.fileText flags _ stored present complete saves
      ran
  have texts := congrArg Settings.parse? (File.text.inj file)
  rw [Settings.parse?_fileText, Settings.parse?_fileText, Option.some.injEq] at texts
  have shows := congrArg Settings.showsValues unchanged
  rw [← texts] at shows
  exact Bool.false_ne_true shows

end DesignLayout.Command
