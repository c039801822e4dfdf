import DesignLayout.Proofs.SavedEdits
import DesignLayout.Proofs.SettingsRecord

/-!
# Running again on saved settings

A rendering that saves leaves its settings with the config of its table.  Run
again it reads these settings, and lays the table that it finds there over the
same rendering.  That is the table that was saved, wherever the saved text can
be read back, and then the second run does what the first did.
-/

namespace DesignLayout

namespace RenderFlags

/-- The settings under which a tree is printed. -/
def settings (flags : RenderFlags) (stored : Settings) : Settings :=
  if flags.names then { stored with showsValues := false } else stored

theorem config_settings (flags : RenderFlags) (stored : Settings) :
    (flags.settings stored).config = stored.config := by
  unfold settings
  split <;> rfl

/-- The flags change nothing in settings that they have changed before. -/
theorem settings_again (flags : RenderFlags) (stored : Settings) (config : String) :
    flags.settings { flags.settings stored with config } =
      { flags.settings stored with config } := by
  unfold settings
  split <;> rfl

end RenderFlags

namespace Directory

/-- A directory with some files, by name and text. -/
def ofFiles (files : List (String × String)) : Directory :=
  fun name => (files.lookup name).elim .absent .text

theorem after_saved (directory : Directory) (printed name content other : String) :
    directory.after (.ok ⟨printed, some (name, content)⟩) other =
      if other = name then .text content else directory other := rfl

theorem after_after (directory : Directory) (result : Except CommandFault Effect) :
    (directory.after result).after result = directory.after result := by
  funext other
  rcases result with _ | ⟨printed, saved⟩
  · rfl
  · cases saved with
    | none => rfl
    | some file =>
        rw [after_saved, after_saved]
        split <;> rfl

end Directory

namespace Command

variable {directory : Directory} {document settingsFile : String} {flags : RenderFlags}
  {effect : Effect} {root : Layout} {stored : Settings} {code : Code} {table : TokenTable}

/-- What a rendering does once its files are read and its tree is rendered. -/
def saving (settingsFile : String) (flags : RenderFlags) (settings : Settings) (code : Code)
    (table : TokenTable) : Except CommandFault Effect := do
  let printed ← printedCode code table settings.showsValues flags.marked
  let saved := { settings with config := table.configText }
  return ⟨printed, if flags.save then some (settingsFile, saved.fileText) else none⟩

theorem saving_eq (settingsFile : String) (saves : flags.save = true) (settings : Settings)
    {printed : String}
    (shown : printedCode code table settings.showsValues flags.marked = .ok printed) :
    saving settingsFile flags settings code table = .ok
      ⟨printed, some (settingsFile, { settings with config := table.configText }.fileText)⟩ := by
  rw [saving, shown, saves]
  rfl

theorem run_render_eq (directory : Directory) (document settingsFile : String)
    (flags : RenderFlags) :
    run directory (.render document settingsFile flags) = (do
      let root ← readLayout directory document
      let stored ← readSettings directory settingsFile
      let (code, rendered) ← renderTree root
      let table := rendered.merge (.ofConfigOrEmpty stored.config) true
      saving settingsFile flags (flags.settings stored) code table) := by
  rw [run]
  congr 1
  funext root
  congr 1
  funext stored
  have printed : printedSource root (flags.settings stored) flags.marked = do
      let (code, rendered) ← renderTree root
      let table := rendered.merge (.ofConfigOrEmpty stored.config) true
      let printed ← printedCode code table (flags.settings stored).showsValues flags.marked
      return (printed, table) := by
    rw [printedSource_eq, flags.config_settings]
  simp only [RenderFlags.settings] at printed ⊢
  rw [printed, bind_assoc]
  congr 1
  funext ⟨code, rendered⟩
  exact bind_assoc _ _ _

theorem run_render_of (layout : readLayout directory document = .ok root)
    (settings : readSettings directory settingsFile = .ok stored)
    (rendered : renderTree root = .ok (code, table)) :
    run directory (.render document settingsFile flags) =
      saving settingsFile flags (flags.settings stored) code
        (table.merge (.ofConfigOrEmpty stored.config) true) := by
  rw [run_render_eq, layout, settings]
  show (renderTree root >>= _) = _
  rw [rendered]
  rfl

theorem exists_of_run_render
    (ran : run directory (.render document settingsFile flags) = .ok effect) :
    ∃ root stored code table, readLayout directory document = .ok root ∧
      readSettings directory settingsFile = .ok stored ∧
      renderTree root = .ok (code, table) := by
  rw [run_render_eq] at ran
  obtain ⟨root, layout, ran⟩ := exists_of_bind ran
  obtain ⟨stored, settings, ran⟩ := exists_of_bind ran
  obtain ⟨⟨code, table⟩, rendered, -⟩ := exists_of_bind ran
  exact ⟨root, stored, code, table, layout, settings, rendered⟩

theorem readLayout_congr {other : Directory} {name : String} (same : directory name = other name) :
    readLayout directory name = readLayout other name := by
  simp only [readLayout, readDocument, same]

/-- The file that is saved tells the table, as settings are read back and a
named table has a config text of its own. -/
theorem saving_injective {settings : Settings} {laid : TokenTable} (named : table.Named)
    (laidNamed : laid.Named) (saves : flags.save = true)
    (ran : saving settingsFile flags settings code table = .ok effect)
    (again : saving settingsFile flags settings code laid = .ok effect) : table = laid := by
  obtain ⟨printed, -, ran⟩ := exists_of_bind ran
  obtain ⟨others, -, again⟩ := exists_of_bind again
  have same := Except.ok.inj (ran.trans again.symm)
  simp only [saves, if_true, Effect.mk.injEq, Option.some.injEq, Prod.mk.injEq, true_and] at same
  have parsed := congrArg Settings.parse same.2
  rw [Settings.parse_fileText, Settings.parse_fileText] at parsed
  exact named.configText_injective laidNamed (congrArg Settings.config parsed)

/-- A rendering that saved lays what it finds of its own table over the same
rendering. -/
theorem run_render_after (apart : document ≠ settingsFile) (saves : flags.save = true)
    (layout : readLayout directory document = .ok root)
    (rendered : renderTree root = .ok (code, table)) {laid : TokenTable}
    (merged : table.merge (.ofConfigOrEmpty stored.config) true = laid)
    (ran : saving settingsFile flags (flags.settings stored) code laid = .ok effect) :
    run (directory.after (.ok effect)) (.render document settingsFile flags) =
      saving settingsFile flags (flags.settings stored) code
        (if laid.OpensWithDate then table else laid) := by
  obtain ⟨printed, -, saved⟩ := exists_of_bind ran
  obtain rfl := Except.ok.inj saved
  let kept : Settings := { flags.settings stored with config := laid.configText }
  rw [if_pos saves]
  let left := directory.after (.ok ⟨printed, some (settingsFile, kept.fileText)⟩)
  have found : left settingsFile = .text kept.fileText := if_pos rfl
  have others : left document = directory document := if_neg apart
  have layoutAgain : readLayout left document = .ok root :=
    (readLayout_congr others).trans layout
  have settingsAgain : readSettings left settingsFile = .ok kept := by
    rw [readSettings, found]
    exact congrArg Except.ok kept.parse_fileText
  have laidAgain : table.merge (.ofConfigOrEmpty kept.config) true =
      if laid.OpensWithDate then table else laid := by
    subst merged
    exact (named_of_renderTree rendered).merge_saved_merge
      (TokenTable.named_ofConfigOrEmpty stored.config)
  rw [run_render_of layoutAgain settingsAgain rendered, flags.settings_again, laidAgain]
  rfl

/-- A rendering that saved is run again.  It finds the settings that it left,
prints the same text and writes the same file, unless the reserved key opens a
section of what it saved: then the settings that were laid over its table are
lost, and the second run does the same only if they had changed nothing. -/
theorem run_render_again (apart : document ≠ settingsFile) (saves : flags.save = true)
    (ran : run directory (.render document settingsFile flags) = .ok effect) :
    ∃ root stored code table, readLayout directory document = .ok root ∧
      readSettings directory settingsFile = .ok stored ∧ renderTree root = .ok (code, table) ∧
      let laid := table.merge (.ofConfigOrEmpty stored.config) true
      let left := directory.after (.ok effect)
      left.after (.ok effect) = left ∧
      (run left (.render document settingsFile flags) = .ok effect ↔
        (laid.OpensWithDate → laid = table)) := by
  obtain ⟨root, stored, code, table, layout, settings, rendered⟩ := exists_of_run_render ran
  refine ⟨root, stored, code, table, layout, settings, rendered, ?_⟩
  intro laid left
  refine ⟨directory.after_after _, ?_⟩
  rw [run_render_of layout settings rendered] at ran
  have again := run_render_after apart saves layout rendered rfl ran
  rw [again]
  constructor
  -- The settings were lost, so the two files that were written have the configs
  -- of the two tables.
  · intro same dated
    have named := named_of_renderTree rendered
    have laidNamed := named.merge (TokenTable.named_ofConfigOrEmpty stored.config)
    rw [if_pos dated] at same
    exact saving_injective laidNamed named saves ran same
  · intro unchanged
    have same : (if laid.OpensWithDate then table else laid) = laid := by
      split
      case isTrue dated => exact (unchanged dated).symm
      case isFalse => rfl
    rw [same]
    exact ran

/-- The config of the settings has another value for the padding, and is
written in another way than it is saved. -/
theorem run_render_again_padding :
    let directory := Directory.ofFiles
      [("doc.json", "\x7b\"root\":\x7b\"type\":\"FRAME\",\"paddingTop\":16\x7d\x7d"),
        ("kompose.json",
          Settings.fileText ⟨⟨800, 600⟩, "padding = \x7b'16.dp' = '20.dp'\x7d", true⟩)]
    let command := render "doc.json" "kompose.json" { save := true }
    ∃ effect, effect.printed =
        "// \nBox(\n    modifier = Modifier\n        .padding(top = 20.dp),\n) \x7b\n" ++
          "    // empty\n\x7d\n" ∧
      run directory command = .ok effect ∧
      run (directory.after (.ok effect)) command = .ok effect := by
  intro directory command
  let code : Code := ⟨[.text "// \nBox(\n    modifier = Modifier\n        .padding(top = ",
    .token (Token.named .padding "16.dp" "16.dp"), .text "),\n) \x7b\n    // empty\n\x7d\n"]⟩
  let table := TokenTable.ofList [.named .padding "16.dp" "16.dp"]
  let config := "padding = \x7b'16.dp' = '20.dp'\x7d"
  have rendering : (readLayout directory "doc.json" >>= renderTree) = .ok (code, table) := by
    decide +kernel
  obtain ⟨root, layout, rendered⟩ := exists_of_bind rendering
  let stored : Settings := ⟨⟨800, 600⟩, config, true⟩
  have settings : readSettings directory "kompose.json" = .ok stored :=
    congrArg Except.ok stored.parse_fileText
  have shown : printedCode code (table.merge (.ofConfigOrEmpty config) true) true false =
      .ok ("// \nBox(\n    modifier = Modifier\n        .padding(top = 20.dp),\n) \x7b\n" ++
        "    // empty\n\x7d\n") := by
    decide +kernel
  let flags : RenderFlags := { save := true }
  have saves : flags.save = true := rfl
  have ran := (run_render_of layout settings rendered).trans (saving_eq _ saves stored shown)
  obtain ⟨_, _, _, _, layout', settings', rendered', -, again⟩ :=
    run_render_again (by decide) saves ran
  cases layout.symm.trans layout'
  cases settings.symm.trans settings'
  cases rendered.symm.trans rendered'
  exact ⟨_, rfl, ran, again.mpr fun dated => absurd dated (by decide +kernel)⟩

/-- A link with the reserved name opens the section of paddings, and the value
that the settings had for the other padding is lost in the second run. -/
theorem run_render_again_reservedKey :
    ¬ ∀ (directory : Directory) (document settingsFile : String) (flags : RenderFlags)
      (effect : Effect), document ≠ settingsFile → flags.save = true →
      run directory (.render document settingsFile flags) = .ok effect →
      run (directory.after (.ok effect)) (.render document settingsFile flags) = .ok effect := by
  intro claim
  let config := "[padding]\n\"16.dp\" = \"20.dp\"\n"
  let directory := Directory.ofFiles
    [("doc.json", "\x7b\"root\":\x7b\"type\":\"FRAME\",\"paddingLeft\":8,\"paddingTop\":16," ++
        "\"boundVariables\":\x7b\"paddingLeft\":\x7b\"id\":\"v\"\x7d\x7d\x7d," ++
        "\"variables\":\x7b\"v\":\x7b\"name\":\"$__toml_private_datetime\"," ++
        "\"resolvedType\":\"FLOAT\"\x7d\x7d\x7d"),
      ("kompose.json", Settings.fileText ⟨⟨800, 600⟩, config, true⟩)]
  let code : Code := ⟨[.text "// \nBox(\n    modifier = Modifier\n        .padding(start = ",
    .token (Token.named .padding Toml.dateKey "8.dp"), .text ", top = ",
    .token (Token.named .padding "16.dp" "16.dp"), .text "),\n) \x7b\n    // empty\n\x7d\n"]⟩
  let table := TokenTable.ofList
    [.named .padding Toml.dateKey "8.dp", .named .padding "16.dp" "16.dp"]
  have rendering : (readLayout directory "doc.json" >>= renderTree) = .ok (code, table) := by
    decide +kernel
  obtain ⟨root, layout, rendered⟩ := exists_of_bind rendering
  let stored : Settings := ⟨⟨800, 600⟩, config, true⟩
  have settings : readSettings directory "kompose.json" = .ok stored :=
    congrArg Except.ok stored.parse_fileText
  have shown : printedCode code (table.merge (.ofConfigOrEmpty config) true) true false =
      .ok ("// \nBox(\n    modifier = Modifier\n        .padding(start = 8.dp, top = 20.dp),\n" ++
        ") \x7b\n    // empty\n\x7d\n") := by
    decide +kernel
  let flags : RenderFlags := { save := true }
  have saves : flags.save = true := rfl
  have ran := saving_eq "kompose.json" saves stored shown
  have again := claim directory "doc.json" "kompose.json" flags _ (by decide) saves
    ((run_render_of layout settings rendered).trans ran)
  rw [run_render_after (by decide) saves layout rendered rfl ran] at again
  exact absurd again (by decide +kernel)

end Command

end DesignLayout
