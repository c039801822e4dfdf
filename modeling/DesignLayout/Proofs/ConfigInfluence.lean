import DesignLayout.Proofs.SavedEdits

/-!
# What a saved config can change

Printing a tree lays the table of the saved config over that of the tree.  No
config makes a printing fail, and marked text and names do not show it.  Where
values are shown, a token shows the value that the config has under its
category and id, and without one the value with which it was written.  A text
that is no config has no values, however much of it could be read.
-/

namespace DesignLayout

namespace TokenTable

/-- The value that a config text has for a token.  A text that is no config has
none. -/
def configValue? (text : String) (token : Token) : Option String :=
  match ofConfig text with
  | .ok table => (table.get? token.category token.id).map Token.value
  | .error _ => none

theorem configValue?_eq (text : String) (token : Token) :
    configValue? text token =
      ((ofConfigOrEmpty text).get? token.category token.id).map Token.value := by
  rw [configValue?, ofConfigOrEmpty]
  cases ofConfig text with
  | ok table => rfl
  | error fault => rw [get?_empty, Option.map_none]

end TokenTable

namespace Command

variable {root : Layout} {code : Code} {table : TokenTable} {fault : CommandFault}

/-- What is printed is the code of the tree under its table with that of the
config laid over it. -/
theorem printedSource_text (rendered : renderTree root = .ok (code, table))
    (settings : Settings) (marked : Bool) :
    (printedSource root settings marked).map Prod.fst =
      printedCode code (table.merge (.ofConfigOrEmpty settings.config) true)
        settings.showsValues marked := by
  rw [printedSource_eq, rendered]
  show (printedCode _ _ _ _ >>= _).map Prod.fst = _
  cases printedCode code (table.merge (.ofConfigOrEmpty settings.config) true)
    settings.showsValues marked <;> rfl

theorem printedSource_of_error (fails : renderTree root = .error fault) (settings : Settings)
    (marked : Bool) : printedSource root settings marked = .error fault := by
  rw [printedSource_eq, fails]
  rfl

/-- Names are shown without the table. -/
theorem sourceText_names (code : Code) (table other : TokenTable) :
    code.sourceText table false = code.sourceText other false :=
  Code.displayWith_congr fun _ _ => rfl

/-- A token that is printed with its value shows that of the config, or else
the one that it was written with. -/
theorem sourceText_config (rendered : renderTree root = .ok (code, table)) (config : String) :
    code.sourceText (table.merge (.ofConfigOrEmpty config) true) true =
      code.displayWith fun token => (TokenTable.configValue? config token).getD token.value := by
  apply Code.displayWith_congr
  intro token member
  have saved := (TokenTable.named_ofConfigOrEmpty config).filed
  have laid := TokenTable.get?_merge saved table token.category token.id
  rw [get?_of_renderTree rendered member] at laid
  rw [Code.display, if_pos rfl, laid, TokenTable.configValue?_eq]
  cases (TokenTable.ofConfigOrEmpty config).get? token.category token.id <;> rfl

/-- Whether a tree can be printed does not hang on the config. -/
theorem printedSource_outcome (root : Layout) (window : Window) (config other : String)
    (showsValues marked : Bool) :
    (printedSource root ⟨window, config, showsValues⟩ marked).map (fun _ => ()) =
      (printedSource root ⟨window, other, showsValues⟩ marked).map fun _ => () := by
  have ofText : ∀ result : Except CommandFault (String × TokenTable),
      (result.map fun _ => ()) = (result.map Prod.fst).map fun _ => () := by
    intro result
    cases result <;> rfl
  cases rendered : renderTree root with
  | error fault => rw [printedSource_of_error rendered, printedSource_of_error rendered]
  | ok both =>
      obtain ⟨code, table⟩ := both
      rw [ofText, ofText, printedSource_text rendered, printedSource_text rendered]
      cases marked <;> rfl

/-- Under settings that differ in their config alone, printings succeed both or
fail with one fault.  Marked text is the same, and so is text with names.  Text
with values is the code of the tree, in which each token shows the value that
the config has for it, or else the one that it was written with. -/
theorem printedSource_config (root : Layout) (window : Window) (config other : String) :
    (∀ showsValues marked,
      (printedSource root ⟨window, config, showsValues⟩ marked).map (fun _ => ()) =
        (printedSource root ⟨window, other, showsValues⟩ marked).map fun _ => ()) ∧
    (∀ showsValues, (printedSource root ⟨window, config, showsValues⟩ true).map Prod.fst =
      (printedSource root ⟨window, other, showsValues⟩ true).map Prod.fst) ∧
    (printedSource root ⟨window, config, false⟩ false).map Prod.fst =
      (printedSource root ⟨window, other, false⟩ false).map Prod.fst ∧
    (printedSource root ⟨window, config, true⟩ false).map Prod.fst =
      (renderTree root).map fun rendered => rendered.1.displayWith fun token =>
        (TokenTable.configValue? config token).getD token.value := by
  refine ⟨printedSource_outcome root window config other, ?_⟩
  cases rendered : renderTree root with
  | error fault =>
      have fails := printedSource_of_error rendered
      simp only [fails, Except.map, implies_true, and_self]
  | ok both =>
      obtain ⟨code, table⟩ := both
      have text := printedSource_text rendered
      refine ⟨fun showsValues => ?_, ?_, ?_⟩
      · rw [text, text]
        rfl
      · rw [text, text]
        exact congrArg Except.ok (sourceText_names _ _ _)
      · rw [text]
        exact congrArg Except.ok (sourceText_config rendered config)

/-- One unknown section, and none of the values counts. -/
example : TokenTable.configValue? "[padding]\n\"16.dp\" = \"20.dp\"\n[margin]\n"
    (Token.named .padding "16.dp" "16.dp") = none := by
  decide +kernel

end Command

end DesignLayout
