import DesignLayout.Command
import DesignLayout.Proofs.NamedTables
import DesignLayout.Proofs.ValueTokens

/-!
# Edits of saved tokens

A tree that is rendered by itself has a named table with every token of its
code.  When a value of the table is edited and the table is saved, rendering
the tree again shows the edited value wherever its token stands and every
other token as before.  Nothing of the edit is left where the saved text is
not read back.
-/

namespace DesignLayout.Command

variable {root : Layout} {code : Code} {table : TokenTable}

theorem renderTree_eq_ok_iff :
    renderTree root = .ok (code, table) ↔ (root.render {}).Gives .empty code ⟨table⟩ := by
  unfold renderTree Registering.Gives
  generalize (root.render {}).run.run Registry.empty = outcome
  rcases outcome with ⟨result, ⟨after⟩⟩
  cases result <;> simp [Id.run]

/-- The tokens of a rendering are those that its values ask for, and these go
by names. -/
theorem named_of_renderTree (rendered : renderTree root = .ok (code, table)) : table.Named := by
  obtain ⟨⟨owns, asks, stored⟩, -⟩ := Layout.shows_render (renderTree_eq_ok_iff.mp rendered)
  obtain rfl : table = owns.foldl TokenTable.insertNew .empty := congrArg Registry.table stored
  refine ⟨TokenTable.filed_empty.foldl_insertNew owns, ?_⟩
  intro token member
  rcases TokenTable.mem_toList_foldl_insertNew member with own | none
  · exact DesignValue.idOfName_of_mem_ownTokens asks own
  · exact absurd none TokenTable.not_mem_toList_empty

theorem get?_of_renderTree (rendered : renderTree root = .ok (code, table)) {token : Token}
    (member : token ∈ code.tokens) : table.get? token.category token.id = some token :=
  (Layout.stored_render TokenTable.filed_empty (renderTree_eq_ok_iff.mp rendered)).get?_of_mem
    member

theorem sourceText_of_renderTree (rendered : renderTree root = .ok (code, table)) :
    code.sourceText table true = code.plainText := by
  apply Code.displayWith_congr
  intro token member
  simp [Code.display, get?_of_renderTree rendered member]

theorem sourceText_revalue (rendered : renderTree root = .ok (code, table))
    (category : Category) (id : Int32) (value : String) :
    code.sourceText (table.revalue category id value) true =
      code.displayWith fun token =>
        if token.category = category ∧ token.id = id then value else token.value := by
  apply Code.displayWith_congr
  intro token member
  by_cases edited : token.category = category ∧ token.id = id
  · obtain ⟨rfl, rfl⟩ := edited
    simp [Code.display, TokenTable.get?_revalue, get?_of_renderTree rendered member]
  · have other : ¬ (category = token.category ∧ id = token.id) :=
      fun given => edited ⟨given.1.symm, given.2.symm⟩
    simp [Code.display, TokenTable.get?_revalue, get?_of_renderTree rendered member, edited, other]

/-- The text that is printed for a code under a table. -/
def printedCode (code : Code) (table : TokenTable) (showsValues marked : Bool) :
    Except CommandFault String :=
  if marked then
    match code.markedText with
    | .ok text => .ok text
    | .error error => .error (.marker error)
  else .ok (code.sourceText table showsValues)

/-- A tree is printed under its table with that of the settings laid over
it. -/
theorem printedSource_eq (root : Layout) (settings : Settings) (marked : Bool) :
    printedSource root settings marked = do
      let (code, rendered) ← renderTree root
      let table := rendered.merge (.ofConfigOrEmpty settings.config) true
      let printed ← printedCode code table settings.showsValues marked
      return (printed, table) := by
  unfold printedSource printedCode
  congr 1
  funext ⟨code, rendered⟩
  cases marked with
  | false => rfl
  | true =>
      dsimp only
      cases code.markedText <;> rfl

theorem printedSource_unmarked (rendered : renderTree root = .ok (code, table))
    (settings : Settings) {laid : TokenTable}
    (merged : table.merge (.ofConfigOrEmpty settings.config) true = laid) :
    printedSource root settings false =
      .ok (code.sourceText laid settings.showsValues, laid) := by
  rw [printedSource_eq, rendered, ← merged]
  rfl

/-- A value that is edited and saved is shown by every token under its
category and id, the other tokens show the values they were written with, and
the table is the edited one.  Where the reserved key opens a section, the tree
is printed as if nothing had been saved. -/
theorem printedSource_revalue (rendered : renderTree root = .ok (code, table)) (window : Window)
    (category : Category) (id : Int32) (value : String) :
    (¬ table.OpensWithDate →
      printedSource root ⟨window, (table.revalue category id value).configText, true⟩ false =
        .ok (code.displayWith fun token =>
            if token.category = category ∧ token.id = id then value else token.value,
          table.revalue category id value)) ∧
    (table.OpensWithDate →
      printedSource root ⟨window, (table.revalue category id value).configText, true⟩ false =
        .ok (code.plainText, table)) := by
  have laid := (named_of_renderTree rendered).merge_saved_revalue category id value
  let settings : Settings := ⟨window, (table.revalue category id value).configText, true⟩
  constructor
  · intro undated
    rw [if_neg undated] at laid
    rw [printedSource_unmarked rendered settings laid, sourceText_revalue rendered]
  · intro dated
    rw [if_pos dated] at laid
    rw [printedSource_unmarked rendered settings laid, sourceText_of_renderTree rendered]

/-- A value with quotes of both kinds and a line break comes back from the
saved text, and the value next to it is untouched. -/
theorem printedSource_revalue_quotes :
    let root : Layout := ⟨"card", [.padding ⟨some (.linked ⟨"V:1", "gap", 8.0⟩), some (.own 16.0),
      none, none⟩], [], .box false⟩
    let table := TokenTable.ofList [.named .padding "gap" "8.dp", .named .padding "16.dp" "16.dp"]
    let edited := table.revalue .padding (tokenId "gap") "\"\"\"'''\n\""
    table ≠ edited ∧ printedSource root ⟨⟨800, 600⟩, edited.configText, true⟩ false =
      .ok ("// card\nBox(\n    modifier = Modifier\n" ++
        "        .padding(start = \"\"\"'''\n\", top = 16.dp),\n) \x7b\n    // empty\n\x7d\n",
        edited) := by
  intro root table edited
  have rendered : renderTree root =
      .ok (⟨[.text "// card\nBox(\n    modifier = Modifier\n        .padding(start = ",
        .token (Token.named .padding "gap" "8.dp"), .text ", top = ",
        .token (Token.named .padding "16.dp" "16.dp"), .text "),\n) \x7b\n    // empty\n\x7d\n"]⟩,
      table) := by
    decide +kernel
  refine ⟨by decide, ?_⟩
  exact ((printedSource_revalue rendered ⟨800, 600⟩ .padding (tokenId "gap") _).1
    (by decide)).trans (by decide)

/-- A link with the reserved name opens its section, and an edit of its value
is lost. -/
theorem printedSource_revalue_reservedKey :
    ¬ ∀ (root : Layout) (code : Code) (table : TokenTable) (window : Window)
      (category : Category) (id : Int32) (value : String),
      renderTree root = .ok (code, table) → (table.get? category id).isSome →
      printedSource root ⟨window, (table.revalue category id value).configText, true⟩ false =
        .ok (code.displayWith fun token =>
            if token.category = category ∧ token.id = id then value else token.value,
          table.revalue category id value) := by
  intro claim
  have rendered : renderTree ⟨"card", [.padding ⟨some (.linked ⟨"V:1", Toml.dateKey, 8.0⟩),
      some (.own 16.0), none, none⟩], [], .box false⟩ =
      .ok (⟨[.text "// card\nBox(\n    modifier = Modifier\n        .padding(start = ",
        .token (Token.named .padding Toml.dateKey "8.dp"), .text ", top = ",
        .token (Token.named .padding "16.dp" "16.dp"), .text "),\n) \x7b\n    // empty\n\x7d\n"]⟩,
      .ofList [.named .padding Toml.dateKey "8.dp", .named .padding "16.dp" "16.dp"]) := by
    decide +kernel
  have printed := claim _ _ _ ⟨800, 600⟩ .padding (tokenId Toml.dateKey) "20.dp" rendered
    (by decide)
  exact absurd printed (by decide +kernel)

end DesignLayout.Command
