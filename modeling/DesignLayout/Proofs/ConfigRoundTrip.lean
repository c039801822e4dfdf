import DesignLayout.Proofs.Filing
import DesignLayout.Proofs.Outcomes
import DesignLayout.Proofs.Toml.Documents
import DesignLayout.Token.Config

/-!
# Configs restore their tables

A table whose ids are those of its names is read back from its config text,
token by token and in its order.  The one thing in the way is the reserved key
of dates: a section that it opens is no table when it is read.
-/

namespace DesignLayout

namespace Toml

/-- Whether the first key of a section is the reserved one. -/
def OpensWithDate (written : String × List (String × String)) : Prop :=
  written.2.head?.map Prod.fst = some dateKey

private theorem settleEntries?_stringEntries (entries : List (String × String)) :
    settleEntries? (stringEntries entries) = some (stringEntries entries) := by
  induction entries with
  | nil => rfl
  | cons entry entries ih =>
      simp only [stringEntries] at ih
      simp [stringEntries, settleEntries?, settle?, ih]

/-- A section keeps its table, unless it opens with the reserved key. -/
theorem settle?_table {written : String × List (String × String)}
    (undated : ¬ OpensWithDate written) :
    settle? (tableEntry written).2 = some (tableEntry written).2 := by
  have noDate : Entries.dated? (stringEntries written.2) = none := by
    cases entries : written.2 with
    | nil => rfl
    | cons entry rest =>
        have different : entry.1 ≠ dateKey := by simpa [OpensWithDate, entries] using undated
        simp [stringEntries, Entries.dated?, different]
  simp [tableEntry, settle?, noDate, settleEntries?_stringEntries]

theorem settle?_dated {written : String × List (String × String)}
    (dated : OpensWithDate written) :
    settle? (tableEntry written).2 = none ∨ settle? (tableEntry written).2 = some .plain := by
  cases entries : written.2 with
  | nil => simp [OpensWithDate, entries] at dated
  | cons entry rest =>
      have reserved : entry.1 = dateKey := by simpa [OpensWithDate, entries] using dated
      by_cases date : isDateText entry.2.toList = true <;>
        simp [tableEntry, entries, stringEntries, settle?, Entries.dated?, reserved,
          isDateValue, date]

theorem settleEntries?_tables (sections : List (String × List (String × String)))
    (undated : ∀ written ∈ sections, ¬ OpensWithDate written) :
    settleEntries? (sections.map tableEntry) = some (sections.map tableEntry) := by
  induction sections with
  | nil => rfl
  | cons written sections ih =>
      have first := settle?_table (undated written List.mem_cons_self)
      have later := ih fun other member => undated other (List.mem_cons_of_mem _ member)
      simp only [tableEntry] at first later
      simp [tableEntry, settleEntries?, first, later]

/-- A section that opens with the reserved key is lost, or becomes a plain
value. -/
theorem settleEntries?_dated {sections : List (String × List (String × String))}
    {settled : Entries} (dated : ∃ written ∈ sections, OpensWithDate written)
    (result : settleEntries? (sections.map tableEntry) = some settled) :
    ∃ name, (name, .plain) ∈ settled := by
  induction sections generalizing settled with
  | nil => simp at dated
  | cons written sections ih =>
      simp only [List.map_cons, tableEntry, settleEntries?, Option.bind_eq_bind,
        Option.bind_eq_some_iff] at result
      obtain ⟨value, valueResult, rest, restResult, equal⟩ := result
      obtain rfl : (written.1, value) :: rest = settled := by simpa using equal
      by_cases first : OpensWithDate written
      · have plain : value = .plain := by
          rcases settle?_dated first with lost | kept
          · exact absurd (lost.symm.trans valueResult) (Option.some_ne_none value).symm
          · exact Option.some.inj (valueResult.symm.trans kept)
        exact ⟨written.1, by simp [plain]⟩
      · obtain ⟨other, member, reserved⟩ := dated
        have later : other ∈ sections := by
          rcases List.mem_cons.mp member with equal | later
          · exact absurd (equal ▸ reserved) first
          · exact later
        obtain ⟨name, plain⟩ := ih ⟨other, later, reserved⟩ restResult
        exact ⟨name, List.mem_cons_of_mem _ plain⟩

end Toml

namespace Config

private theorem mapM_stringEntries (entries : List (String × String)) :
    (Toml.stringEntries entries).mapM entry = .ok entries := by
  have read : ∀ pair ∈ entries, entry (pair.1, .string pair.2) = .ok (id pair) :=
    fun _ _ => rfl
  rw [Toml.stringEntries, List.mapM_map]
  exact (mapM_eq_ok read).trans (congrArg Except.ok (List.map_id entries))

/-- The tables of the categories are checked as they were written. -/
theorem sections_tables (shelves : List (Category × List (String × String))) :
    sections (shelves.map fun shelf => Toml.tableEntry (shelf.1.name, shelf.2)) =
      .ok shelves := by
  induction shelves with
  | nil => rfl
  | cons shelf shelves ih =>
      have first : sectionOf (Toml.tableEntry (shelf.1.name, shelf.2)) = .ok shelf := by
        simp [sectionOf, Toml.tableEntry, mapM_stringEntries, bind, Except.bind, pure,
          Except.pure]
      rw [sections] at ih ⊢
      rw [List.map_cons, List.mapM_cons, first, ih]
      rfl

/-- A plain value is no section. -/
theorem sections_plain {contents : Toml.Entries} {name : String}
    (member : (name, .plain) ∈ contents) : ∃ fault, sections contents = .error fault := by
  apply mapM_eq_error member
  cases category : Category.ofName? name with
  | none => exact ⟨.unknownSection name, by simp [sectionOf, category]⟩
  | some found => exact ⟨.notATable name, by simp [sectionOf, category]⟩

end Config

namespace TokenTable

variable {table : TokenTable}

/-- The names of a category are distinct, as their ids are. -/
theorem Filed.names_nodup (filed : table.Filed)
    (named : ∀ token ∈ table.toList, token.IdOfName) (category : Category) :
    ((table.tokens category).map Token.name).Nodup := by
  have ids := filed.ids_nodup category
  have hashed : (table.tokens category).map Token.id =
      ((table.tokens category).map Token.name).map tokenId := by
    rw [List.map_map]
    apply List.map_congr_left
    intro token member
    apply named token
    exact List.mem_flatMap.mpr ⟨category, category.mem_all, member⟩
  rw [hashed] at ids
  exact ids.of_map tokenId

theorem namedValues_eq (filed : table.Filed)
    (named : ∀ token ∈ table.toList, token.IdOfName) (category : Category) :
    table.namedValues category =
      (table.tokens category).map fun token => (token.name, token.value) := by
  apply OrderedMap.entries_ofList
  rw [List.map_map]
  exact filed.names_nodup named category

/-- The tokens of a category are known from their names and values. -/
theorem tokens_eq_map_namedValues (filed : table.Filed)
    (named : ∀ token ∈ table.toList, token.IdOfName) (category : Category) :
    table.tokens category =
      (table.namedValues category).map fun entry => Token.named category entry.1 entry.2 := by
  rw [namedValues_eq filed named, List.map_map]
  refine ((List.map_congr_left fun token member => ?_).trans (List.map_id _)).symm
  have id : token.id = tokenId token.name :=
    named token (List.mem_flatMap.mpr ⟨category, category.mem_all, member⟩)
  have shelved := filed.category_of_mem member
  cases token
  simp_all [Token.named]

/-- The sections of a config, made tokens again, are the tokens of the
table. -/
theorem tokens_namedValues (filed : table.Filed)
    (named : ∀ token ∈ table.toList, token.IdOfName) :
    ConfigSections.tokens (Category.all.map fun category =>
      (category, table.namedValues category)) = table.toList := by
  rw [ConfigSections.tokens, List.flatMap_map, toList]
  exact List.flatMap_congr fun category _ => (tokens_eq_map_namedValues filed named category).symm

/-- Whether a section of the config text opens with the reserved key. -/
def OpensWithDate (table : TokenTable) : Prop :=
  ∃ category, (table.tokens category).head?.map Token.name = some Toml.dateKey

private theorem readConfig_configText (filed : table.Filed)
    (named : ∀ token ∈ table.toList, token.IdOfName) :
    readConfig table.configText =
      match Toml.settleEntries? (Category.all.map fun category =>
        Toml.tableEntry (category.name, table.namedValues category)) with
      | none => .error .malformed
      | some contents => Config.sections contents := by
  have read := Toml.read?_documentText
    (Category.all.map fun category => (category.name, table.namedValues category))
    (by
      rw [List.map_map]
      exact (by decide : (Category.all.map Category.name).Nodup))
    (by
      intro written member
      obtain ⟨category, -, rfl⟩ := List.mem_map.mp member
      rw [namedValues_eq filed named, List.map_map]
      exact filed.names_nodup named category)
  rw [readConfig, configText, read, List.map_map]
  rfl

private theorem opensWithDate_iff (filed : table.Filed)
    (named : ∀ token ∈ table.toList, token.IdOfName) :
    table.OpensWithDate ↔
      ∃ written ∈ Category.all.map fun category =>
        (category.name, table.namedValues category), Toml.OpensWithDate written := by
  have sectionwise : ∀ category : Category,
      Toml.OpensWithDate (category.name, table.namedValues category) ↔
        (table.tokens category).head?.map Token.name = some Toml.dateKey := by
    intro category
    rw [Toml.OpensWithDate, namedValues_eq filed named, List.head?_map, Option.map_map]
    rfl
  constructor
  · intro given
    obtain ⟨category, opens⟩ := given
    exact ⟨_, List.mem_map_of_mem category.mem_all, (sectionwise category).mpr opens⟩
  · intro given
    obtain ⟨written, member, opens⟩ := given
    obtain ⟨category, -, rfl⟩ := List.mem_map.mp member
    exact ⟨category, (sectionwise category).mp opens⟩

theorem ofConfig_configText_of_undated (filed : table.Filed)
    (named : ∀ token ∈ table.toList, token.IdOfName) (undated : ¬ table.OpensWithDate) :
    ofConfig table.configText = .ok table := by
  have settled := Toml.settleEntries?_tables
    (Category.all.map fun category => (category.name, table.namedValues category))
    fun written member opens =>
      undated ((opensWithDate_iff filed named).mpr ⟨written, member, opens⟩)
  have checked := Config.sections_tables
    (Category.all.map fun category => (category, table.namedValues category))
  rw [List.map_map] at settled checked
  simp only [Function.comp_def] at settled checked
  rw [ofConfig, readConfig_configText filed named, settled]
  simp only []
  rw [checked, Except.map, tokens_namedValues filed named, ofList_toList filed]

theorem ofConfig_configText_of_dated (filed : table.Filed)
    (named : ∀ token ∈ table.toList, token.IdOfName) (dated : table.OpensWithDate) :
    ∃ fault, ofConfig table.configText = .error fault := by
  have reserved := (opensWithDate_iff filed named).mp dated
  rw [ofConfig, readConfig_configText filed named]
  split
  · exact ⟨_, rfl⟩
  case h_2 contents settled =>
    obtain ⟨name, plain⟩ := Toml.settleEntries?_dated reserved
      (by rw [List.map_map]; exact settled)
    obtain ⟨fault, failed⟩ := Config.sections_plain plain
    exact ⟨fault, by rw [failed]; rfl⟩

/-- Reading a table's config text gives exactly the table, unless a section
opens with the reserved key: then the text is refused. -/
theorem ofConfig_configText (filed : table.Filed)
    (named : ∀ token ∈ table.toList, token.IdOfName) :
    (¬ table.OpensWithDate → ∃ restored, ofConfig table.configText = .ok restored ∧
      (∀ category, restored.tokens category = table.tokens category) ∧ restored = table ∧
      restored.agrees table = true ∧ restored.configText = table.configText) ∧
    (table.OpensWithDate → ∃ fault, ofConfig table.configText = .error fault) := by
  constructor
  · intro undated
    have read := ofConfig_configText_of_undated filed named undated
    exact ⟨table, read, fun _ => rfl, rfl, agrees_self filed, rfl⟩
  · exact ofConfig_configText_of_dated filed named

/-- Names and values with quotes of both kinds, backslashes, controls and line
breaks; the reserved key does no harm behind another. -/
theorem ofConfig_configText_quotes :
    let table := ofList [.named .padding "" "'''\"\"\"\\\n", .named .padding "a\n'\"" "\r\t\x7f",
      .named .text "" "größe", .named .text "$__toml_private_datetime" "\"\"\n'"]
    table.size = 4 ∧ ∃ restored, ofConfig table.configText = .ok restored ∧
      (∀ category, restored.tokens category = table.tokens category) ∧ restored = table ∧
      restored.agrees table = true ∧ restored.configText = table.configText := by
  refine ⟨by decide, (ofConfig_configText (filed_ofList _) (by decide)).1 ?_⟩
  intro given
  obtain ⟨category, opens⟩ := given
  cases category <;> revert opens <;> decide

/-- A token whose name is the reserved key, first of its category, keeps a
config from being read back. -/
theorem ofConfig_configText_reservedKey :
    ∃ table : TokenTable, table.Filed ∧ (∀ token ∈ table.toList, token.IdOfName) ∧
      ¬ ∃ restored, ofConfig table.configText = .ok restored := by
  have filed : (ofList [.named .padding Toml.dateKey "16.dp"]).Filed := filed_ofList _
  have named : ∀ token ∈ (ofList [.named .padding Toml.dateKey "16.dp"]).toList,
      token.IdOfName := by decide
  refine ⟨_, filed, named, ?_⟩
  intro given
  obtain ⟨restored, read⟩ := given
  obtain ⟨fault, refused⟩ := ofConfig_configText_of_dated filed named ⟨.padding, by decide⟩
  rw [read] at refused
  cases refused

end TokenTable

end DesignLayout
