import DesignLayout.Command
import DesignLayout.Proofs.Layering
import DesignLayout.Proofs.Outcomes
import DesignLayout.Proofs.Toml.Keys

/-!
# Tables of configs

A config lists values under names, and its table has them under the ids of the
names.  A name whose id came before takes the place of the earlier one, so a
table holds all that its config lists if and only if no two names of a
category share an id.
-/

namespace DesignLayout

namespace ConfigSections

variable {sections : ConfigSections}

/-- The names and values that are listed for a category. -/
def listed (sections : ConfigSections) (category : Category) : List (String × String) :=
  (sections.lookup category).getD []

/-- With one section for each category, the tokens of a category are those
that are listed for it. -/
theorem filter_tokens (distinct : (sections.map Prod.fst).Nodup) (category : Category) :
    sections.tokens.filter (·.category = category) =
      (sections.listed category).map fun entry => Token.named category entry.1 entry.2 := by
  induction sections with
  | nil => rfl
  | cons first rest ih =>
      rcases first with ⟨other, entries⟩
      obtain ⟨fresh, later⟩ := List.nodup_cons.mp distinct
      have parts : tokens ((other, entries) :: rest) =
          entries.map (fun entry => Token.named other entry.1 entry.2) ++ tokens rest :=
        List.flatMap_cons
      rw [parts, List.filter_append, ih later]
      by_cases same : other = category
      · subst category
        have absent : rest.lookup other = none := by
          apply List.lookup_eq_none_iff.mpr
          intro entry member
          rw [bne_iff_ne]
          intro same
          exact fresh (List.mem_map.mpr ⟨entry, member, same.symm⟩)
        have kept : ∀ token ∈ entries.map fun entry => Token.named other entry.1 entry.2,
            decide (token.category = other) = true := by
          intro token member
          obtain ⟨entry, -, rfl⟩ := List.mem_map.mp member
          exact decide_eq_true rfl
        rw [List.filter_eq_self.mpr kept]
        simp [listed, absent]
      · have left : ∀ token ∈ entries.map fun entry => Token.named other entry.1 entry.2,
            ¬ decide (token.category = category) = true := by
          intro token member
          obtain ⟨entry, -, rfl⟩ := List.mem_map.mp member
          exact fun given => same (of_decide_eq_true given)
        have different : (category == other) = false := beq_false_of_ne (Ne.symm same)
        rw [List.filter_eq_nil_iff.mpr left, List.nil_append, listed, listed, List.lookup_cons,
          different]

end ConfigSections

namespace Config

theorem of_entry {pair : String × Toml} {result : String × String}
    (reads : entry pair = .ok result) : result.1 = pair.1 ∧ pair.2 = .string result.2 := by
  rw [entry] at reads
  split at reads
  case h_1 value isString =>
    cases reads
    exact ⟨rfl, isString⟩
  case h_2 => cases reads

/-- A checked section has the name of its category, and a table whose entries are
checked. -/
theorem of_sectionOf {pair : String × Toml} {checked : Category × List (String × String)}
    (checks : sectionOf pair = .ok checked) : checked.1.name = pair.1 ∧ ∃ origin entries,
      pair.2 = .table origin entries ∧ entries.mapM entry = .ok checked.2 := by
  rw [sectionOf] at checks
  split at checks
  case h_1 => cases checks
  case h_2 category found =>
    rw [Category.ofName?] at found
    have named : category.name = pair.1 := by simpa using List.find?_some found
    split at checks
    case h_1 origin entries isTable =>
      obtain ⟨values, reads, same⟩ := exists_of_bind checks
      cases same
      exact ⟨named, origin, entries, isTable, reads⟩
    case h_2 => cases checks

end Config

/-- A config has one section at most for a category, and lists a name there
once at most. -/
theorem distinct_readConfig {text : String} {sections : ConfigSections}
    (checks : readConfig text = .ok sections) :
    (sections.map Prod.fst).Nodup ∧
      ∀ category, ((sections.listed category).map Prod.fst).Nodup := by
  rw [readConfig] at checks
  split at checks
  case h_1 => cases checks
  case h_2 contents reads =>
    have distinct := Toml.distinct_read? reads
    have names : sections.map (fun checked => checked.1.name) = contents.map Prod.fst :=
      map_eq_of_mapM_eq_ok (fun _ _ found => (Config.of_sectionOf found).1) checks
    constructor
    · apply List.Nodup.of_map Category.name
      rw [List.map_map]
      exact names ▸ distinct.keys
    · intro category
      rw [ConfigSections.listed]
      cases found : sections.lookup category with
      | none => exact List.nodup_nil
      | some entries =>
          obtain ⟨before, after, same, -⟩ := List.lookup_eq_some_iff.mp found
          have member : (category, entries) ∈ sections := same ▸ List.mem_append_cons_self
          obtain ⟨pair, pairMember, pairChecks⟩ := (mem_of_mapM_eq_ok checks).2 _ member
          obtain ⟨-, origin, values, isTable, reads⟩ := Config.of_sectionOf pairChecks
          have named : entries.map Prod.fst = values.map Prod.fst :=
            map_eq_of_mapM_eq_ok (fun _ _ read => (Config.of_entry read).1) reads
          have valuesDistinct := distinct.values pair pairMember
          rw [isTable] at valuesDistinct
          exact named ▸ (Toml.distinct_table_iff.mp valuesDistinct).keys

namespace TokenTable

variable {table : TokenTable} {category : Category} {listed : List (String × String)}

/-- Of listed names and values the last with an id stands where the first with
that id came. -/
structure HoldsLast (table : TokenTable) (category : Category)
    (listed : List (String × String)) : Prop where
  ids : (table.tokens category).map Token.id =
    (listed.map fun entry => tokenId entry.1).eraseDups
  last : ∀ token ∈ table.tokens category,
    listed.reverse.find? (fun entry => tokenId entry.1 = token.id) = some (token.name, token.value)

theorem holdsLast_ofList {tokens : List Token}
    (named : tokens.filter (·.category = category) =
      listed.map fun entry => Token.named category entry.1 entry.2) :
    (ofList tokens).HoldsLast category listed := by
  have noTokens : empty.tokens category = [] := by cases category <;> rfl
  constructor
  · have ids := filed_empty.ids_foldl_insert tokens category
    rw [named, noTokens, List.map_map] at ids
    simpa [ofList, Function.comp_def, Token.named] using ids
  · intro token member
    have found := (filed_ofList tokens).get?_of_mem member
    rw [ofList, get?_foldl_insert, get?_empty, Option.or_none] at found
    have inCategory : (listed.map fun entry => Token.named category entry.1 entry.2).reverse.find?
        (·.id = token.id) = some token := by
      rw [← named, ← List.filter_reverse, List.find?_filter, ← found]
      congr 1
      funext other
      simp
    rw [← List.map_reverse, List.find?_map] at inCategory
    obtain ⟨entry, entryFound, rfl⟩ := Option.map_eq_some_iff.mp inCategory
    exact entryFound

namespace HoldsLast

theorem id_eq (holds : table.HoldsLast category listed) {token : Token}
    (member : token ∈ table.tokens category) : tokenId token.name = token.id := by
  have found := List.find?_some (holds.last token member)
  exact of_decide_eq_true found

/-- Without shared ids the ids of a table are those of its config. -/
theorem ids_of_nodup (holds : table.HoldsLast category listed)
    (alone : (listed.map fun entry => tokenId entry.1).Nodup) :
    (table.tokens category).map Token.id = listed.map fun entry => tokenId entry.1 := by
  rw [holds.ids, OrderedMap.eraseDups_eq_self alone]

theorem find?_of_nodup (alone : (listed.map fun entry => tokenId entry.1).Nodup)
    {entry : String × String} (member : entry ∈ listed) :
    listed.reverse.find? (fun other => tokenId other.1 = tokenId entry.1) = some entry := by
  have present : (listed.reverse.find? fun other => tokenId other.1 = tokenId entry.1).isSome :=
    List.find?_isSome.mpr ⟨entry, List.mem_reverse.mpr member, decide_eq_true rfl⟩
  obtain ⟨other, found⟩ := Option.isSome_iff_exists.mp present
  have otherMember := List.mem_reverse.mp (List.mem_of_find?_eq_some found)
  have sameId : tokenId other.1 = tokenId entry.1 := by simpa using List.find?_some found
  rw [found, List.inj_on_of_nodup_map alone otherMember member sameId]

theorem entries_eq_iff (filed : table.Filed) (holds : table.HoldsLast category listed) :
    (table.tokens category).map (fun token => (token.name, token.value)) = listed ↔
      (listed.map fun entry => tokenId entry.1).Nodup := by
  constructor
  · intro same
    have ids : (listed.map fun entry => tokenId entry.1) =
        (table.tokens category).map Token.id := by
      rw [← same, List.map_map]
      exact List.map_congr_left fun token member => holds.id_eq member
    rw [ids]
    exact filed.ids_nodup category
  · intro alone
    -- Both lists are what is found last under the same ids.
    let found := fun id => listed.reverse.find? fun entry => tokenId entry.1 = id
    have ofTokens : (table.tokens category).map (fun token => some (token.name, token.value)) =
        ((table.tokens category).map Token.id).map found := by
      rw [List.map_map]
      exact List.map_congr_left fun token member => (holds.last token member).symm
    have ofEntries : listed.map some =
        (listed.map fun entry => tokenId entry.1).map found := by
      rw [List.map_map]
      exact List.map_congr_left fun entry member => (find?_of_nodup alone member).symm
    apply List.map_injective_iff.mpr (Option.some_injective _)
    rw [List.map_map, ofEntries, ← holds.ids_of_nodup alone, ← ofTokens]
    rfl

theorem length_eq_iff (filed : table.Filed) (holds : table.HoldsLast category listed) :
    (table.tokens category).length = listed.length ↔
      (listed.map fun entry => tokenId entry.1).Nodup := by
  constructor
  · intro same
    have ids : ((table.tokens category).map Token.id).Perm
        (listed.map fun entry => tokenId entry.1).dedup := by
      apply (List.perm_ext_iff_of_nodup (filed.ids_nodup category) (List.nodup_dedup _)).mpr
      intro id
      rw [holds.ids, List.mem_eraseDups, List.mem_dedup]
    apply List.dedup_eq_self.mp
    apply (List.dedup_sublist _).eq_of_length
    rw [← ids.length_eq, List.length_map, List.length_map, same]
  · intro alone
    have ids := congrArg List.length (holds.ids_of_nodup alone)
    rwa [List.length_map, List.length_map] at ids

end HoldsLast

/-- Every config has a table.  It has one token for each id of the names that
are listed in a category, with the name and value that came last with the id.
These are just the names and values that are listed, and as many as are
counted, if and only if no two of the names share an id. -/
theorem ofConfig_of_readConfig {text : String} {sections : ConfigSections}
    (checks : readConfig text = .ok sections) :
    (∀ directory config, directory config = .text text →
      Command.run directory (.countEntries config) = .ok {
        printed := String.join (Category.all.map fun category =>
          category.name ++ ": " ++ toString (sections.listed category).length ++
            " entries\n") }) ∧
    (∀ category, ((sections.listed category).map Prod.fst).Nodup) ∧
    ∃ table, ofConfig text = .ok table ∧ ∀ category,
      table.HoldsLast category (sections.listed category) ∧
      ((table.tokens category).map (fun token => (token.name, token.value)) =
          sections.listed category ↔
        ((sections.listed category).map fun entry => tokenId entry.1).Nodup) ∧
      ((table.tokens category).length = (sections.listed category).length ↔
        ((sections.listed category).map fun entry => tokenId entry.1).Nodup) := by
  obtain ⟨distinct, names⟩ := distinct_readConfig checks
  refine ⟨?_, names, ofList sections.tokens, ?_, ?_⟩
  · intro directory config holds
    have counted : ∀ category, (sections.lookup category).elim 0 List.length =
        (sections.listed category).length := by
      intro category
      rw [ConfigSections.listed]
      cases sections.lookup category <;> rfl
    simp only [Command.run, holds, checks, Command.countLines, counted]
    rfl
  · rw [ofConfig, checks]
    rfl
  · intro category
    have holds := holdsLast_ofList (sections.filter_tokens distinct category)
    have filed := filed_ofList sections.tokens
    exact ⟨holds, holds.entries_eq_iff filed, holds.length_eq_iff filed⟩

/-- Two names of a section share an id, and the table has one token for them.
In the other section every name has its own. -/
theorem ofConfig_of_readConfig_sharedId :
    let text := "[padding]\nAa = \"4.dp\"\ncard = \"12.dp\"\nBB = \"8.dp\"\n" ++
      "[shape]\nround = \"9.dp\"\n"
    readConfig text = .ok [(.padding, [("Aa", "4.dp"), ("card", "12.dp"), ("BB", "8.dp")]),
      (.shape, [("round", "9.dp")])] ∧
    (∀ directory config, directory config = .text text →
      Command.run directory (.countEntries config) = .ok {
        printed := "padding: 3 entries\nshape: 1 entries\ncolor: 0 entries\ntext: 0 entries\n" }) ∧
    ∃ table, ofConfig text = .ok table ∧
      table.HoldsLast .padding [("Aa", "4.dp"), ("card", "12.dp"), ("BB", "8.dp")] ∧
      (table.tokens .padding).length ≠ 3 ∧
      (table.tokens .shape).map (fun token => (token.name, token.value)) = [("round", "9.dp")] := by
  intro text
  have checks : readConfig text =
      .ok [(.padding, [("Aa", "4.dp"), ("card", "12.dp"), ("BB", "8.dp")]),
        (.shape, [("round", "9.dp")])] := by
    decide +kernel
  obtain ⟨counts, -, table, loads, holds⟩ := ofConfig_of_readConfig checks
  refine ⟨checks, fun directory config found => ?_, table, loads, (holds .padding).1, ?_, ?_⟩
  · exact (counts directory config found).trans (by decide)
  · exact mt (holds .padding).2.2.mp (by decide)
  · exact (holds .shape).2.1.mpr (by decide)

/-- A config lists an entry that its table does not have. -/
theorem ofConfig_loses_sharedId :
    ¬ ∀ text sections, readConfig text = .ok sections →
      ∃ table, ofConfig text = .ok table ∧ ∀ category,
        (table.tokens category).map (fun token => (token.name, token.value)) =
          sections.listed category := by
  intro claim
  obtain ⟨table, loads, same⟩ := claim "[padding]\nAa = \"4.dp\"\nBB = \"8.dp\"\n"
    [(.padding, [("Aa", "4.dp"), ("BB", "8.dp")])] (by decide +kernel)
  have loaded : ofConfig "[padding]\nAa = \"4.dp\"\nBB = \"8.dp\"\n" =
      .ok (ofList [Token.named .padding "BB" "8.dp"]) := by
    decide +kernel
  obtain rfl := Except.ok.inj (loads.symm.trans loaded)
  exact absurd (same .padding) (by decide)

end TokenTable

end DesignLayout
