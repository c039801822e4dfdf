import DesignLayout.Proofs.ConfigLoading

/-!
# What the check of a config says

A config is accepted if each of its keys names a category and has a table of
strings, and then it is listed as it is.  Otherwise the first fault in its order is
reported, whatever other faults it has.  A table that opens with the reserved key of
dates is the one exception: it is read as a date, or the text is refused.
-/

namespace DesignLayout

namespace Toml

/-- The contents of a config text as they stand in it, with no dates settled. -/
def written? (text : String) : Option Entries := do
  let text := dropByteOrderMark text.toList
  (← lines? (text.length + 1) .start text).complete?

theorem read?_eq (text : String) : read? text = (written? text).bind settleEntries? := by
  simp [read?, written?, Option.bind_assoc]

/-- The string that a value is. -/
def content? : Toml → Option String
  | .string value => some value
  | _ => none

/-- The keys of a table, each with its string if it has one. -/
def strings? : Toml → Option (List (String × Option String))
  | .table _ entries => some (entries.map fun entry => (entry.1, entry.2.content?))
  | _ => none

/-- A key of a config, with what its table has if it has a table. -/
abbrev Part := String × Option (List (String × Option String))

/-- The keys of a config in their order. -/
def parts (contents : Entries) : List Part :=
  contents.map fun entry => (entry.1, entry.2.strings?)

/-- The first key of the table of a part is the reserved one. -/
def Part.OpensWithDate (part : Part) : Prop :=
  (part.2.bind List.head?).map Prod.fst = some dateKey

instance (part : Part) : Decidable part.OpensWithDate :=
  inferInstanceAs (Decidable (_ = _))

/-- A part whose table opens with the reserved key has no table when it is read. -/
def Part.settled (part : Part) : Part :=
  if part.OpensWithDate then (part.1, none) else part

/-- No table in a value opens with the reserved key. -/
inductive Undated : Toml → Prop where
  | string (value : String) : Undated (.string value)
  | plain : Undated .plain
  | array {items : List Toml} : (∀ item ∈ items, Undated item) → Undated (.array items)
  | table {origin : Origin} {entries : List (String × Toml)} :
      Entries.dated? entries = none → (∀ entry ∈ entries, Undated entry.2) →
      Undated (.table origin entries)
  | tables {elements : List (List (String × Toml))} :
      (∀ entries ∈ elements, Entries.dated? entries = none) →
      (∀ entries ∈ elements, ∀ entry ∈ entries, Undated entry.2) → Undated (.tables elements)

section settling

/-- What a value can become: an array or nothing else for what is no table, and for a
table a date or a table. -/
theorem settle?_inversion {value settled : Toml} (settles : settle? value = some settled) :
    (value.strings? = none ∧
      (settled = value ∨ value.content? = none ∧ ∃ items, settled = .array items)) ∨
    ∃ origin entries, value = .table origin entries ∧
      ((Entries.dated? entries).isSome ∧ settled = .plain ∨
        Entries.dated? entries = none ∧
          ∃ others, settleEntries? entries = some others ∧ settled = .table origin others) := by
  cases value with
  | string text =>
      rw [settle?] at settles
      · exact .inl ⟨rfl, .inl (Option.some.inj settles).symm⟩
      all_goals simp
  | plain =>
      rw [settle?] at settles
      · exact .inl ⟨rfl, .inl (Option.some.inj settles).symm⟩
      all_goals simp
  | array items =>
      rw [settle?] at settles
      obtain ⟨others, -, rfl⟩ := Option.map_eq_some_iff.mp settles
      exact .inl ⟨rfl, .inr ⟨rfl, others, rfl⟩⟩
  | tables elements =>
      rw [settle?] at settles
      obtain ⟨others, -, rfl⟩ := Option.map_eq_some_iff.mp settles
      exact .inl ⟨rfl, .inr ⟨rfl, others, rfl⟩⟩
  | table origin entries =>
      refine .inr ⟨origin, entries, rfl, ?_⟩
      rw [settle?] at settles
      split at settles
      case h_1 value dated =>
        split at settles
        · exact .inl ⟨by rw [dated]; rfl, (Option.some.inj settles).symm⟩
        · cases settles
      case h_2 undated =>
        obtain ⟨others, othersSettle, rfl⟩ := Option.map_eq_some_iff.mp settles
        exact .inr ⟨undated, others, othersSettle, rfl⟩

theorem content?_settle? {value settled : Toml} (settles : settle? value = some settled) :
    settled.content? = value.content? := by
  rcases settle?_inversion settles with ⟨-, rfl | ⟨none, items, rfl⟩⟩ |
    ⟨origin, entries, rfl, ⟨-, rfl⟩ | ⟨-, others, -, rfl⟩⟩
  · rfl
  · exact none.symm
  · rfl
  · rfl

theorem opensWithDate_table_iff (key : String) (origin : Origin) (entries : Entries) :
    Part.OpensWithDate (key, (Toml.table origin entries).strings?) ↔
      (Entries.dated? entries).isSome := by
  have opens : ((Toml.table origin entries).strings?.bind List.head?).map Prod.fst =
      entries.head?.map Prod.fst := by
    simp [strings?, List.head?_map, Function.comp_def]
  rw [Part.OpensWithDate, opens]
  cases entries with
  | nil => simp [Entries.dated?]
  | cons entry rest => by_cases reserved : entry.1 = dateKey <;> simp [Entries.dated?, reserved]

theorem settled_settle? (key : String) {value settled : Toml}
    (settles : settle? value = some settled) :
    Part.settled (key, value.strings?) = (key, settled.strings?) := by
  rcases settle?_inversion settles with ⟨noTable, rfl | ⟨-, items, rfl⟩⟩ |
    ⟨origin, entries, rfl, ⟨dated, rfl⟩ | ⟨undated, others, othersSettle, rfl⟩⟩
  · rw [noTable]
    rfl
  · rw [noTable]
    rfl
  · rw [Part.settled, if_pos ((opensWithDate_table_iff key origin entries).mpr dated)]
    rfl
  · have closed : ¬ Part.OpensWithDate (key, (Toml.table origin entries).strings?) := by
      rw [opensWithDate_table_iff, undated]
      exact Bool.false_ne_true
    have contents : (others.map fun entry => (entry.1, entry.2.content?)) =
        entries.map fun entry => (entry.1, entry.2.content?) :=
      map_eq_of_settleEntries? (fun settles => by rw [content?_settle? settles]) othersSettle
    rw [Part.settled, if_neg closed, strings?, strings?, contents]

/-- What is read of a text is what stands in it, but for the dates. -/
theorem parts_settleEntries? {entries settled : Entries}
    (settles : settleEntries? entries = some settled) :
    parts settled = (parts entries).map Part.settled := by
  rw [parts, parts, List.map_map]
  exact map_eq_of_settleEntries? (fun settles => (settled_settle? _ settles).symm) settles

mutual

theorem isSome_settle? : ∀ {value : Toml}, value.Undated → (settle? value).isSome
  | .table origin entries, undated => by
      cases undated with
      | table opens each =>
          rw [settle?, opens, Option.isSome_map]
          exact isSome_settleEntries? each
  | .array items, undated => by
      cases undated with
      | array each =>
          rw [settle?, Option.isSome_map]
          exact isSome_settleItems? each
  | .tables elements, undated => by
      cases undated with
      | tables opens each =>
          rw [settle?, Option.isSome_map]
          exact isSome_settleTables? opens each
  | .string text, _ => rfl
  | .plain, _ => rfl

theorem isSome_settleEntries? : ∀ {entries : List (String × Toml)},
    (∀ entry ∈ entries, entry.2.Undated) → (settleEntries? entries).isSome
  | [], _ => rfl
  | (key, value) :: rest, each => by
      obtain ⟨first, others⟩ := List.forall_mem_cons.mp each
      obtain ⟨settled, firstSettles⟩ := Option.isSome_iff_exists.mp (isSome_settle? first)
      obtain ⟨tail, othersSettle⟩ := Option.isSome_iff_exists.mp (isSome_settleEntries? others)
      rw [settleEntries?, firstSettles, othersSettle]
      rfl

theorem isSome_settleItems? : ∀ {items : List Toml},
    (∀ item ∈ items, item.Undated) → (settleItems? items).isSome
  | [], _ => rfl
  | item :: rest, each => by
      obtain ⟨first, others⟩ := List.forall_mem_cons.mp each
      obtain ⟨settled, firstSettles⟩ := Option.isSome_iff_exists.mp (isSome_settle? first)
      obtain ⟨tail, othersSettle⟩ := Option.isSome_iff_exists.mp (isSome_settleItems? others)
      rw [settleItems?, firstSettles, othersSettle]
      rfl

theorem isSome_settleTables? : ∀ {elements : List (List (String × Toml))},
    (∀ entries ∈ elements, Entries.dated? entries = none) →
    (∀ entries ∈ elements, ∀ entry ∈ entries, entry.2.Undated) →
    (settleTables? elements).isSome
  | [], _, _ => rfl
  | entries :: rest, opens, each => by
      obtain ⟨firstOpens, othersOpen⟩ := List.forall_mem_cons.mp opens
      obtain ⟨first, others⟩ := List.forall_mem_cons.mp each
      obtain ⟨settled, firstSettles⟩ := Option.isSome_iff_exists.mp (isSome_settleEntries? first)
      obtain ⟨tail, othersSettle⟩ :=
        Option.isSome_iff_exists.mp (isSome_settleTables? othersOpen others)
      rw [settleTables?, firstOpens, firstSettles, othersSettle]
      rfl

end

end settling

end Toml

namespace Config

/-- A value that is no string. -/
def entryFault? (entry : String × Option String) : Option ConfigFault :=
  if entry.2.isSome then none else some (.notAString entry.1)

/-- All faults of a part: its key, that it has no table, or the values in its table
that are no strings. -/
def partFaults (part : Toml.Part) : List ConfigFault :=
  (if part.1 ∈ Category.all.map Category.name then [] else [.unknownSection part.1]) ++
    match part.2 with
    | none => [.notATable part.1]
    | some entries => entries.filterMap entryFault?

/-- All faults of a config in its order. -/
def faults (parts : List Toml.Part) : List ConfigFault :=
  parts.flatMap partFaults

/-- A key that names a category and has a table of strings. -/
structure IsSection (part : Toml.Part) : Prop where
  category : part.1 ∈ Category.all.map Category.name
  strings : ∃ entries, part.2 = some entries ∧ ∀ entry ∈ entries, entry.2.isSome

/-- The part of a config that a checked section comes from. -/
def part (checked : Category × List (String × String)) : Toml.Part :=
  (checked.1.name, some (checked.2.map fun entry => (entry.1, some entry.2)))

theorem partFaults_eq_nil_iff {part : Toml.Part} : partFaults part = [] ↔ IsSection part := by
  rcases part with ⟨key, entries⟩
  have strings : ∀ listed : List (String × Option String),
      listed.filterMap entryFault? = [] ↔ ∀ entry ∈ listed, entry.2.isSome := by
    intro listed
    simp [List.filterMap_eq_nil_iff, entryFault?, Option.isSome_iff_ne_none]
  rw [partFaults, List.append_eq_nil_iff]
  constructor
  · rintro ⟨known, faultless⟩
    cases entries with
    | none => cases faultless
    | some listed =>
        refine ⟨?_, listed, rfl, (strings listed).mp faultless⟩
        by_contra unknown
        rw [if_neg unknown] at known
        cases known
  · rintro ⟨known, listed, rfl, each⟩
    exact ⟨if_pos known, (strings listed).mpr each⟩

theorem ofName?_eq_none_iff {name : String} :
    Category.ofName? name = none ↔ name ∉ Category.all.map Category.name := by
  simp [Category.ofName?]

theorem faultOf?_entry (pair : String × Toml) :
    faultOf? (entry pair) = entryFault? (pair.1, pair.2.content?) := by
  rcases pair with ⟨name, value⟩
  cases value <;> rfl

theorem faultOf?_entries (entries : Toml.Entries) :
    faultOf? (entries.mapM entry) =
      ((entries.map fun entry => (entry.1, entry.2.content?)).filterMap entryFault?).head? := by
  rw [List.filterMap_map, List.filterMap_eq_flatMap_toList]
  apply faultOf?_mapM
  intro pair
  rw [faultOf?_entry]
  cases fault : entryFault? (pair.1, pair.2.content?) <;> simp [fault]

/-- A section is refused at the first of its faults. -/
theorem faultOf?_sectionOf (pair : String × Toml) :
    faultOf? (sectionOf pair) = (partFaults (pair.1, pair.2.strings?)).head? := by
  rcases pair with ⟨key, value⟩
  rw [sectionOf, partFaults]
  cases found : Category.ofName? key with
  | none => rw [if_neg (ofName?_eq_none_iff.mp found)]; rfl
  | some category =>
      have known : key ∈ Category.all.map Category.name := by
        by_contra unknown
        rw [ofName?_eq_none_iff.mpr unknown] at found
        cases found
      rw [if_pos known, List.nil_append]
      cases value with
      | table origin entries => exact (faultOf?_bind_pure _ _).trans (faultOf?_entries entries)
      | _ => rfl

theorem faultOf?_sections (contents : Toml.Entries) :
    faultOf? (sections contents) = (faults (Toml.parts contents)).head? := by
  rw [faults, Toml.parts, List.flatMap_map]
  exact faultOf?_mapM faultOf?_sectionOf contents

theorem part_of_sectionOf {pair : String × Toml} {checked : Category × List (String × String)}
    (checks : sectionOf pair = .ok checked) : part checked = (pair.1, pair.2.strings?) := by
  obtain ⟨named, origin, entries, isTable, reads⟩ := of_sectionOf checks
  have same : checked.2.map (fun entry => (entry.1, some entry.2)) =
      entries.map fun entry => (entry.1, entry.2.content?) := by
    refine map_eq_of_mapM_eq_ok (fun pair result read => ?_) reads
    obtain ⟨name, isString⟩ := of_entry read
    rw [name, isString]
    rfl
  rw [part, named, same, isTable]
  rfl

/-- Checked sections are listed as they were. -/
theorem parts_of_sections {contents : Toml.Entries} {checked : ConfigSections}
    (checks : sections contents = .ok checked) : checked.map part = Toml.parts contents :=
  map_eq_of_mapM_eq_ok (fun _ _ => part_of_sectionOf) checks

end Config

theorem Toml.not_opensWithDate_of_undated (key : String) {value : Toml}
    (undated : value.Undated) : ¬ Toml.Part.OpensWithDate (key, value.strings?) := by
  cases undated with
  | @table origin entries closed each =>
      rw [opensWithDate_table_iff, closed]
      exact Bool.false_ne_true
  | _ => exact fun opens => nomatch opens

theorem Toml.undated_of_isSection {key : String} {value : Toml}
    (isSection : Config.IsSection (key, value.strings?))
    (closed : ¬ Toml.Part.OpensWithDate (key, value.strings?)) : value.Undated := by
  obtain ⟨-, listed, isTable, each⟩ := isSection
  cases value with
  | table origin entries =>
      rw [opensWithDate_table_iff, Option.not_isSome_iff_eq_none] at closed
      refine .table closed fun entry member => ?_
      obtain rfl := Option.some.inj isTable
      have isString := each _ (List.mem_map_of_mem member)
      rcases entry with ⟨name, inner⟩
      cases inner with
      | string content => exact .string content
      | _ => cases isString
  | _ => cases isTable

section reading

variable {text : String} {contents written : Toml.Entries}

theorem readConfig_of_read? (read : Toml.read? text = some contents) :
    readConfig text = Config.sections contents := by
  rw [readConfig, read]

theorem readConfig_eq_error_iff (read : Toml.read? text = some contents) {fault : ConfigFault} :
    readConfig text = .error fault ↔ (Config.faults (Toml.parts contents)).head? = some fault := by
  rw [readConfig_of_read? read, ← Config.faultOf?_sections, faultOf?_eq_some_iff]

theorem readConfig_accepts_iff (read : Toml.read? text = some contents) :
    (∃ sections, readConfig text = .ok sections) ↔
      ∀ part ∈ Toml.parts contents, Config.IsSection part := by
  rw [readConfig_of_read? read, ← faultOf?_eq_none_iff, Config.faultOf?_sections,
    List.head?_eq_none_iff, Config.faults, List.flatMap_eq_nil_iff]
  simp only [Config.partFaults_eq_nil_iff]

theorem parts_of_read? (stands : Toml.written? text = some written)
    (read : Toml.read? text = some contents) :
    Toml.parts contents = (Toml.parts written).map Toml.Part.settled := by
  rw [Toml.read?_eq, stands] at read
  exact Toml.parts_settleEntries? read

/-- A text in which no table opens with the reserved key is read as it stands. -/
theorem read?_of_undated (stands : Toml.written? text = some written)
    (undated : ∀ entry ∈ written, entry.2.Undated) :
    ∃ contents, Toml.read? text = some contents ∧
      Toml.parts contents = Toml.parts written := by
  have read : (Toml.read? text).isSome := by
    rw [Toml.read?_eq, stands]
    exact Toml.isSome_settleEntries? undated
  obtain ⟨contents, read⟩ := Option.isSome_iff_exists.mp read
  refine ⟨contents, read, (parts_of_read? stands read).trans ?_⟩
  refine (List.map_congr_left fun part member => ?_).trans (List.map_id _)
  obtain ⟨entry, entryMember, rfl⟩ := List.mem_map.mp member
  exact if_neg (Toml.not_opensWithDate_of_undated entry.1 (undated entry entryMember))

/-- A text is accepted if the parts that stand in it are sections, and none of them opens
with the reserved key. -/
theorem readConfig_accepts_written_iff (stands : Toml.written? text = some written) :
    (∃ sections, readConfig text = .ok sections) ↔
      ∀ part ∈ Toml.parts written, Config.IsSection part ∧ ¬ part.OpensWithDate := by
  constructor
  · intro accepted
    cases read : Toml.read? text with
    | none =>
        obtain ⟨sections, checks⟩ := accepted
        rw [readConfig, read] at checks
        cases checks
    | some contents =>
        have each := (readConfig_accepts_iff read).mp accepted
        rw [parts_of_read? stands read] at each
        intro part member
        have isSection := each _ (List.mem_map_of_mem member)
        rw [Toml.Part.settled] at isSection
        split at isSection
        case isTrue =>
          obtain ⟨-, listed, none, -⟩ := isSection
          cases none
        case isFalse closed => exact ⟨isSection, closed⟩
  · intro each
    have undated : ∀ entry ∈ written, entry.2.Undated := by
      intro entry member
      obtain ⟨isSection, closed⟩ := each _ (List.mem_map_of_mem member)
      exact Toml.undated_of_isSection isSection closed
    obtain ⟨contents, read, same⟩ := read?_of_undated stands undated
    rw [readConfig_accepts_iff read, same]
    exact fun part member => (each part member).1

theorem ofConfig_eq_error_iff {fault : ConfigFault} :
    TokenTable.ofConfig text = .error fault ↔ readConfig text = .error fault := by
  rw [TokenTable.ofConfig]
  cases readConfig text with
  | ok sections => simp [Except.map]
  | error other => simp [Except.map]

end reading

/-- A text whose contents can be read is accepted if each of its parts is a section, and
then its parts are listed in their order, each category and each name once.  Otherwise the
first fault in its order is reported.  What is read is what stands in the text, but for
tables that open with the reserved key of dates: these are read as no tables, or the text is
refused as malformed.  The table of a config is refused with the same fault, and is
empty where the fault does not count. -/
theorem readConfig_checks (text : String) :
    (∀ contents, Toml.read? text = some contents →
      ((∃ sections, readConfig text = .ok sections) ↔
        ∀ part ∈ Toml.parts contents, Config.IsSection part) ∧
      (∀ sections, readConfig text = .ok sections →
        Toml.parts contents = sections.map Config.part ∧ (sections.map Prod.fst).Nodup ∧
          ∀ category, ((sections.listed category).map Prod.fst).Nodup) ∧
      ∀ fault, readConfig text = .error fault ↔
        (Config.faults (Toml.parts contents)).head? = some fault) ∧
    (∀ written, Toml.written? text = some written →
      ((∃ sections, readConfig text = .ok sections) ↔
        ∀ part ∈ Toml.parts written, Config.IsSection part ∧ ¬ part.OpensWithDate) ∧
      (∀ contents, Toml.read? text = some contents →
        Toml.parts contents = (Toml.parts written).map Toml.Part.settled) ∧
      ((∀ entry ∈ written, entry.2.Undated) →
        ∃ contents, Toml.read? text = some contents ∧
          Toml.parts contents = Toml.parts written) ∧
      (Toml.read? text = none → readConfig text = .error .malformed)) ∧
    (∀ fault, TokenTable.ofConfig text = .error fault ↔ readConfig text = .error fault) ∧
    ∀ fault, readConfig text = .error fault → TokenTable.ofConfigOrEmpty text = .empty := by
  refine ⟨?_, ?_, fun fault => ofConfig_eq_error_iff, ?_⟩
  · intro contents read
    refine ⟨readConfig_accepts_iff read, ?_, fun fault => readConfig_eq_error_iff read⟩
    intro sections checks
    refine ⟨?_, distinct_readConfig checks⟩
    rw [readConfig_of_read? read] at checks
    exact (Config.parts_of_sections checks).symm
  · intro written stands
    refine ⟨readConfig_accepts_written_iff stands, fun contents => parts_of_read? stands,
      read?_of_undated stands, fun unread => ?_⟩
    rw [readConfig, unread]
  · intro fault refused
    rw [TokenTable.ofConfigOrEmpty, ofConfig_eq_error_iff.mpr refused]

/-- Of several faults the first one counts.  The reserved key does no harm behind another
key. -/
theorem readConfig_checks_manyFaults :
    let faulty := "[padding]\nsmall = \"4.dp\"\nlarge = 8\nhuge = []\n[spacing]\na = true\n"
    let sound := "[text]\na = \"1\"\n\"$__toml_private_datetime\" = \"1979-05-27\"\n[color]\n"
    readConfig faulty = .error (.notAString "large") ∧
    TokenTable.ofConfig faulty = .error (.notAString "large") ∧
    TokenTable.ofConfigOrEmpty faulty = .empty ∧
    ∃ sections, readConfig sound = .ok sections := by
  intro faulty sound
  obtain ⟨onRead, -, sameFault, emptied⟩ := readConfig_checks faulty
  have faultyParts : (Toml.read? faulty).map Toml.parts = some [("padding",
      some [("small", some "4.dp"), ("large", none), ("huge", none)]),
      ("spacing", some [("a", none)])] := by
    decide +kernel
  obtain ⟨contents, read, parts⟩ := Option.map_eq_some_iff.mp faultyParts
  have refused : readConfig faulty = .error (.notAString "large") := by
    rw [(onRead contents read).2.2, parts]
    decide
  refine ⟨refused, (sameFault _).mpr refused, emptied _ refused, ?_⟩
  obtain ⟨-, onWritten, -⟩ := readConfig_checks sound
  have soundParts : (Toml.written? sound).map Toml.parts = some [("text",
      some [("a", some "1"), ("$__toml_private_datetime", some "1979-05-27")]),
      ("color", some [])] := by
    decide +kernel
  obtain ⟨written, stands, parts⟩ := Option.map_eq_some_iff.mp soundParts
  rw [(onWritten written stands).1, parts]
  intro part member
  rcases List.mem_pair.mp member with rfl | rfl
  · exact ⟨⟨by decide, _, rfl, by decide⟩, by decide⟩
  · exact ⟨⟨by decide, _, rfl, by decide⟩, by decide⟩

/-- A table of strings that opens with the reserved key is refused as no table. -/
theorem readConfig_checks_reservedKey :
    ¬ ∀ text contents written, Toml.read? text = some contents →
      Toml.written? text = some written →
      (∀ part ∈ Toml.parts written, Config.IsSection part) →
      ∃ sections, readConfig text = .ok sections := by
  intro claim
  let text := "[padding]\n\"$__toml_private_datetime\" = \"1979-05-27\"\n"
  have readParts : (Toml.read? text).map Toml.parts = some [("padding", none)] := by
    decide +kernel
  have writtenParts : (Toml.written? text).map Toml.parts = some [("padding",
      some [("$__toml_private_datetime", some "1979-05-27")])] := by
    decide +kernel
  obtain ⟨contents, read, -⟩ := Option.map_eq_some_iff.mp readParts
  obtain ⟨written, stands, parts⟩ := Option.map_eq_some_iff.mp writtenParts
  have sections : ∀ part ∈ Toml.parts written, Config.IsSection part := by
    rw [parts]
    exact List.forall_mem_singleton.mpr ⟨by decide, _, rfl, by decide⟩
  obtain ⟨checked, accepted⟩ := claim text contents written read stands sections
  have refused : readConfig text = .error (.notATable "padding") := by decide +kernel
  rw [refused] at accepted
  cases accepted

end DesignLayout
