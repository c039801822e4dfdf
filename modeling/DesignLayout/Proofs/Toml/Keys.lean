import DesignLayout.Proofs.DistinctKeys
import DesignLayout.Toml.Reader

/-!
# Keys of the tables in a config text

A text that gives a table a key twice is no config text, so in what is read
from one every table has distinct keys, at any depth.
-/

namespace DesignLayout.Toml

/-- Every table in a value has distinct keys. -/
inductive Distinct : Toml → Prop where
  | string (value : String) : Distinct (.string value)
  | plain : Distinct .plain
  | array {items : List Toml} : (∀ item ∈ items, Distinct item) → Distinct (.array items)
  | table {origin : Origin} {entries : List (String × Toml)} :
      (entries.map Prod.fst).Nodup → (∀ entry ∈ entries, Distinct entry.2) →
      Distinct (.table origin entries)
  | tables {elements : List (List (String × Toml))} :
      (∀ entries ∈ elements, (entries.map Prod.fst).Nodup) →
      (∀ entries ∈ elements, ∀ entry ∈ entries, Distinct entry.2) → Distinct (.tables elements)

namespace Entries

structure Distinct (entries : Entries) : Prop where
  keys : (entries.map Prod.fst).Nodup
  values : ∀ entry ∈ entries, entry.2.Distinct

/-- A change of a table gives no key twice. -/
def Keeps (change : Entries → Option Entries) : Prop :=
  ∀ {entries changed : Entries}, Distinct entries → change entries = some changed →
    Distinct changed

theorem distinct_nil : Distinct [] :=
  ⟨List.nodup_nil, fun _ member => nomatch member⟩

end Entries

theorem distinct_table_iff {origin : Origin} {entries : Entries} :
    Distinct (.table origin entries) ↔ Entries.Distinct entries := by
  constructor
  · intro given
    cases given with
    | table keys values => exact ⟨keys, values⟩
  · intro given
    exact .table given.keys given.values

theorem distinct_tables_iff {elements : List Entries} :
    Distinct (.tables elements) ↔ ∀ entries ∈ elements, Entries.Distinct entries := by
  constructor
  · intro given entries member
    cases given with
    | tables keys values => exact ⟨keys entries member, values entries member⟩
  · intro given
    exact .tables (fun entries member => (given entries member).keys)
      fun entries member => (given entries member).values

namespace Entries

variable {entries changed : Entries} {key : String} {value : Toml}

theorem Distinct.of_find? (distinct : Distinct entries)
    (found : find? key entries = some value) : value.Distinct :=
  distinct.values _ (OrderedMap.mem_of_lookup found)

theorem Distinct.put (distinct : Distinct entries) (valued : value.Distinct) :
    Distinct (put key value entries) := by
  constructor
  · exact OrderedMap.nodup_map_fst_put key value distinct.keys
  · intro entry member
    rcases OrderedMap.mem_put member with rfl | old
    · exact valued
    · exact distinct.values entry old

theorem Distinct.erase (distinct : Distinct entries) : Distinct (erase key entries) := by
  constructor
  · exact distinct.keys.sublist (List.filter_sublist.map Prod.fst)
  · intro entry member
    exact distinct.values entry (List.mem_filter.mp member).1

theorem keeps_add? (valued : value.Distinct) : Keeps (add? key value) := by
  intro entries changed distinct added
  rw [add?] at added
  split at added
  case isTrue => cases added
  case isFalse absent =>
    obtain rfl := Option.some.inj added
    have fresh := OrderedMap.lookup_eq_none_iff.mp (Option.not_isSome_iff_eq_none.mp absent)
    rw [← OrderedMap.put_of_not_mem value fresh]
    exact distinct.put valued

theorem Keeps.changeLast? {change : Entries → Option Entries} (keeps : Keeps change) :
    ∀ {elements others : List Entries}, (∀ entries ∈ elements, Distinct entries) →
      changeLast? change elements = some others → ∀ entries ∈ others, Distinct entries
  | [], others, _, changed => by cases changed
  | [last], others, distinct, changed => by
      obtain ⟨result, made, rfl⟩ := Option.map_eq_some_iff.mp changed
      intro entries member
      obtain rfl := List.mem_singleton.mp member
      exact keeps (distinct last List.mem_cons_self) made
  | first :: second :: rest, others, distinct, changed => by
      obtain ⟨result, made, rfl⟩ := Option.map_eq_some_iff.mp changed
      intro entries member
      rcases List.mem_cons.mp member with rfl | later
      · exact distinct _ List.mem_cons_self
      · exact keeps.changeLast? (fun entries later => distinct entries
          (List.mem_cons_of_mem _ later)) made entries later

theorem Keeps.descend? {change : Entries → Option Entries} (keeps : Keeps change)
    (path : List String) : Keeps (descend? change path) := by
  induction path with
  | nil => exact keeps
  | cons key path ih =>
      intro entries changed distinct made
      rw [Entries.descend?] at made
      split at made
      case h_1 =>
        obtain ⟨inner, innerMade, made⟩ := Option.bind_eq_some_iff.mp made
        obtain rfl := Option.some.inj made
        exact distinct.put (distinct_table_iff.mpr (ih distinct_nil innerMade))
      case h_2 origin inner found =>
        have innerDistinct := distinct_table_iff.mp (distinct.of_find? found)
        split at made
        case isTrue => cases made
        case isFalse =>
          obtain ⟨result, innerMade, made⟩ := Option.bind_eq_some_iff.mp made
          obtain rfl := Option.some.inj made
          exact distinct.put (distinct_table_iff.mpr (ih innerDistinct innerMade))
      case h_3 elements found =>
        have elementsDistinct := distinct_tables_iff.mp (distinct.of_find? found)
        obtain ⟨result, innerMade, made⟩ := Option.bind_eq_some_iff.mp made
        obtain rfl := Option.some.inj made
        exact distinct.put (distinct_tables_iff.mpr (ih.changeLast? elementsDistinct innerMade))
      case h_4 => cases made

theorem keeps_addDotted? (valued : value.Distinct) (path : List String) :
    ∀ isDotted, Keeps (addDotted? key value isDotted path) := by
  induction path with
  | nil =>
      intro isDotted entries changed distinct made
      rw [addDotted?] at made
      split at made
      · exact keeps_add? valued distinct made
      · cases made
  | cons step path ih =>
      intro isDotted entries changed distinct made
      rw [addDotted?] at made
      split at made
      case h_1 =>
        obtain ⟨inner, innerMade, made⟩ := Option.bind_eq_some_iff.mp made
        obtain rfl := Option.some.inj made
        exact distinct.put (distinct_table_iff.mpr (ih true distinct_nil innerMade))
      case h_2 origin inner found =>
        have innerDistinct := distinct_table_iff.mp (distinct.of_find? found)
        split at made
        case isFalse => cases made
        case isTrue =>
          obtain ⟨result, innerMade, made⟩ := Option.bind_eq_some_iff.mp made
          obtain rfl := Option.some.inj made
          exact distinct.put (distinct_table_iff.mpr (ih _ innerDistinct innerMade))
      case h_3 elements found =>
        have elementsDistinct := distinct_tables_iff.mp (distinct.of_find? found)
        obtain ⟨result, innerMade, made⟩ := Option.bind_eq_some_iff.mp made
        obtain rfl := Option.some.inj made
        have kept := Keeps.changeLast? (ih false) elementsDistinct innerMade
        exact distinct.put (distinct_tables_iff.mpr kept)
      case h_4 => cases made

theorem keeps_addKey? (valued : value.Distinct) (path : List String) :
    Keeps (addKey? path value) := by
  intro entries changed distinct made
  rw [addKey?] at made
  split at made
  · cases made
  · exact keeps_addDotted? valued _ true distinct made

end Entries

namespace State

structure Distinct (state : State) : Prop where
  root : Entries.Distinct state.root
  current : Entries.Distinct state.current.entries

variable {state next : State} {path : List String}

theorem distinct_start : Distinct start :=
  ⟨Entries.distinct_nil, Entries.distinct_nil⟩

theorem Distinct.addKey? {value : Toml} (distinct : state.Distinct) (valued : value.Distinct)
    (added : state.addKey? path value = some next) : next.Distinct := by
  obtain ⟨entries, made, added⟩ := Option.bind_eq_some_iff.mp added
  obtain rfl := Option.some.inj added
  exact ⟨distinct.root, Entries.keeps_addKey? valued path distinct.current made⟩

theorem Distinct.complete? {root : Entries} (distinct : state.Distinct)
    (completed : state.complete? = some root) : Entries.Distinct root := by
  rw [State.complete?] at completed
  split at completed
  case h_1 =>
    obtain rfl := Option.some.inj completed
    exact distinct.current
  case h_2 key _ =>
    refine Entries.Keeps.descend? ?_ _ distinct.root completed
    intro parent changed parentDistinct made
    beta_reduce at made
    split at made
    case isTrue =>
      split at made
      case h_1 =>
        obtain rfl := Option.some.inj made
        apply parentDistinct.put
        apply distinct_tables_iff.mpr
        intro entries member
        obtain rfl := List.mem_singleton.mp member
        exact distinct.current
      case h_2 elements found =>
        obtain rfl := Option.some.inj made
        apply parentDistinct.put
        apply distinct_tables_iff.mpr
        intro entries member
        rcases List.mem_append.mp member with early | last
        · exact distinct_tables_iff.mp (parentDistinct.of_find? found) entries early
        · obtain rfl := List.mem_singleton.mp last
          exact distinct.current
      case h_3 => cases made
    case isFalse =>
      exact Entries.keeps_add? (distinct_table_iff.mpr distinct.current) parentDistinct made

theorem distinct_implied? {key : String} {parent entries : Entries}
    (distinct : Entries.Distinct parent) (found : implied? key parent = some entries) :
    Entries.Distinct entries := by
  rw [implied?] at found
  split at found
  case h_1 =>
    obtain rfl := Option.some.inj found
    exact Entries.distinct_nil
  case h_2 inner present =>
    obtain rfl := Option.some.inj found
    exact distinct_table_iff.mp (distinct.of_find? present)
  case h_3 => cases found

theorem keeps_parentOf? (path : List String) : Entries.Keeps (parentOf? path) := by
  induction path with
  | nil =>
      intro root parent distinct found
      obtain rfl := Option.some.inj found
      exact distinct
  | cons key path ih =>
      intro root parent distinct found
      rw [parentOf?] at found
      split at found
      case h_1 =>
        obtain rfl := Option.some.inj found
        exact Entries.distinct_nil
      case h_2 origin inner present =>
        split at found
        · cases found
        · exact ih (distinct_table_iff.mp (distinct.of_find? present)) found
      case h_3 elements present =>
        refine ih ?_ found
        cases last : elements.getLast? with
        | none => exact Entries.distinct_nil
        | some entries =>
            exact distinct_tables_iff.mp (distinct.of_find? present) entries
              (List.mem_of_getLast? last)
      case h_4 => cases found

theorem Distinct.beginTable? (distinct : state.Distinct)
    (begun : state.beginTable? path = some next) : next.Distinct := by
  obtain ⟨root, completed, begun⟩ := Option.bind_eq_some_iff.mp begun
  obtain ⟨key, -, begun⟩ := Option.bind_eq_some_iff.mp begun
  obtain ⟨parent, found, begun⟩ := Option.bind_eq_some_iff.mp begun
  obtain ⟨entries, implied, begun⟩ := Option.bind_eq_some_iff.mp begun
  obtain ⟨rest, erased, begun⟩ := Option.bind_eq_some_iff.mp begun
  obtain rfl := Option.some.inj begun
  have complete := distinct.complete? completed
  constructor
  · refine Entries.Keeps.descend? ?_ _ complete erased
    intro inner changed innerDistinct made
    obtain rfl := Option.some.inj made
    exact innerDistinct.erase
  · exact distinct_implied? (keeps_parentOf? _ complete found) implied

theorem Distinct.beginElement? (distinct : state.Distinct)
    (begun : state.beginElement? path = some next) : next.Distinct := by
  obtain ⟨root, completed, begun⟩ := Option.bind_eq_some_iff.mp begun
  obtain ⟨key, -, begun⟩ := Option.bind_eq_some_iff.mp begun
  obtain ⟨rest, begins, begun⟩ := Option.bind_eq_some_iff.mp begun
  obtain rfl := Option.some.inj begun
  constructor
  · refine Entries.Keeps.descend? ?_ _ (distinct.complete? completed) begins
    intro parent changed parentDistinct made
    beta_reduce at made
    split at made
    case h_1 =>
      obtain rfl := Option.some.inj made
      exact parentDistinct.put (distinct_tables_iff.mpr fun _ member => nomatch member)
    case h_2 =>
      obtain rfl := Option.some.inj made
      exact parentDistinct
    case h_3 => cases made
  · exact Entries.distinct_nil

end State

section reading

mutual

theorem distinct_value? : ∀ {fuel depth : Nat} {text rest : List Char} {value : Toml},
    value? fuel depth text = some (value, rest) → value.Distinct
  | 0, depth, text, rest, value, read => by
      rw [value?] at read
      cases read
  | fuel + 1, depth, text, rest, value, read => by
      rw [value?.eq_def] at read
      dsimp only at read
      split at read
      case h_1 =>
        obtain ⟨result, -, same⟩ := Option.map_eq_some_iff.mp read
        cases same
        exact .string _
      case h_2 =>
        obtain ⟨result, -, same⟩ := Option.map_eq_some_iff.mp read
        cases same
        exact .string _
      case h_3 =>
        split at read
        case h_1 => cases read
        case h_2 =>
          obtain ⟨⟨items, _⟩, itemsRead, same⟩ := Option.map_eq_some_iff.mp read
          cases same
          exact .array (distinct_arrayEnd? itemsRead)
      case h_4 =>
        split at read
        case h_1 => cases read
        case h_2 =>
          split at read
          case h_1 =>
            cases read
            exact distinct_table_iff.mpr Entries.distinct_nil
          case h_2 =>
            obtain ⟨⟨entries, _⟩, entriesRead, same⟩ := Option.bind_eq_some_iff.mp read
            cases same
            exact distinct_table_iff.mpr (distinct_inlineEnd? Entries.distinct_nil entriesRead)
      case h_5 =>
        obtain ⟨_, -, same⟩ := Option.map_eq_some_iff.mp read
        cases same
        exact .plain

theorem distinct_arrayEnd? : ∀ {fuel depth : Nat} {text rest : List Char} {items : List Toml},
    arrayEnd? fuel depth text = some (items, rest) → ∀ item ∈ items, item.Distinct
  | 0, depth, text, rest, items, read => by
      rw [arrayEnd?] at read
      cases read
  | fuel + 1, depth, text, rest, items, read => by
      rw [arrayEnd?] at read
      obtain ⟨begun, -, read⟩ := Option.bind_eq_some_iff.mp read
      split at read
      case h_1 =>
        cases read
        exact fun _ member => nomatch member
      case h_2 =>
        obtain ⟨⟨item, _⟩, itemRead, read⟩ := Option.bind_eq_some_iff.mp read
        obtain ⟨after, -, read⟩ := Option.bind_eq_some_iff.mp read
        have first := distinct_value? itemRead
        split at read
        case h_1 =>
          obtain ⟨⟨others, _⟩, othersRead, same⟩ := Option.bind_eq_some_iff.mp read
          cases same
          have later := distinct_arrayEnd? othersRead
          exact List.forall_mem_cons.mpr ⟨first, later⟩
        case h_2 =>
          obtain ⟨_, -, same⟩ := Option.bind_eq_some_iff.mp read
          cases same
          exact List.forall_mem_singleton.mpr first

theorem distinct_inlineEnd? : ∀ {fuel depth : Nat} {entries result : Entries}
    {text rest : List Char}, Entries.Distinct entries →
    inlineEnd? fuel depth entries text = some (result, rest) → Entries.Distinct result
  | 0, depth, entries, result, text, rest, distinct, read => by
      rw [inlineEnd?] at read
      cases read
  | fuel + 1, depth, entries, result, text, rest, distinct, read => by
      rw [inlineEnd?] at read
      obtain ⟨⟨path, _⟩, -, read⟩ := Option.bind_eq_some_iff.mp read
      obtain ⟨_, -, read⟩ := Option.bind_eq_some_iff.mp read
      obtain ⟨⟨value, _⟩, valueRead, read⟩ := Option.bind_eq_some_iff.mp read
      obtain ⟨added, adds, read⟩ := Option.bind_eq_some_iff.mp read
      have kept := Entries.keeps_addKey? (distinct_value? valueRead) path distinct adds
      split at read
      case h_1 => exact distinct_inlineEnd? kept read
      case h_2 =>
        obtain ⟨_, -, same⟩ := Option.bind_eq_some_iff.mp read
        cases same
        exact kept

end

variable {state next : State} {text rest : List Char}

theorem distinct_line? (distinct : state.Distinct)
    (read : line? state text = some (next, rest)) : next.Distinct := by
  rw [line?.eq_def] at read
  split at read
  case h_1 =>
    obtain ⟨⟨path, _⟩, -, read⟩ := Option.bind_eq_some_iff.mp read
    obtain ⟨_, -, read⟩ := Option.bind_eq_some_iff.mp read
    obtain ⟨_, -, read⟩ := Option.bind_eq_some_iff.mp read
    obtain ⟨_, -, read⟩ := Option.bind_eq_some_iff.mp read
    obtain ⟨begun, begins, same⟩ := Option.bind_eq_some_iff.mp read
    cases same
    exact distinct.beginElement? begins
  case h_2 =>
    obtain ⟨⟨path, _⟩, -, read⟩ := Option.bind_eq_some_iff.mp read
    obtain ⟨_, -, read⟩ := Option.bind_eq_some_iff.mp read
    obtain ⟨_, -, read⟩ := Option.bind_eq_some_iff.mp read
    obtain ⟨begun, begins, same⟩ := Option.bind_eq_some_iff.mp read
    cases same
    exact distinct.beginTable? begins
  case h_3 =>
    obtain ⟨⟨path, _⟩, -, read⟩ := Option.bind_eq_some_iff.mp read
    obtain ⟨_, -, read⟩ := Option.bind_eq_some_iff.mp read
    obtain ⟨⟨value, _⟩, valueRead, read⟩ := Option.bind_eq_some_iff.mp read
    obtain ⟨_, -, read⟩ := Option.bind_eq_some_iff.mp read
    obtain ⟨added, adds, same⟩ := Option.bind_eq_some_iff.mp read
    cases same
    exact distinct.addKey? (distinct_value? valueRead) adds

theorem distinct_lines? (fuel : Nat) {state last : State} {text : List Char}
    (distinct : state.Distinct) (read : lines? fuel state text = some last) : last.Distinct := by
  induction fuel generalizing state text with
  | zero =>
      rw [lines?] at read
      cases read
  | succ fuel ih =>
      rw [lines?] at read
      obtain ⟨begun, -, read⟩ := Option.bind_eq_some_iff.mp read
      split at read
      case h_1 =>
        obtain rfl := Option.some.inj read
        exact distinct
      case h_2 =>
        obtain ⟨⟨next, _⟩, lineRead, read⟩ := Option.bind_eq_some_iff.mp read
        exact ih (distinct_line? distinct lineRead) read

end reading

section settling

/-- Entries settle one by one: what settling does to each of them it does to all. -/
theorem map_eq_of_settleEntries? {γ : Type} {before after : String × Toml → γ}
    (settle : ∀ {key value settled}, settle? value = some settled →
      after (key, settled) = before (key, value))
    {entries settled : Entries} (settles : settleEntries? entries = some settled) :
    settled.map after = entries.map before := by
  induction entries generalizing settled with
  | nil =>
      cases settles
      rfl
  | cons entry rest ih =>
      rcases entry with ⟨key, value⟩
      rw [settleEntries?] at settles
      obtain ⟨first, firstSettles, settles⟩ := Option.bind_eq_some_iff.mp settles
      obtain ⟨others, othersSettle, same⟩ := Option.bind_eq_some_iff.mp settles
      cases same
      rw [List.map_cons, List.map_cons, ih othersSettle, settle firstSettles]

mutual

theorem distinct_settle? : ∀ {value settled : Toml}, value.Distinct →
    settle? value = some settled → settled.Distinct
  | .table origin entries, settled, distinct, settles => by
      rw [settle?] at settles
      split at settles
      case h_1 =>
        split at settles
        · cases settles
          exact .plain
        · cases settles
      case h_2 =>
        obtain ⟨others, othersSettle, rfl⟩ := Option.map_eq_some_iff.mp settles
        exact distinct_table_iff.mpr
          (distinct_settleEntries? (distinct_table_iff.mp distinct) othersSettle)
  | .array items, settled, distinct, settles => by
      rw [settle?] at settles
      obtain ⟨others, othersSettle, rfl⟩ := Option.map_eq_some_iff.mp settles
      cases distinct with
      | array each => exact .array (distinct_settleItems? each othersSettle)
  | .tables elements, settled, distinct, settles => by
      rw [settle?] at settles
      obtain ⟨others, othersSettle, rfl⟩ := Option.map_eq_some_iff.mp settles
      exact .array (distinct_settleTables? (distinct_tables_iff.mp distinct) othersSettle)
  | .string text, settled, distinct, settles => by
      rw [settle?] at settles
      cases settles
      exact distinct
      all_goals simp
  | .plain, settled, distinct, settles => by
      rw [settle?] at settles
      cases settles
      exact distinct
      all_goals simp

theorem distinct_settleEntries? : ∀ {entries settled : Entries}, Entries.Distinct entries →
    settleEntries? entries = some settled → Entries.Distinct settled
  | [], settled, distinct, settles => by
      rw [settleEntries?] at settles
      cases settles
      exact Entries.distinct_nil
  | (key, value) :: rest, settled, distinct, settles => by
      have keys : settled.map Prod.fst = ((key, value) :: rest).map Prod.fst :=
        map_eq_of_settleEntries? (fun _ => rfl) settles
      refine ⟨keys ▸ distinct.keys, ?_⟩
      rw [settleEntries?] at settles
      obtain ⟨first, firstSettles, settles⟩ := Option.bind_eq_some_iff.mp settles
      obtain ⟨others, othersSettle, same⟩ := Option.bind_eq_some_iff.mp settles
      cases same
      have restDistinct : Entries.Distinct rest :=
        ⟨distinct.keys.of_cons, fun entry member => distinct.values entry
          (List.mem_cons_of_mem _ member)⟩
      have valueDistinct : value.Distinct := distinct.values (key, value) List.mem_cons_self
      exact List.forall_mem_cons.mpr ⟨distinct_settle? valueDistinct firstSettles,
        (distinct_settleEntries? restDistinct othersSettle).values⟩

theorem distinct_settleItems? : ∀ {items settled : List Toml}, (∀ item ∈ items, item.Distinct) →
    settleItems? items = some settled → ∀ item ∈ settled, item.Distinct
  | [], settled, distinct, settles => by
      rw [settleItems?] at settles
      cases settles
      exact distinct
  | item :: rest, settled, distinct, settles => by
      rw [settleItems?] at settles
      obtain ⟨first, firstSettles, settles⟩ := Option.bind_eq_some_iff.mp settles
      obtain ⟨others, othersSettle, same⟩ := Option.bind_eq_some_iff.mp settles
      cases same
      obtain ⟨itemDistinct, restDistinct⟩ := List.forall_mem_cons.mp distinct
      exact List.forall_mem_cons.mpr ⟨distinct_settle? itemDistinct firstSettles,
        distinct_settleItems? restDistinct othersSettle⟩

theorem distinct_settleTables? : ∀ {elements : List Entries} {settled : List Toml},
    (∀ entries ∈ elements, Entries.Distinct entries) → settleTables? elements = some settled →
    ∀ item ∈ settled, item.Distinct
  | [], settled, distinct, settles => by
      rw [settleTables?] at settles
      cases settles
      exact fun _ member => nomatch member
  | entries :: rest, settled, distinct, settles => by
      obtain ⟨entriesDistinct, restDistinct⟩ := List.forall_mem_cons.mp distinct
      have followed : ∀ {first : Toml}, first.Distinct →
          ((settleTables? rest).bind fun others => some (first :: others)) = some settled →
          ∀ item ∈ settled, item.Distinct := by
        intro first firstDistinct made
        obtain ⟨others, othersSettle, same⟩ := Option.bind_eq_some_iff.mp made
        cases same
        exact List.forall_mem_cons.mpr
          ⟨firstDistinct, distinct_settleTables? restDistinct othersSettle⟩
      rw [settleTables?] at settles
      split at settles
      case h_1 =>
        split at settles
        · exact followed .plain settles
        · cases settles
      case h_2 =>
        obtain ⟨first, made, settles⟩ := Option.bind_eq_some_iff.mp settles
        obtain ⟨table, tableSettles, rfl⟩ := Option.map_eq_some_iff.mp made
        exact followed
          (distinct_table_iff.mpr (distinct_settleEntries? entriesDistinct tableSettles)) settles

end

end settling

/-- In the contents of a config text every table has distinct keys. -/
theorem distinct_read? {text : String} {contents : Entries}
    (read : read? text = some contents) : Entries.Distinct contents := by
  obtain ⟨last, linesRead, read⟩ := Option.bind_eq_some_iff.mp read
  obtain ⟨root, completed, settles⟩ := Option.bind_eq_some_iff.mp read
  have distinct := distinct_lines? _ State.distinct_start linesRead
  exact distinct_settleEntries? (distinct.complete? completed) settles

end DesignLayout.Toml
