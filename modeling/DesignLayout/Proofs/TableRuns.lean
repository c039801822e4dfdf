import DesignLayout.Proofs.ConfigRoundTrip
import DesignLayout.Proofs.TokenTraits

/-!
# Working with tables

A workbench holds the tables and registries that were made so far.  Each step
makes a table or a registry out of those at hand, or changes a registry.
Whatever the steps, every table is filed, so its tokens are counted, listed and
found in the same way.  A trait of tokens that does not look at values, once it
is common to all tokens that are brought in, is common to all tokens at hand.
-/

namespace DesignLayout

/-- The tables and registries at hand, in the order in which they came. -/
structure Workbench where
  tables : List TokenTable := []
  registries : List Registry := []

/-- A step of work.  Tables and registries are told by their places, and a step
on one that is not there does nothing. -/
inductive TableStep : Type 1 where
  | emptyTable
  | emptyRegistry
  /-- Makes a table of some tokens. -/
  | list (tokens : List Token)
  /-- Makes the table of a config text, if it is a config. -/
  | read (config : String)
  /-- Makes the table of a config text, or an empty one. -/
  | readOrEmpty (config : String)
  | merge (table other : Nat) (overwrite : Bool)
  | revalue (table : Nat) (category : Category) (id : Int32) (value : String)
  /-- Makes a table of what a registry has. -/
  | freeze (registry : Nat)
  /-- Makes a registry of what a table has. -/
  | thaw (table : Nat)
  /-- Lays a table over a registry, or under it. -/
  | mergeInto (registry table : Nat) (overwrite : Bool)
  | register {ε α : Type} [ToPrimitive α] (registry : Nat)
      (format : Primitive → Except ε String) (category : Category)
      (property : Option (Property α))

/-- The tokens that a step brings in as they are. -/
def TableStep.given : TableStep → List Token
  | .list tokens => tokens
  | _ => []

namespace Workbench

def addTable (bench : Workbench) (made : Option TokenTable) : Workbench :=
  { bench with tables := bench.tables ++ made.toList }

def addRegistry (bench : Workbench) (made : Option Registry) : Workbench :=
  { bench with registries := bench.registries ++ made.toList }

def changeRegistry (bench : Workbench) (place : Nat) (change : Registry → Registry) :
    Workbench :=
  { bench with registries := bench.registries.modify place change }

def step (bench : Workbench) : TableStep → Workbench
  | .emptyTable => bench.addTable (some .empty)
  | .emptyRegistry => bench.addRegistry (some .empty)
  | .list tokens => bench.addTable (some (.ofList tokens))
  | .read config => bench.addTable (TokenTable.ofConfig config).toOption
  | .readOrEmpty config => bench.addTable (some (.ofConfigOrEmpty config))
  | .merge table other overwrite => bench.addTable do
    return (← bench.tables[table]?).merge (← bench.tables[other]?) overwrite
  | .revalue table category id value => bench.addTable do
    return (← bench.tables[table]?).revalue category id value
  | .freeze registry => bench.addTable do return (← bench.registries[registry]?).table
  | .thaw table => bench.addRegistry do return ⟨← bench.tables[table]?⟩
  | .mergeInto registry table overwrite =>
    match bench.tables[table]? with
    | some laid => bench.changeRegistry registry fun under => under.merge laid overwrite
    | none => bench
  | @TableStep.register _ _ _ registry format category property =>
    bench.changeRegistry registry fun before =>
      (Id.run ((register format category property).run.run before)).2

/-- The workbench after some steps, from one with nothing on it. -/
def run (steps : List TableStep) : Workbench :=
  steps.foldl step {}

/-- All tables at hand, those of the registries among them. -/
def allTables (bench : Workbench) : List TokenTable :=
  bench.tables ++ bench.registries.map Registry.table

end Workbench

namespace TokenTable

variable {table : TokenTable}

theorem Filed.nodup_toList (filed : table.Filed) : table.toList.Nodup := by
  apply List.nodup_flatMap.mpr
  constructor
  · intro category _
    exact (filed.ids_nodup category).of_map Token.id
  · have apart : Category.all.Pairwise (· ≠ ·) := by decide
    refine apart.imp fun different token member otherMember => different ?_
    exact (filed.category_of_mem member).symm.trans (filed.category_of_mem otherMember)

theorem Filed.mem_toList_iff (filed : table.Filed) {token : Token} :
    token ∈ table.toList ↔ ∃ category id, table.get? category id = some token := by
  rw [mem_toList]
  constructor
  · rintro ⟨category, member⟩
    exact ⟨category, token.id, filed.get?_of_mem member⟩
  · rintro ⟨category, id, found⟩
    exact ⟨category, (filed.of_get? found).1⟩

theorem isEmpty_iff_size_eq_zero (table : TokenTable) :
    table.isEmpty = true ↔ table.size = 0 := by
  have shelves : ∀ category, (table.shelf category).isEmpty = true ↔
      table.tokens category = [] := by
    intro category
    simp [OrderedMap.isEmpty, tokens, OrderedMap.values]
  rw [isEmpty, List.all_eq_true, size, List.length_eq_zero_iff, toList, List.flatMap_eq_nil_iff]
  simp only [shelves]

/-- What can be relied on when a table is asked for its tokens. -/
structure Reliable (table : TokenTable) : Prop where
  /-- Each token is stored once, in its own category and under its own id. -/
  filed : table.Filed
  /-- What is found under a category and an id is of that category and id. -/
  found : ∀ category id token, table.get? category id = some token →
    token.category = category ∧ token.id = id
  /-- A category lists tokens of its own, no two of one id. -/
  listed : ∀ category, (∀ token ∈ table.tokens category, token.category = category) ∧
    ((table.tokens category).map Token.id).Nodup
  /-- The size is the number of tokens that are found. -/
  counted : {token | ∃ category id, table.get? category id = some token}.encard = table.size
  blank : table.isEmpty = true ↔ table.size = 0

theorem Filed.reliable (filed : table.Filed) : table.Reliable where
  filed := filed
  found := fun _ _ _ found => (filed.of_get? found).2.symm
  listed := fun category => ⟨fun _ member => filed.category_of_mem member, filed.ids_nodup category⟩
  counted := by
    have tokens : {token | ∃ category id, table.get? category id = some token} =
        (table.toList.toFinset : Set Token) := by
      rw [List.coe_toFinset]
      exact Set.ext fun token => filed.mem_toList_iff.symm
    rw [tokens, Set.encard_coe_eq_coe_finsetCard, List.toFinset_card_of_nodup filed.nodup_toList]
    rfl
  blank := isEmpty_iff_size_eq_zero table

end TokenTable

namespace Workbench

variable {trait : Token → Prop} {bench : Workbench}

/-- Every table at hand is filed, and its tokens have a trait. -/
structure FiledWith (trait : Token → Prop) (bench : Workbench) : Prop where
  tables : ∀ table ∈ bench.tables, table.FiledWith trait
  registries : ∀ registry ∈ bench.registries, registry.table.FiledWith trait

namespace FiledWith

theorem table (has : bench.FiledWith trait) {place : Nat} {table : TokenTable}
    (found : bench.tables[place]? = some table) : table.FiledWith trait :=
  has.tables table (List.mem_of_getElem? found)

theorem registry (has : bench.FiledWith trait) {place : Nat} {registry : Registry}
    (found : bench.registries[place]? = some registry) : registry.table.FiledWith trait :=
  has.registries registry (List.mem_of_getElem? found)

theorem addTable (has : bench.FiledWith trait) {made : Option TokenTable}
    (new : ∀ table, made = some table → table.FiledWith trait) :
    (bench.addTable made).FiledWith trait where
  tables := by
    intro table member
    rcases List.mem_append.mp member with old | last
    · exact has.tables table old
    · exact new table (Option.mem_toList.mp last)
  registries := has.registries

theorem addRegistry (has : bench.FiledWith trait) {made : Option Registry}
    (new : ∀ registry, made = some registry → registry.table.FiledWith trait) :
    (bench.addRegistry made).FiledWith trait where
  tables := has.tables
  registries := by
    intro registry member
    rcases List.mem_append.mp member with old | last
    · exact has.registries registry old
    · exact new registry (Option.mem_toList.mp last)

theorem changeRegistry (has : bench.FiledWith trait) (place : Nat)
    {change : Registry → Registry}
    (changed : ∀ registry : Registry, registry.table.FiledWith trait →
      (change registry).table.FiledWith trait) :
    (bench.changeRegistry place change).FiledWith trait where
  tables := has.tables
  registries := by
    intro registry member
    obtain ⟨other, found⟩ := List.mem_iff_getElem?.mp member
    rw [Workbench.changeRegistry, List.getElem?_modify] at found
    obtain ⟨before, beforeFound, rfl⟩ := Option.map_eq_some_iff.mp found
    have beforeHas := has.registry beforeFound
    split
    · exact changed before beforeHas
    · exact beforeHas

/-- What one step keeps: the trait must be there in what is brought in, and must
not hang on values. -/
theorem step (has : bench.FiledWith trait)
    (named : ∀ category name value, trait (Token.named category name value))
    (kept : ∀ token value, trait token → trait { token with value }) {step : TableStep}
    (given : ∀ token ∈ step.given, trait token) : (bench.step step).FiledWith trait := by
  cases step with
  | emptyTable =>
      apply has.addTable
      rintro table ⟨⟩
      exact TokenTable.filedWith_empty
  | emptyRegistry =>
      apply has.addRegistry
      rintro registry ⟨⟩
      exact TokenTable.filedWith_empty
  | list tokens =>
      apply has.addTable
      rintro table ⟨⟩
      exact TokenTable.filedWith_ofList given
  | read config =>
      apply has.addTable
      intro table made
      cases loads : TokenTable.ofConfig config with
      | error fault =>
          rw [loads] at made
          cases made
      | ok loaded =>
          rw [loads] at made
          cases made
          exact TokenTable.filedWith_ofConfig named loads
  | readOrEmpty config =>
      apply has.addTable
      rintro table ⟨⟩
      exact TokenTable.filedWith_ofConfigOrEmpty named config
  | merge table other overwrite =>
      apply has.addTable
      intro merged made
      obtain ⟨lower, lowerFound, made⟩ := Option.bind_eq_some_iff.mp made
      obtain ⟨upper, upperFound, ⟨⟩⟩ := Option.bind_eq_some_iff.mp made
      exact (has.table lowerFound).merge (has.table upperFound) overwrite
  | revalue table category id value =>
      apply has.addTable
      intro changed made
      obtain ⟨before, found, ⟨⟩⟩ := Option.bind_eq_some_iff.mp made
      exact (has.table found).revalue (fun token => kept token value) category id
  | freeze registry =>
      apply has.addTable
      intro table made
      obtain ⟨frozen, found, ⟨⟩⟩ := Option.bind_eq_some_iff.mp made
      exact has.registry found
  | thaw table =>
      apply has.addRegistry
      intro registry made
      obtain ⟨thawed, found, ⟨⟩⟩ := Option.bind_eq_some_iff.mp made
      exact has.table found
  | mergeInto registry table overwrite =>
      rw [Workbench.step]
      split
      case h_1 laid found =>
        exact has.changeRegistry registry fun under underHas =>
          underHas.merge (has.table found) overwrite
      case h_2 => exact has
  | register registry format category property =>
      exact has.changeRegistry registry fun before beforeHas =>
        Registry.filedWith_register beforeHas named format category property

/-- What a run of steps keeps. -/
theorem steps (has : bench.FiledWith trait)
    (named : ∀ category name value, trait (Token.named category name value))
    (kept : ∀ token value, trait token → trait { token with value }) {steps : List TableStep}
    (given : ∀ token ∈ steps.flatMap TableStep.given, trait token) :
    (steps.foldl Workbench.step bench).FiledWith trait := by
  induction steps generalizing bench with
  | nil => exact has
  | cons first rest ih =>
      rw [List.flatMap_cons, List.forall_mem_append] at given
      exact ih (has.step named kept given.1) given.2

end FiledWith

theorem filedWith_run (named : ∀ category name value, trait (Token.named category name value))
    (kept : ∀ token value, trait token → trait { token with value }) {steps : List TableStep}
    (given : ∀ token ∈ steps.flatMap TableStep.given, trait token) :
    (run steps).FiledWith trait := by
  have nothing : FiledWith trait {} := ⟨by simp, by simp⟩
  exact nothing.steps named kept given

theorem FiledWith.allTables (has : bench.FiledWith trait) :
    ∀ table ∈ bench.allTables, table.FiledWith trait := by
  intro table member
  rcases List.mem_append.mp member with made | registered
  · exact has.tables table made
  · obtain ⟨registry, inside, rfl⟩ := List.mem_map.mp registered
    exact has.registries registry inside

/-- After any steps every table at hand, that of a registry too, has each token
once, in its own category and under its own id.  What it lists, finds and counts
agrees, and a registry counts what its table counts.  If each token that was
brought in had the id of its name, so has every token at hand, and then no two
of a category share a name. -/
theorem reliable_run (steps : List TableStep) :
    (∀ table ∈ (run steps).allTables, table.Reliable) ∧
    (∀ registry ∈ (run steps).registries,
      {token | ∃ category id, registry.get? category id = some token}.encard = registry.size ∧
      (registry.isEmpty = true ↔ registry.size = 0)) ∧
    ((∀ token ∈ steps.flatMap TableStep.given, token.IdOfName) →
      ∀ table ∈ (run steps).allTables, (∀ token ∈ table.toList, token.IdOfName) ∧
        ∀ category, ((table.tokens category).map Token.name).Nodup) := by
  have filed : (run steps).FiledWith fun _ => True :=
    filedWith_run (fun _ _ _ => trivial) (fun _ _ _ => trivial) fun _ _ => trivial
  refine ⟨fun table member => (filed.allTables table member).filed.reliable, ?_, ?_⟩
  · intro registry member
    exact ⟨(filed.registries registry member).filed.reliable.counted, beq_iff_eq⟩
  · intro given table member
    have named : (run steps).FiledWith Token.IdOfName :=
      filedWith_run (fun _ _ _ => rfl) (fun _ _ same => same) given
    have has := named.allTables table member
    exact ⟨has.all, has.filed.names_nodup has.all⟩

/-- Two names share an id.  The registry keeps the one that it was given last,
when the table of both was laid over it, and a registration of the other gives
nothing new, nor does one that fails. -/
theorem reliable_run_sharedId :
    let steps : List TableStep := [
      .list [Token.named .padding "Aa" "4.dp", Token.named .padding "BB" "8.dp"],
      .emptyRegistry,
      .register 0 (fun _ => .ok (ε := Unit) "2.dp") .padding (some (.linked ⟨"V:1", "Aa", 2.0⟩)),
      .mergeInto 0 0 true,
      .register 0 (fun _ => .error ()) .padding (some (.own 3.0)),
      .freeze 0,
      .revalue 1 .padding 2112 "9.dp"]
    (run steps).tables.map TokenTable.toList = [
      [Token.named .padding "BB" "8.dp"], [Token.named .padding "BB" "8.dp"],
      [Token.named .padding "BB" "9.dp"]] ∧
    ∀ table ∈ (run steps).allTables,
      ((table.tokens .padding).map Token.name).Nodup ∧ table.Reliable := by
  intro steps
  obtain ⟨reliable, -, named⟩ := reliable_run steps
  have given : ∀ token ∈ steps.flatMap TableStep.given, token.IdOfName := by
    decide
  refine ⟨by decide, fun table member => ⟨(named given table member).2 .padding, ?_⟩⟩
  exact reliable table member

end Workbench

end DesignLayout
