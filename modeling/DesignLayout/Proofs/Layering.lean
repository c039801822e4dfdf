import DesignLayout.Proofs.Filing

/-!
# Tables laid over tables

A table that is laid over another replaces the tokens whose ids they share,
where they stand, and adds its other tokens behind.  So a table that begins
with the ids of another is not changed by being laid over it, and this holds
of every table that came from such a layering or from a change of values.
-/

namespace DesignLayout.TokenTable

variable {table other : TokenTable}

/-- Of tokens that are inserted one after the other, the last stands under its
category and id, in the place of a token that stood there before. -/
theorem get?_foldl_insert (table : TokenTable) (tokens : List Token) (category : Category)
    (id : Int32) :
    (tokens.foldl insert table).get? category id =
      (tokens.reverse.find? fun token => token.category = category ∧ token.id = id).or
        (table.get? category id) := by
  induction tokens generalizing table with
  | nil => simp
  | cons token rest ih =>
      rw [List.foldl_cons, ih, get?_insert, List.reverse_cons, List.find?_append, Option.or_assoc]
      by_cases same : token.category = category ∧ token.id = id <;> simp [same]

section insertNew

theorem insertNew_eq (table : TokenTable) (token : Token) :
    table.insertNew token =
      if (table.get? token.category token.id).isSome then table else table.insert token := by
  apply ext_shelf
  intro category
  by_cases equal : token.category = category
  · subst category
    rw [insertNew, shelf_modifyShelf_self, OrderedMap.insertNew, OrderedMap.contains, get?]
    split
    · rfl
    · rw [shelf_insert, if_pos rfl]
  · rw [insertNew, shelf_modifyShelf_of_ne table _ (Ne.symm equal)]
    split
    · rfl
    · rw [shelf_insert, if_neg equal]

theorem get?_insertNew (table : TokenTable) (token : Token) (category : Category) (id : Int32) :
    (table.insertNew token).get? category id =
      (table.get? category id).or
        (if token.category = category ∧ token.id = id then some token else none) := by
  rw [insertNew_eq]
  split
  case isTrue present =>
    split
    case isTrue same =>
      obtain ⟨rfl, rfl⟩ := same
      exact (Option.or_of_isSome present).symm
    case isFalse => exact Option.or_none.symm
  case isFalse absent =>
    rw [get?_insert]
    split
    case isTrue same =>
      obtain ⟨rfl, rfl⟩ := same
      rw [Option.not_isSome_iff_eq_none.mp absent, Option.none_or]
    case isFalse => exact Option.or_none.symm

/-- Of tokens that are stored one after the other, the first stands under its
category and id, unless a token stood there before. -/
theorem get?_foldl_insertNew (table : TokenTable) (tokens : List Token) (category : Category)
    (id : Int32) :
    (tokens.foldl insertNew table).get? category id =
      (table.get? category id).or
        (tokens.find? fun token => token.category = category ∧ token.id = id) := by
  induction tokens generalizing table with
  | nil => simp
  | cons token rest ih =>
      rw [List.foldl_cons, ih, get?_insertNew, Option.or_assoc]
      by_cases same : token.category = category ∧ token.id = id <;> simp [same]

theorem Filed.foldl_insertNew (filed : table.Filed) (tokens : List Token) :
    (tokens.foldl TokenTable.insertNew table).Filed := by
  induction tokens generalizing table with
  | nil => exact filed
  | cons token rest ih =>
      apply ih
      rw [insertNew_eq]
      split
      · exact filed
      · exact filed.insert token

end insertNew

section members

theorem mem_toList {token : Token} :
    token ∈ table.toList ↔ ∃ category, token ∈ table.tokens category := by
  constructor
  · intro member
    obtain ⟨category, -, inside⟩ := List.mem_flatMap.mp member
    exact ⟨category, inside⟩
  · intro given
    obtain ⟨category, inside⟩ := given
    exact List.mem_flatMap.mpr ⟨category, category.mem_all, inside⟩

theorem mem_toList_insert {token entry : Token} (member : entry ∈ (table.insert token).toList) :
    entry = token ∨ entry ∈ table.toList := by
  obtain ⟨category, inside⟩ := mem_toList.mp member
  rw [tokens, shelf_insert] at inside
  split at inside
  case isTrue =>
    obtain ⟨pair, pairMember, rfl⟩ := List.mem_map.mp inside
    rcases OrderedMap.mem_put pairMember with rfl | old
    · exact .inl rfl
    · exact .inr (mem_toList.mpr ⟨category, List.mem_map_of_mem old⟩)
  case isFalse => exact .inr (mem_toList.mpr ⟨category, inside⟩)

theorem mem_toList_foldl_insert {tokens : List Token} {entry : Token}
    (member : entry ∈ (tokens.foldl insert table).toList) :
    entry ∈ tokens ∨ entry ∈ table.toList := by
  induction tokens generalizing table with
  | nil => exact .inr member
  | cons token rest ih =>
      rcases ih member with later | before
      · exact .inl (List.mem_cons_of_mem _ later)
      · rcases mem_toList_insert before with rfl | old
        · exact .inl List.mem_cons_self
        · exact .inr old

theorem mem_toList_foldl_insertNew {tokens : List Token} {entry : Token}
    (member : entry ∈ (tokens.foldl insertNew table).toList) :
    entry ∈ tokens ∨ entry ∈ table.toList := by
  induction tokens generalizing table with
  | nil => exact .inr member
  | cons token rest ih =>
      rcases ih member with later | before
      · exact .inl (List.mem_cons_of_mem _ later)
      · rw [insertNew_eq] at before
        split at before
        · exact .inr before
        · rcases mem_toList_insert before with rfl | old
          · exact .inl List.mem_cons_self
          · exact .inr old

end members

section merge

theorem Filed.keys_eq (filed : table.Filed) (category : Category) :
    (table.shelf category).keys = (table.tokens category).map Token.id := by
  rw [OrderedMap.keys, filed.entries_eq category, List.map_map]
  rfl

/-- Tokens with new ids come last, in the order in which the ids come first. -/
theorem Filed.ids_foldl_insert (filed : table.Filed) (tokens : List Token) (category : Category) :
    ((tokens.foldl TokenTable.insert table).tokens category).map Token.id =
      (table.tokens category).map Token.id ++
        (((tokens.filter (·.category = category)).map Token.id).filter
          (· ∉ (table.tokens category).map Token.id)).eraseDups := by
  rw [← (filed.foldl_insert tokens).keys_eq, ← filed.keys_eq, shelf_foldl_insert,
    OrderedMap.keys_foldl_insert, List.map_map]
  rfl

/-- What lies above is found first. -/
theorem get?_merge (otherFiled : other.Filed) (table : TokenTable) (category : Category)
    (id : Int32) :
    (table.merge other true).get? category id =
      (other.get? category id).or (table.get? category id) := by
  have above := get?_foldl_insert empty other.toList category id
  rw [← ofList, ofList_toList otherFiled, get?_empty, Option.or_none] at above
  rw [above]
  exact get?_foldl_insert table other.toList category id

theorem Filed.merge (filed : table.Filed) (other : TokenTable) :
    (table.merge other true).Filed :=
  filed.foldl_insert other.toList

/-- The ids of a table stay where they are when a table is laid over it. -/
theorem ids_prefix_merge (filed : table.Filed) (category : Category) :
    (table.tokens category).map Token.id <+:
      ((table.merge other true).tokens category).map Token.id := by
  have keys : ∀ tokens : List Token, ∀ start : TokenTable,
      (start.shelf category).keys <+: ((tokens.foldl insert start).shelf category).keys := by
    intro tokens
    induction tokens with
    | nil => exact fun start => List.prefix_rfl
    | cons token rest ih =>
        intro start
        refine List.IsPrefix.trans ?_ (ih (start.insert token))
        rw [shelf_insert]
        split
        · exact OrderedMap.keys_prefix_insert _ _ _
        · exact List.prefix_rfl
  rw [← filed.keys_eq category, ← (filed.merge other).keys_eq category]
  exact keys other.toList table

/-- A table that begins with the ids of another is the two laid over each
other. -/
theorem merge_of_ids_prefix (filed : table.Filed) (otherFiled : other.Filed)
    (leading : ∀ category,
      (table.tokens category).map Token.id <+: (other.tokens category).map Token.id) :
    table.merge other true = other := by
  apply ext_shelf
  intro category
  have distinct : ((other.shelf category).entries.map Prod.fst).Nodup :=
    otherFiled.distinct category
  have replaced := OrderedMap.entries_foldl_insert_over [] (table.shelf category).entries
    (other.shelf category).entries
    (by
      rw [← OrderedMap.keys, ← OrderedMap.keys, filed.keys_eq, otherFiled.keys_eq]
      exact leading category)
    (by simpa using distinct)
  simp only [List.nil_append] at replaced
  have laid := shelf_foldl_insert table other.toList category
  rw [otherFiled.filter_toList, ← otherFiled.entries_eq category] at laid
  exact laid.trans (congrArg OrderedMap.mk replaced)

theorem merge_merge (filed : table.Filed) (other : TokenTable) :
    table.merge (table.merge other true) true = table.merge other true :=
  merge_of_ids_prefix filed (filed.merge other) fun category => ids_prefix_merge filed category

theorem merge_empty (table : TokenTable) : table.merge empty true = table := rfl

end merge

section revalue

variable {category : Category} {id : Int32} {value : String}

theorem shelf_revalue (table : TokenTable) (place : Category) :
    (table.revalue category id value).shelf place =
      if category = place then (table.shelf place).modify id fun token => { token with value }
      else table.shelf place := by
  by_cases equal : category = place
  · subst place
    simp [revalue]
  · rw [if_neg equal]
    exact shelf_modifyShelf_of_ne table _ (Ne.symm equal)

theorem get?_revalue (table : TokenTable) (place : Category) (key : Int32) :
    (table.revalue category id value).get? place key =
      (table.get? place key).map fun token =>
        if category = place ∧ id = key then { token with value } else token := by
  rw [get?, shelf_revalue]
  by_cases equal : category = place
  · simp [equal, OrderedMap.get?, OrderedMap.modify, OrderedMap.lookup_alter, get?]
  · simp [equal, get?]

theorem tokens_revalue (filed : table.Filed) (place : Category) :
    (table.revalue category id value).tokens place =
      (table.tokens place).map fun token =>
        if token.category = category ∧ token.id = id then { token with value } else token := by
  rw [tokens, shelf_revalue]
  split
  case isTrue equal =>
    subst place
    have each : ∀ entry ∈ (table.shelf category).entries,
        (if entry.1 = id then (entry.1, { entry.2 with value }) else entry).2 =
          if entry.2.category = category ∧ entry.2.id = id then { entry.2 with value }
          else entry.2 := by
      intro entry member
      obtain ⟨key, place⟩ := filed.keyed category entry member
      by_cases same : entry.1 = id <;> simp [same, ← key, place]
    rw [OrderedMap.values, OrderedMap.modify,
      OrderedMap.alter_eq_map _ (filed.distinct category), List.map_map, tokens,
      OrderedMap.values, List.map_map]
    exact List.map_congr_left each
  case isFalse different =>
    refine ((List.map_congr_left fun token member => ?_).trans (List.map_id _)).symm
    have placed := filed.category_of_mem member
    exact if_neg fun given => different (given.1.symm.trans placed)

theorem Filed.revalue (filed : table.Filed) : (table.revalue category id value).Filed := by
  constructor
  · intro place entry member
    rw [shelf_revalue] at member
    split at member
    case isTrue =>
      rw [OrderedMap.modify, OrderedMap.alter_eq_map _ (filed.distinct place)] at member
      obtain ⟨original, originalMember, rfl⟩ := List.mem_map.mp member
      have keyed := filed.keyed place original originalMember
      split
      · exact keyed
      · exact keyed
    case isFalse => exact filed.keyed place entry member
  · intro place
    rw [shelf_revalue]
    split
    case isTrue =>
      rw [OrderedMap.keys, OrderedMap.modify, OrderedMap.map_fst_alter]
      exact filed.distinct place
    case isFalse => exact filed.distinct place

/-- What a change of values keeps of each token, it keeps of all. -/
theorem map_tokens_revalue {α : Type} (filed : table.Filed) {view : Token → α}
    (kept : ∀ token : Token, view { token with value } = view token) (place : Category) :
    ((table.revalue category id value).tokens place).map view =
      (table.tokens place).map view := by
  rw [tokens_revalue filed, List.map_map]
  apply List.map_congr_left
  intro token _
  rw [Function.comp_apply]
  split
  · exact kept token
  · rfl

theorem merge_revalue (filed : table.Filed) :
    table.merge (table.revalue category id value) true = table.revalue category id value := by
  apply merge_of_ids_prefix filed filed.revalue
  intro place
  rw [map_tokens_revalue filed (fun _ => rfl)]

end revalue

end DesignLayout.TokenTable
