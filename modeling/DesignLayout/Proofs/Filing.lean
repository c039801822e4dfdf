import DesignLayout.Proofs.DistinctKeys
import DesignLayout.Token.Table

/-!
# Filed tokens

A table files its tokens: each stands on the shelf of its category, under its
own id, and no id stands there twice.  Every table that is built by inserting
tokens is filed, and a filed table is the list of its tokens.
-/

namespace DesignLayout.TokenTable

/-- Each token stands under its own category and id, and only once. -/
structure Filed (table : TokenTable) : Prop where
  keyed : ∀ category, ∀ entry ∈ (table.shelf category).entries,
    entry.1 = entry.2.id ∧ entry.2.category = category
  distinct : ∀ category, (table.shelf category).keys.Nodup

theorem ext_shelf {left right : TokenTable}
    (same : ∀ category, left.shelf category = right.shelf category) : left = right := by
  have padding := same .padding
  have shape := same .shape
  have color := same .color
  have text := same .text
  cases left
  cases right
  simp only [shelf] at padding shape color text
  rw [padding, shape, color, text]

theorem shelf_insert (table : TokenTable) (token : Token) (category : Category) :
    (table.insert token).shelf category =
      if token.category = category then (table.shelf category).insert token.id token
      else table.shelf category := by
  by_cases equal : token.category = category
  · subst category
    simp [insert]
  · rw [if_neg equal]
    exact shelf_modifyShelf_of_ne table _ (Ne.symm equal)

theorem get?_insert (table : TokenTable) (token : Token) (category : Category) (id : Int32) :
    (table.insert token).get? category id =
      if token.category = category ∧ token.id = id then some token
      else table.get? category id := by
  rw [get?, shelf_insert]
  by_cases sameCategory : token.category = category
  · by_cases sameId : token.id = id
    · simp [sameCategory, sameId]
    · have other := OrderedMap.get?_insert_of_ne (table.shelf category) token (Ne.symm sameId)
      simp [sameCategory, sameId, other, get?]
  · simp [sameCategory, get?]

/-- A token with a new id comes last in its category. -/
theorem tokens_insert_of_new {table : TokenTable} {token : Token}
    (fresh : table.get? token.category token.id = none) (category : Category) :
    (table.insert token).tokens category =
      table.tokens category ++ if token.category = category then [token] else [] := by
  rw [tokens, shelf_insert]
  split
  case isTrue same =>
    subst category
    have absent := OrderedMap.lookup_eq_none_iff.mp fresh
    simp [OrderedMap.values, OrderedMap.insert, OrderedMap.put_of_not_mem token absent, tokens]
  case isFalse => simp [tokens]

/-- Tokens of different categories do not meet. -/
theorem insert_comm (table : TokenTable) {left right : Token}
    (different : left.category ≠ right.category) :
    (table.insert left).insert right = (table.insert right).insert left := by
  apply ext_shelf
  intro category
  simp only [shelf_insert]
  by_cases isLeft : left.category = category
  · have notRight : right.category ≠ category := isLeft ▸ different.symm
    simp [isLeft, notRight]
  · simp [isLeft]

theorem filed_empty : empty.Filed := by
  constructor
  · intro category entry member
    cases category <;> cases member
  · intro category
    cases category <;> exact List.nodup_nil

namespace Filed

variable {table : TokenTable}

theorem insert (filed : table.Filed) (token : Token) : (table.insert token).Filed := by
  constructor
  · intro category entry member
    rw [shelf_insert] at member
    split at member
    case isTrue equal =>
      rcases OrderedMap.mem_put member with new | old
      · subst entry
        exact ⟨rfl, equal⟩
      · exact filed.keyed category entry old
    case isFalse => exact filed.keyed category entry member
  · intro category
    rw [shelf_insert]
    split
    · exact OrderedMap.nodup_map_fst_put token.id token (filed.distinct category)
    · exact filed.distinct category

theorem foldl_insert (filed : table.Filed) (tokens : List Token) :
    (tokens.foldl TokenTable.insert table).Filed := by
  induction tokens generalizing table with
  | nil => exact filed
  | cons token rest ih => exact ih (filed.insert token)

/-- A shelf of a filed table is the list of its tokens. -/
theorem entries_eq (filed : table.Filed) (category : Category) :
    (table.shelf category).entries =
      (table.tokens category).map fun token => (token.id, token) := by
  have unchanged : ∀ entry ∈ (table.shelf category).entries, (entry.2.id, entry.2) = entry := by
    intro entry member
    exact Prod.ext (filed.keyed category entry member).1.symm rfl
  rw [tokens, OrderedMap.values, List.map_map]
  exact ((List.map_congr_left unchanged).trans (List.map_id _)).symm

theorem ids_nodup (filed : table.Filed) (category : Category) :
    ((table.tokens category).map Token.id).Nodup := by
  have distinct := filed.distinct category
  rwa [OrderedMap.keys, filed.entries_eq category, List.map_map] at distinct

theorem category_of_mem (filed : table.Filed) {category : Category} {token : Token}
    (member : token ∈ table.tokens category) : token.category = category := by
  obtain ⟨entry, entryMember, rfl⟩ := List.mem_map.mp member
  exact (filed.keyed category entry entryMember).2

theorem of_get? (filed : table.Filed) {category : Category} {id : Int32} {token : Token}
    (found : table.get? category id = some token) :
    token ∈ table.tokens category ∧ token.id = id ∧ token.category = category := by
  have member := OrderedMap.mem_of_lookup found
  obtain ⟨keyed, categorized⟩ := filed.keyed category _ member
  exact ⟨List.mem_map_of_mem (f := Prod.snd) member, keyed.symm, categorized⟩

theorem get?_of_mem (filed : table.Filed) {category : Category} {token : Token}
    (member : token ∈ table.tokens category) : table.get? category token.id = some token := by
  obtain ⟨entry, entryMember, rfl⟩ := List.mem_map.mp member
  rw [← (filed.keyed category entry entryMember).1]
  exact OrderedMap.lookup_of_mem (filed.distinct category) entryMember

end Filed

theorem filed_ofList (tokens : List Token) : (ofList tokens).Filed :=
  filed_empty.foldl_insert tokens

/-- Each shelf takes the tokens of its category. -/
theorem shelf_foldl_insert (table : TokenTable) (tokens : List Token) (category : Category) :
    (tokens.foldl insert table).shelf category =
      ((tokens.filter (·.category = category)).map fun token => (token.id, token)).foldl
        (fun shelf pair => shelf.insert pair.1 pair.2) (table.shelf category) := by
  induction tokens generalizing table with
  | nil => rfl
  | cons token rest ih =>
      rw [List.foldl_cons, ih, shelf_insert]
      by_cases equal : token.category = category <;> simp [equal]

theorem Filed.filter_toList {table : TokenTable} (filed : table.Filed) (category : Category) :
    table.toList.filter (·.category = category) = table.tokens category := by
  have shelfwise : ∀ other,
      (table.tokens other).filter (·.category = category) =
        if other = category then table.tokens category else [] := by
    intro other
    split
    case isTrue equal =>
      subst other
      exact List.filter_eq_self.mpr fun token member =>
        decide_eq_true (filed.category_of_mem member)
    case isFalse different =>
      apply List.filter_eq_nil_iff.mpr
      intro token member
      simpa [filed.category_of_mem member] using different
  rw [toList, Category.all]
  cases category <;> simp [shelfwise]

/-- The tokens of a filed table, inserted one after the other, give the table
back. -/
theorem ofList_toList {table : TokenTable} (filed : table.Filed) :
    ofList table.toList = table := by
  apply ext_shelf
  intro category
  rw [ofList, shelf_foldl_insert, filed.filter_toList category, ← filed.entries_eq category]
  have distinct := filed.distinct category
  have emptyShelf : empty.shelf category = .empty := by cases category <;> rfl
  rw [emptyShelf]
  exact congrArg OrderedMap.mk (OrderedMap.entries_ofList distinct)

/-- Filed tables that have the same value under each id have the same content,
whatever the order and the names. -/
theorem agrees_of_values_eq {table other : TokenTable} (filed : table.Filed)
    (otherFiled : other.Filed)
    (same : ∀ category id,
      (table.get? category id).map Token.value = (other.get? category id).map Token.value) :
    table.agrees other = true := by
  apply List.all_eq_true.mpr
  intro category _
  have keys : (table.shelf category).keys.Perm (other.shelf category).keys := by
    apply (List.perm_ext_iff_of_nodup (filed.distinct category)
      (otherFiled.distinct category)).mpr
    intro id
    have absent : id ∉ (table.shelf category).keys ↔ id ∉ (other.shelf category).keys := by
      rw [OrderedMap.keys, OrderedMap.keys, ← OrderedMap.lookup_eq_none_iff,
        ← OrderedMap.lookup_eq_none_iff, ← Option.map_eq_none_iff (f := Token.value),
        ← Option.map_eq_none_iff (f := Token.value)]
      exact Eq.congr_left (same category id)
    exact not_iff_not.mp absent
  have sizes : (table.shelf category).size = (other.shelf category).size := by
    simpa [OrderedMap.keys, OrderedMap.size] using keys.length_eq
  rw [Bool.and_eq_true]
  refine ⟨beq_iff_eq.mpr sizes, List.all_eq_true.mpr fun entry member => ?_⟩
  have own : table.get? category entry.1 = some entry.2 :=
    OrderedMap.lookup_of_mem (filed.distinct category) member
  have values := same category entry.1
  rw [own, Option.map_some] at values
  obtain ⟨token, found, value⟩ := Option.map_eq_some_iff.mp values.symm
  rw [get?] at found
  simp [found, value]

theorem agrees_of_get?_eq {table other : TokenTable} (filed : table.Filed)
    (otherFiled : other.Filed)
    (same : ∀ category id, table.get? category id = other.get? category id) :
    table.agrees other = true :=
  agrees_of_values_eq filed otherFiled fun category id =>
    congrArg (Option.map Token.value) (same category id)

/-- A filed table has the content that it has. -/
theorem agrees_self {table : TokenTable} (filed : table.Filed) : table.agrees table = true :=
  agrees_of_get?_eq filed filed fun _ _ => rfl

end DesignLayout.TokenTable
