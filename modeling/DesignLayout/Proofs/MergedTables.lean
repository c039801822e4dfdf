import DesignLayout.Proofs.RegistrationRuns
import DesignLayout.Proofs.TableRuns

/-!
# Laws of merging

A merge lays one table over another, or under it.  What is then found under an
id is a choice between two tokens, and ids that are new come behind those that
are there.  A filed table is decided by what it finds and by the order of its
ids, so the laws of merging are those of the choice and of the order.
-/

namespace DesignLayout.TokenTable

variable {table other : TokenTable}

section reachable

/-- Some run of steps leads to the table, as one by itself or as that of a
registry. -/
def Reachable (table : TokenTable) : Prop :=
  ∃ steps, table ∈ (Workbench.run steps).allTables

/-- The tables that can be reached are those that are filed. -/
theorem reachable_iff_filed : table.Reachable ↔ table.Filed := by
  constructor
  · rintro ⟨steps, member⟩
    have filed : (Workbench.run steps).FiledWith fun _ => True :=
      Workbench.filedWith_run (fun _ _ _ => trivial) (fun _ _ _ => trivial) fun _ _ => trivial
    exact (filed.allTables table member).filed
  · intro filed
    refine ⟨[.list table.toList], ?_⟩
    have made : (Workbench.run [.list table.toList]).tables = [ofList table.toList] := rfl
    rw [Workbench.allTables, made, ofList_toList filed]
    exact List.mem_cons_self

end reachable

/-- The ids of a category in their order. -/
def ids (table : TokenTable) (category : Category) : List Int32 :=
  (table.tokens category).map Token.id

namespace Filed

theorem mem_ids_iff (filed : table.Filed) {category : Category} {id : Int32} :
    id ∈ table.ids category ↔ table.get? category id ≠ none := by
  rw [ids, ← filed.keys_eq, get?, OrderedMap.get?, Ne, OrderedMap.lookup_eq_none_iff, not_not]
  rfl

/-- Of the tokens that a filed table lists, the first of an id is found under
it. -/
theorem find?_toList (filed : table.Filed) (category : Category) (id : Int32) :
    (table.toList.find? fun token => token.category = category ∧ token.id = id) =
      table.get? category id := by
  cases listed : table.toList.find? fun token => token.category = category ∧ token.id = id with
  | none =>
      have unlisted := List.find?_eq_none.mp listed
      refine (Option.eq_none_iff_forall_ne_some.mpr fun token found => ?_).symm
      obtain ⟨member, sameId, sameCategory⟩ := filed.of_get? found
      exact unlisted token (mem_toList.mpr ⟨category, member⟩)
        (decide_eq_true ⟨sameCategory, sameId⟩)
  | some token =>
      have placed := List.find?_some listed
      obtain ⟨rfl, rfl⟩ := of_decide_eq_true placed
      obtain ⟨category, member⟩ := mem_toList.mp (List.mem_of_find?_eq_some listed)
      rw [filed.category_of_mem member]
      exact (filed.get?_of_mem member).symm

theorem tokens_eq_filterMap (filed : table.Filed) (category : Category) :
    table.tokens category = (table.ids category).filterMap (table.get? category) := by
  have each : ∀ token ∈ table.tokens category,
      (table.get? category ∘ Token.id) token = some token :=
    fun token member => filed.get?_of_mem member
  rw [ids, List.filterMap_map, List.filterMap_congr each, List.filterMap_some]

/-- A filed table is decided by the order of its ids and by what it finds. -/
theorem ext (filed : table.Filed) (otherFiled : other.Filed)
    (order : ∀ category, table.ids category = other.ids category)
    (found : ∀ category id, table.get? category id = other.get? category id) :
    table = other := by
  apply ext_shelf
  intro category
  have tokens : table.tokens category = other.tokens category := by
    rw [filed.tokens_eq_filterMap, otherFiled.tokens_eq_filterMap, order category,
      funext (found category)]
  have entries : (table.shelf category).entries = (other.shelf category).entries := by
    rw [filed.entries_eq, otherFiled.entries_eq, tokens]
  exact congrArg OrderedMap.mk entries

theorem merged (filed : table.Filed) (other : TokenTable) (overwrite : Bool) :
    (table.merge other overwrite).Filed := by
  cases overwrite with
  | true => exact filed.foldl_insert other.toList
  | false => exact filed.foldl_insertNew other.toList

end Filed

section choice

theorem get?_merge_eq (otherFiled : other.Filed) (table : TokenTable) (overwrite : Bool)
    (category : Category) (id : Int32) :
    (table.merge other overwrite).get? category id =
      if overwrite then (other.get? category id).or (table.get? category id)
      else (table.get? category id).or (other.get? category id) := by
  cases overwrite with
  | true => exact get?_merge otherFiled table category id
  | false =>
      have below := get?_foldl_insertNew table other.toList category id
      rwa [otherFiled.find?_toList] at below

theorem ids_merge (filed : table.Filed) (otherFiled : other.Filed) (overwrite : Bool)
    (category : Category) :
    (table.merge other overwrite).ids category =
      table.ids category ++ (other.ids category).filter (· ∉ table.ids category) := by
  have distinct := otherFiled.ids_nodup category
  cases overwrite with
  | true =>
      have laid := filed.ids_foldl_insert other.toList category
      rwa [otherFiled.filter_toList, OrderedMap.eraseDups_eq_self (distinct.filter _)] at laid
  | false =>
      have added := tokens_foldl_insertNew table other.toList category
      have new : (other.toList.filter fun token =>
            token.category = category ∧ table.get? category token.id = none) =
          (other.tokens category).filter fun token => token.id ∉ table.ids category := by
        rw [← otherFiled.filter_toList, List.filter_filter]
        apply List.filter_congr
        intro token _
        simp [filed.mem_ids_iff, Bool.and_comm]
      rw [new, firstOfEachId_eq_self (distinct.sublist (List.filter_sublist.map _))] at added
      rw [ids, merge, if_neg Bool.false_ne_true, added, List.map_append, ids, ids,
        List.filter_map]
      rfl

/-- Laid over or under a table, a token is found where the other has one, and
the table's own stays where it is not replaced.  Ids that the table has keep
their places, and the others follow in their order.  A registry that has the
tokens of the table takes those of the other in the same way. -/
theorem merge_layers (reachable : table.Reachable) (otherReachable : other.Reachable)
    (overwrite : Bool) :
    (∀ category id, (table.merge other overwrite).get? category id =
      if (other.get? category id).isSome ∧
          (overwrite = true ∨ table.get? category id = none) then
        other.get? category id
      else table.get? category id) ∧
    (∀ category, (table.merge other overwrite).ids category =
      table.ids category ++ (other.ids category).filter (· ∉ table.ids category)) ∧
    (Registry.merge ⟨table⟩ other overwrite).table = table.merge other overwrite := by
  have filed := reachable_iff_filed.mp reachable
  have otherFiled := reachable_iff_filed.mp otherReachable
  refine ⟨fun category id => ?_, ids_merge filed otherFiled overwrite, rfl⟩
  rw [get?_merge_eq otherFiled]
  cases overwrite <;> cases table.get? category id <;> cases other.get? category id <;> rfl

/-- Two names share an id, and one of them is in both categories. -/
theorem merge_layers_sharedId :
    let table := ofList [.named .padding "Aa" "4.dp", .named .padding "gap" "8.dp"]
    let other := ofList [.named .shape "gap" "2.dp", .named .padding "edge" "1.dp",
      .named .padding "BB" "6.dp"]
    table.Reachable ∧ other.Reachable ∧
    (table.merge other true).get? .padding 2112 = some (.named .padding "BB" "6.dp") ∧
    (table.merge other false).get? .padding 2112 = some (.named .padding "Aa" "4.dp") ∧
    (table.merge other true).get? .padding (tokenId "gap") =
      some (.named .padding "gap" "8.dp") ∧
    (table.merge other false).ids .padding = [2112, tokenId "gap", tokenId "edge"] := by
  intro table other
  have reachable : table.Reachable := reachable_iff_filed.mpr (filed_ofList _)
  have otherReachable : other.Reachable := reachable_iff_filed.mpr (filed_ofList _)
  obtain ⟨above, -⟩ := merge_layers reachable otherReachable true
  obtain ⟨below, order, -⟩ := merge_layers reachable otherReachable false
  refine ⟨reachable, otherReachable, (above .padding 2112).trans ?_,
    (below .padding 2112).trans ?_, (above .padding _).trans ?_, (order .padding).trans ?_⟩
  all_goals decide

end choice

section algebra

theorem merge_assoc {first second third : TokenTable} (firstFiled : first.Filed)
    (secondFiled : second.Filed) (thirdFiled : third.Filed) (overwrite : Bool) :
    (first.merge second overwrite).merge third overwrite =
      first.merge (second.merge third overwrite) overwrite := by
  have earlierFiled := firstFiled.merged second overwrite
  have laterFiled := secondFiled.merged third overwrite
  apply (earlierFiled.merged third overwrite).ext (firstFiled.merged _ overwrite)
  · intro category
    rw [ids_merge earlierFiled thirdFiled, ids_merge firstFiled secondFiled,
      ids_merge firstFiled laterFiled, ids_merge secondFiled thirdFiled, List.filter_append,
      List.append_assoc, List.filter_filter]
    congr 2
    apply List.filter_congr
    intro id _
    by_cases old : id ∈ first.ids category <;> simp [old]
  · intro category id
    rw [get?_merge_eq thirdFiled, get?_merge_eq secondFiled, get?_merge_eq laterFiled,
      get?_merge_eq thirdFiled]
    cases overwrite <;> simp [Option.or_assoc]

/-- A merge that leaves what is found leaves the table. -/
theorem merge_eq_self (filed : table.Filed) (otherFiled : other.Filed) {overwrite : Bool}
    (same : ∀ category id,
      (table.merge other overwrite).get? category id = table.get? category id) :
    table.merge other overwrite = table := by
  have mergedFiled := filed.merged other overwrite
  refine mergedFiled.ext filed (fun category => ?_) same
  have order := ids_merge filed otherFiled overwrite category
  rw [order, List.filter_eq_nil_iff.mpr, List.append_nil]
  intro id member
  have present : id ∈ (table.merge other overwrite).ids category := by
    by_cases old : id ∈ table.ids category <;> simp [order, member, old]
  rw [mergedFiled.mem_ids_iff, same, ← filed.mem_ids_iff] at present
  simpa using present

theorem merge_self (filed : table.Filed) (overwrite : Bool) :
    table.merge table overwrite = table := by
  apply merge_eq_self filed filed
  intro category id
  rw [get?_merge_eq filed, Option.or_self, ite_self]

theorem toList_ofList_singleton (token : Token) : (ofList [token]).toList = [token] := by
  have inserted := tokens_insert_of_new (get?_empty token.category token.id)
  have none : ∀ category, empty.tokens category = [] := by
    intro category
    cases category <;> rfl
  rw [ofList, List.foldl_cons, List.foldl_nil, toList, funext inserted]
  cases place : token.category <;> simp [Category.all, none]

/-- Tokens that are inserted one after the other are a table that is laid
over. -/
theorem foldl_insert_eq_merge (filed : table.Filed) (tokens : List Token) :
    tokens.foldl insert table = table.merge (ofList tokens) true := by
  have one : ∀ (under : TokenTable) (token : Token),
      under.insert token = under.merge (ofList [token]) true := by
    intro under token
    rw [merge, toList_ofList_singleton]
    rfl
  -- The last token is laid over the earlier ones, so the merges only change
  -- their grouping.
  induction tokens using List.reverseRecOn with
  | nil => rfl
  | append_singleton earlier token ih =>
      have last : ofList (earlier ++ [token]) = (ofList earlier).merge (ofList [token]) true := by
        rw [← one, ofList, List.foldl_append]
        rfl
      rw [List.foldl_append, ih, List.foldl_cons, List.foldl_nil, one, last,
        merge_assoc filed (filed_ofList _) (filed_ofList _)]

/-- Merges in one mode can be grouped in any way, and a table that was merged
before changes nothing.  To lay a table over another gives the content of
laying that one under it.  The table of a list is that of its first part with
that of the rest laid over, and a table is that of the tokens that it lists. -/
theorem merge_algebra {first second third : TokenTable} (firstReachable : first.Reachable)
    (secondReachable : second.Reachable) (thirdReachable : third.Reachable) (overwrite : Bool) :
    (first.merge second overwrite).merge third overwrite =
      first.merge (second.merge third overwrite) overwrite ∧
    first.merge first overwrite = first ∧
    (first.merge second overwrite).merge second overwrite = first.merge second overwrite ∧
    (first.merge second true).agrees (second.merge first false) = true ∧
    (∀ left right : List Token,
      ofList (left ++ right) = (ofList left).merge (ofList right) true) ∧
    ofList first.toList = first := by
  have firstFiled := reachable_iff_filed.mp firstReachable
  have secondFiled := reachable_iff_filed.mp secondReachable
  have thirdFiled := reachable_iff_filed.mp thirdReachable
  refine ⟨merge_assoc firstFiled secondFiled thirdFiled overwrite, merge_self firstFiled overwrite,
    ?_, ?_, ?_, ofList_toList firstFiled⟩
  · rw [merge_assoc firstFiled secondFiled secondFiled, merge_self secondFiled]
  · apply agrees_of_get?_eq (firstFiled.merged _ _) (secondFiled.merged _ _)
    intro category id
    rw [get?_merge_eq secondFiled, get?_merge_eq firstFiled]
    rfl
  · intro left right
    rw [← foldl_insert_eq_merge (filed_ofList left) right]
    exact List.foldl_append

/-- Three tables that share an id, where the order of the merges could show. -/
theorem merge_algebra_sharedId :
    let first := ofList [.named .padding "gap" "8.dp", .named .padding "Aa" "4.dp"]
    let second := ofList [.named .padding "BB" "6.dp", .named .padding "edge" "1.dp"]
    let third := ofList [.named .padding "edge" "3.dp", .named .padding "Aa" "5.dp"]
    (first.merge second true).merge third true =
      first.merge (second.merge third true) true ∧
    first.merge second true ≠ second.merge first false ∧
    (first.merge second true).agrees (second.merge first false) = true ∧
    (first.merge (second.merge third true) true).tokens .padding =
      [.named .padding "gap" "8.dp", .named .padding "Aa" "5.dp",
        .named .padding "edge" "3.dp"] := by
  intro first second third
  have reachable : ∀ tokens, (ofList tokens).Reachable :=
    fun tokens => reachable_iff_filed.mpr (filed_ofList tokens)
  obtain ⟨assoc, -, -, content, -⟩ :=
    merge_algebra (reachable _) (reachable _) (reachable _) true
  exact ⟨assoc, by decide, content, by decide⟩

end algebra

end DesignLayout.TokenTable
