import DesignLayout.Proofs.ConfigRoundTrip
import DesignLayout.Proofs.Layering
import DesignLayout.Proofs.TokenTraits

/-!
# Tables that go by names

A named table is filed, and keeps each token under the id of its name.  Tables
that are laid over each other stay named, and so does a table whose values
change.  A named table has a config text of its own.  What is read from that
text is the table, or nothing at all where the reserved key opens a section.
-/

namespace DesignLayout.TokenTable

/-- A filed table whose ids are those of the names. -/
structure Named (table : TokenTable) : Prop where
  filed : table.Filed
  idOfName : ∀ token ∈ table.toList, token.IdOfName

variable {table other : TokenTable}

theorem named_iff : table.Named ↔ table.FiledWith Token.IdOfName :=
  ⟨fun named => ⟨named.filed, named.idOfName⟩, fun has => ⟨has.filed, has.all⟩⟩

theorem named_ofConfigOrEmpty (text : String) : (ofConfigOrEmpty text).Named :=
  named_iff.mpr (filedWith_ofConfigOrEmpty (fun _ _ _ => rfl) text)

namespace Named

theorem merge (named : table.Named) (otherNamed : other.Named) :
    (table.merge other true).Named :=
  named_iff.mpr ((named_iff.mp named).merge (named_iff.mp otherNamed) true)

theorem revalue (named : table.Named) (category : Category) (id : Int32) (value : String) :
    (table.revalue category id value).Named :=
  named_iff.mpr ((named_iff.mp named).revalue (fun _ same => same) category id)

theorem tokens_injective (named : table.Named) (otherNamed : other.Named)
    (same : ∀ category, table.tokens category = other.tokens category) : table = other := by
  apply ext_shelf
  intro category
  have entries : (table.shelf category).entries = (other.shelf category).entries := by
    rw [named.filed.entries_eq, otherNamed.filed.entries_eq, same category]
  exact congrArg OrderedMap.mk entries

theorem namedValues_distinct (named : table.Named) :
    ∀ written ∈ Category.all.map fun category => (category.name, table.namedValues category),
      (written.2.map Prod.fst).Nodup := by
  intro written member
  obtain ⟨category, -, rfl⟩ := List.mem_map.mp member
  rw [namedValues_eq named.filed named.idOfName, List.map_map]
  exact named.filed.names_nodup named.idOfName category

theorem configText_injective (named : table.Named) (otherNamed : other.Named)
    (same : table.configText = other.configText) : table = other := by
  have names : ∀ table : TokenTable, ((Category.all.map fun category =>
      (category.name, table.namedValues category)).map Prod.fst).Nodup := by
    intro table
    rw [List.map_map]
    exact (by decide : (Category.all.map Category.name).Nodup)
  have sections := Toml.documentText_injective (names table) named.namedValues_distinct
    (names other) otherNamed.namedValues_distinct (String.ofList_injective same)
  apply named.tokens_injective otherNamed
  intro category
  have values := List.map_inj_left.mp sections category category.mem_all
  rw [tokens_eq_map_namedValues named.filed named.idOfName,
    tokens_eq_map_namedValues otherNamed.filed otherNamed.idOfName, (Prod.mk.inj values).2]

end Named

section config

instance : Decidable table.OpensWithDate :=
  decidable_of_iff (∃ category ∈ Category.all,
      (table.tokens category).head?.map Token.name = some Toml.dateKey)
    ⟨fun given => given.imp fun _ opens => opens.2,
      fun given => given.imp fun category opens => ⟨category.mem_all, opens⟩⟩

theorem Named.ofConfigOrEmpty_configText (named : table.Named) :
    ofConfigOrEmpty table.configText = if table.OpensWithDate then empty else table := by
  split
  case isTrue dated =>
    obtain ⟨fault, refused⟩ := ofConfig_configText_of_dated named.filed named.idOfName dated
    rw [ofConfigOrEmpty, refused]
  case isFalse undated =>
    rw [ofConfigOrEmpty, ofConfig_configText_of_undated named.filed named.idOfName undated]

theorem opensWithDate_revalue_iff (filed : table.Filed) (category : Category) (id : Int32)
    (value : String) :
    (table.revalue category id value).OpensWithDate ↔ table.OpensWithDate := by
  have heads : ∀ place,
      ((table.revalue category id value).tokens place).head?.map Token.name =
        (table.tokens place).head?.map Token.name := by
    intro place
    rw [← List.head?_map, ← List.head?_map, map_tokens_revalue filed fun _ => rfl]
  simp only [OpensWithDate, heads]

/-- A change of values that was saved is there when the table is laid under
it. -/
theorem Named.merge_saved_revalue (named : table.Named) (category : Category) (id : Int32)
    (value : String) :
    table.merge (ofConfigOrEmpty (table.revalue category id value).configText) true =
      if table.OpensWithDate then table else table.revalue category id value := by
  rw [(named.revalue category id value).ofConfigOrEmpty_configText]
  simp only [opensWithDate_revalue_iff named.filed]
  split
  · exact merge_empty table
  · exact merge_revalue named.filed

/-- Two tables that were laid over each other and saved are there when the
first is laid under what was saved. -/
theorem Named.merge_saved_merge (named : table.Named) (otherNamed : other.Named) :
    table.merge (ofConfigOrEmpty (table.merge other true).configText) true =
      if (table.merge other true).OpensWithDate then table else table.merge other true := by
  rw [(named.merge otherNamed).ofConfigOrEmpty_configText]
  split
  · exact merge_empty table
  · exact merge_merge named.filed other

end config

end DesignLayout.TokenTable
