import DesignLayout.Proofs.CodeJoining
import DesignLayout.Proofs.MergedTables

/-!
# The content of tables

Tables are compared by content: the value under each id, whatever the order
and the names.  Nothing that is done to tables with the same content tells
them apart, and no code shows them in different ways.
-/

namespace DesignLayout

namespace TokenTable

variable {table other : TokenTable}

/-- The comparison looks at the ids of one side.  As these are distinct and no
fewer than those of the other side, there are no others there. -/
theorem keys_perm_of_shelfAgrees {shelf other : Shelf} (distinct : shelf.keys.Nodup)
    (sizes : shelf.size = other.size) (agrees : shelfAgrees shelf other = true) :
    shelf.keys.Perm other.keys := by
  have inside : shelf.keys ⊆ other.keys := by
    intro id member
    obtain ⟨entry, entryMember, rfl⟩ := List.mem_map.mp member
    have agreed := List.all_eq_true.mp agrees entry entryMember
    by_contra absent
    have missing : other.get? entry.1 = none := OrderedMap.lookup_eq_none_iff.mpr absent
    rw [missing] at agreed
    cases agreed
  apply (List.subperm_of_subset distinct inside).perm_of_length_le
  rw [OrderedMap.keys, OrderedMap.keys, List.length_map, List.length_map]
  exact sizes.ge

theorem agrees_iff (filed : table.Filed) (otherFiled : other.Filed) :
    table.agrees other = true ↔ ∀ category id,
      (table.get? category id).map Token.value = (other.get? category id).map Token.value := by
  refine ⟨fun agrees category id => ?_, agrees_of_values_eq filed otherFiled⟩
  have agreed := List.all_eq_true.mp agrees category category.mem_all
  obtain ⟨sizes, values⟩ := Bool.and_eq_true_iff.mp agreed
  have keys := keys_perm_of_shelfAgrees (filed.distinct category) (beq_iff_eq.mp sizes) values
  cases found : table.get? category id with
  | none =>
      have absent := mt keys.mem_iff.mpr (OrderedMap.lookup_eq_none_iff.mp found)
      have missing : other.get? category id = none := OrderedMap.lookup_eq_none_iff.mpr absent
      rw [missing]
  | some token =>
      have valued := List.all_eq_true.mp values _ (OrderedMap.mem_of_lookup found)
      rw [← get?] at valued
      cases otherFound : other.get? category id with
      | none =>
          rw [otherFound] at valued
          cases valued
      | some entry =>
          rw [otherFound] at valued
          exact congrArg some (beq_iff_eq.mp valued).symm

end TokenTable

/-- Of a table, the display of a token looks at the value under its id alone. -/
theorem Code.display_eq (table : TokenTable) (showValues : Bool) (token : Token) :
    Code.display table showValues token =
      if showValues then
        ((table.get? token.category token.id).map Token.value).getD token.value
      else token.name := by
  unfold Code.display
  cases table.get? token.category token.id <;> rfl

namespace TokenTable

variable {first second third fourth : TokenTable}

/-- Two tables have the same content just when they have the same value under
each id, or both have none.  So this is an equivalence; it is kept when tables
of the same content are merged and when a value is changed in both, and both
give every code the same text. -/
theorem agrees_extensional (firstReachable : first.Reachable) (secondReachable : second.Reachable)
    (thirdReachable : third.Reachable) (fourthReachable : fourth.Reachable) :
    (first.agrees second = true ↔ ∀ category id,
      (first.get? category id).map Token.value = (second.get? category id).map Token.value) ∧
    first == first ∧
    (first == second → second == first) ∧
    (first == second → second == third → first == third) ∧
    (first == second → third == fourth → ∀ overwrite,
      first.merge third overwrite == second.merge fourth overwrite) ∧
    (first == second → ∀ category id value,
      first.revalue category id value == second.revalue category id value) ∧
    (first == second → ∀ (code : Code) (showValues : Bool),
      code.sourceText first showValues = code.sourceText second showValues) := by
  have firstFiled := reachable_iff_filed.mp firstReachable
  have secondFiled := reachable_iff_filed.mp secondReachable
  have thirdFiled := reachable_iff_filed.mp thirdReachable
  have fourthFiled := reachable_iff_filed.mp fourthReachable
  have values := agrees_iff firstFiled secondFiled
  refine ⟨values, agrees_self firstFiled, ?_, ?_, ?_, ?_, ?_⟩
  · intro same
    exact agrees_of_values_eq secondFiled firstFiled fun category id =>
      (values.mp same category id).symm
  · intro same later
    exact agrees_of_values_eq firstFiled thirdFiled fun category id =>
      (values.mp same category id).trans
        ((agrees_iff secondFiled thirdFiled).mp later category id)
  · intro same sameOther overwrite
    apply agrees_of_values_eq (firstFiled.merged _ _) (secondFiled.merged _ _)
    intro category id
    have sameValue := values.mp same category id
    have sameOtherValue := (agrees_iff thirdFiled fourthFiled).mp sameOther category id
    rw [get?_merge_eq thirdFiled, get?_merge_eq fourthFiled]
    cases overwrite <;> simp [Option.map_or, sameValue, sameOtherValue]
  · intro same category id value
    apply agrees_of_values_eq firstFiled.revalue secondFiled.revalue
    intro place key
    -- A changed value depends on the place and the former value only.
    have changed : ∀ token : Token,
        (if category = place ∧ id = key then { token with value } else token).value =
          if category = place ∧ id = key then value else token.value := by
      intro token
      split <;> rfl
    have after : ∀ table : TokenTable,
        ((table.revalue category id value).get? place key).map Token.value =
          ((table.get? place key).map Token.value).map fun former =>
            if category = place ∧ id = key then value else former := by
      intro table
      simp [get?_revalue, Option.map_map, Function.comp_def, changed]
    rw [after, after, values.mp same place key]
  · intro same code showValues
    apply Code.displayWith_congr
    intro token _
    rw [Code.display_eq, Code.display_eq, values.mp same]

/-- Tables with other names and another order, in each of which a value is
changed under a shared id. -/
theorem agrees_extensional_sharedId :
    let first := ofList [.named .padding "Aa" "4.dp", .named .padding "gap" "8.dp"]
    let second := ofList [.named .padding "gap" "8.dp", .named .padding "BB" "4.dp"]
    let under := ofList [.named .color "ink" "Color(0xFF000000)", .named .padding "gap" "2.dp"]
    let other := ofList [.named .padding "gap" "2.dp", .named .color "ink" "Color(0xFF000000)"]
    first ≠ second ∧ first == second ∧
    first.merge under true == second.merge other true ∧
    first.merge under false == second.merge other false ∧
    first.revalue .padding 2112 "5.dp" == second.revalue .padding 2112 "5.dp" ∧
    ∀ code : Code, code.sourceText first true = code.sourceText second true := by
  intro first second under other
  have reachable : ∀ tokens, (ofList tokens).Reachable :=
    fun tokens => reachable_iff_filed.mpr (filed_ofList tokens)
  have same : first == second := by decide
  have sameOther : under == other := by decide
  obtain ⟨-, -, -, -, merged, revalued, shown⟩ :=
    agrees_extensional (reachable _) (reachable _) (reachable _) (reachable _)
  exact ⟨by decide, same, merged same sameOther true, merged same sameOther false,
    revalued same .padding 2112 "5.dp", fun code => shown same code true⟩

end TokenTable

end DesignLayout
