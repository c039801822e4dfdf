import Mathlib
import DesignLayout.OrderedMap

/-!
# Maps with distinct keys

Insertion keeps the keys of a map distinct.  With distinct keys a map is the
list of its entries: looking a key up finds the entry with the key, and the
entries inserted one after the other give the map back.
-/

namespace DesignLayout.OrderedMap

variable {κ ν : Type} [DecidableEq κ]

theorem lookup_eq_none_iff {key : κ} {entries : List (κ × ν)} :
    lookup key entries = none ↔ key ∉ entries.map Prod.fst := by
  induction entries with
  | nil => simp [lookup]
  | cons entry rest ih =>
      by_cases equal : entry.1 = key
      · simp [lookup, equal]
      · have different : key ≠ entry.1 := Ne.symm equal
        simp only [lookup, equal, if_false, List.map_cons, List.mem_cons, different, false_or]
        exact ih

theorem mem_of_lookup {key : κ} {value : ν} {entries : List (κ × ν)}
    (found : lookup key entries = some value) : (key, value) ∈ entries := by
  induction entries with
  | nil => simp [lookup] at found
  | cons entry rest ih =>
      rcases entry with ⟨other, previous⟩
      by_cases equal : other = key
      · simp only [lookup, equal, if_true, Option.some.injEq] at found
        simp [equal, found]
      · simp only [lookup, equal, if_false] at found
        exact List.mem_cons_of_mem _ (ih found)

theorem lookup_of_mem {key : κ} {value : ν} {entries : List (κ × ν)}
    (distinct : (entries.map Prod.fst).Nodup) (member : (key, value) ∈ entries) :
    lookup key entries = some value := by
  induction entries with
  | nil => cases member
  | cons entry rest ih =>
      simp only [List.map_cons, List.nodup_cons] at distinct
      rcases List.mem_cons.mp member with first | later
      · subst entry
        simp [lookup]
      · have different : entry.1 ≠ key := by
          intro equal
          exact distinct.1 (equal ▸ List.mem_map_of_mem later)
        simp only [lookup, different, if_false]
        exact ih distinct.2 later

theorem eraseDups_eq_self {keys : List κ} (distinct : keys.Nodup) : keys.eraseDups = keys := by
  induction keys with
  | nil => rfl
  | cons key rest ih =>
      obtain ⟨fresh, later⟩ := List.nodup_cons.mp distinct
      have others : rest.filter (fun other => !other == key) = rest := by
        apply List.filter_eq_self.mpr
        intro other member
        have different : other ≠ key := fun same => fresh (same ▸ member)
        simpa using different
      rw [List.eraseDups_cons, others, ih later]

theorem put_of_not_mem {key : κ} (value : ν) {entries : List (κ × ν)}
    (fresh : key ∉ entries.map Prod.fst) :
    put key value entries = entries ++ [(key, value)] := by
  induction entries with
  | nil => rfl
  | cons entry rest ih =>
      simp only [List.map_cons, List.mem_cons, not_or] at fresh
      simp [put, Ne.symm fresh.1, ih fresh.2]

theorem mem_put {key : κ} {value : ν} {entries : List (κ × ν)} {entry : κ × ν}
    (member : entry ∈ put key value entries) : entry = (key, value) ∨ entry ∈ entries := by
  induction entries with
  | nil => exact .inl (List.mem_singleton.mp member)
  | cons head rest ih =>
      by_cases equal : head.1 = key
      · rw [put, if_pos equal, equal] at member
        rcases List.mem_cons.mp member with first | later
        · exact .inl first
        · exact .inr (List.mem_cons_of_mem _ later)
      · rw [put, if_neg equal] at member
        rcases List.mem_cons.mp member with first | later
        · exact .inr (first ▸ List.mem_cons_self)
        · exact (ih later).imp_right (List.mem_cons_of_mem _)

/-- The keys keep their order, and a new key comes last. -/
theorem map_fst_put (key : κ) (value : ν) (entries : List (κ × ν)) :
    (put key value entries).map Prod.fst =
      if key ∈ entries.map Prod.fst then entries.map Prod.fst
      else entries.map Prod.fst ++ [key] := by
  induction entries with
  | nil => rfl
  | cons entry rest ih =>
      by_cases equal : entry.1 = key
      · simp [put, equal]
      · have different : key ≠ entry.1 := Ne.symm equal
        simp only [put, equal, if_false, List.map_cons, ih, List.mem_cons, different, false_or]
        split <;> rfl

theorem nodup_map_fst_put (key : κ) (value : ν) {entries : List (κ × ν)}
    (distinct : (entries.map Prod.fst).Nodup) :
    ((put key value entries).map Prod.fst).Nodup := by
  rw [map_fst_put]
  split
  · exact distinct
  case isFalse fresh =>
    rw [List.nodup_append]
    exact ⟨distinct, List.nodup_singleton key, by
      intro other member last single equal
      exact fresh (List.mem_singleton.mp single ▸ equal ▸ member)⟩

/-- Pairs whose keys are new and distinct are added in their order. -/
theorem entries_foldl_insert (map : OrderedMap κ ν) (pairs : List (κ × ν))
    (distinct : ((map.entries ++ pairs).map Prod.fst).Nodup) :
    (pairs.foldl (fun map pair => map.insert pair.1 pair.2) map).entries =
      map.entries ++ pairs := by
  induction pairs generalizing map with
  | nil => simp
  | cons pair rest ih =>
      have fresh : pair.1 ∉ map.entries.map Prod.fst := by
        intro member
        rw [List.map_append, List.nodup_append] at distinct
        exact distinct.2.2 pair.1 member pair.1 (by simp) rfl
      have inserted : (map.insert pair.1 pair.2).entries = map.entries ++ [pair] :=
        put_of_not_mem pair.2 fresh
      rw [List.foldl_cons, ih, inserted, List.append_assoc, List.singleton_append]
      rw [inserted, List.append_assoc, List.singleton_append]
      exact distinct

theorem entries_ofList {pairs : List (κ × ν)} (distinct : (pairs.map Prod.fst).Nodup) :
    (ofList pairs).entries = pairs :=
  entries_foldl_insert empty pairs distinct

theorem put_append_cons {key : κ} (value previous : ν) {before : List (κ × ν)}
    (after : List (κ × ν)) (fresh : key ∉ before.map Prod.fst) :
    put key value (before ++ (key, previous) :: after) = before ++ (key, value) :: after := by
  induction before with
  | nil => simp [put]
  | cons entry rest ih =>
      simp only [List.map_cons, List.mem_cons, not_or] at fresh
      simp [put, Ne.symm fresh.1, ih fresh.2]

/-- Pairs that begin with the keys of some entries take the place of these,
and those with further keys follow. -/
theorem entries_foldl_insert_over (before replaced pairs : List (κ × ν))
    (leading : replaced.map Prod.fst <+: pairs.map Prod.fst)
    (distinct : ((before ++ pairs).map Prod.fst).Nodup) :
    (pairs.foldl (fun map pair => map.insert pair.1 pair.2)
      (⟨before ++ replaced⟩ : OrderedMap κ ν)).entries = before ++ pairs := by
  induction pairs generalizing before replaced with
  | nil =>
      have none : replaced = [] := by simpa using leading
      simp [none]
  | cons pair rest ih =>
      have fresh : pair.1 ∉ before.map Prod.fst := by
        intro member
        rw [List.map_append, List.nodup_append] at distinct
        exact distinct.2.2 pair.1 member pair.1 (by simp) rfl
      have later : ((before ++ [pair] ++ rest).map Prod.fst).Nodup := by simpa using distinct
      rw [List.foldl_cons]
      cases replaced with
      | nil =>
          have inserted : insert (⟨before ++ []⟩ : OrderedMap κ ν) pair.1 pair.2 =
              ⟨before ++ [pair] ++ []⟩ := by
            simp [insert, put_of_not_mem pair.2 fresh]
          rw [inserted, ih _ [] List.nil_prefix later, List.append_assoc, List.singleton_append]
      | cons first others =>
          rcases first with ⟨key, previous⟩
          obtain ⟨rfl, othersLeading⟩ := List.cons_prefix_cons.mp leading
          have inserted : insert (⟨before ++ (pair.1, previous) :: others⟩ : OrderedMap κ ν)
              pair.1 pair.2 = ⟨before ++ [pair] ++ others⟩ := by
            simp [insert, put_append_cons pair.2 previous others fresh]
          rw [inserted, ih _ others othersLeading later, List.append_assoc, List.singleton_append]

/-- New keys come behind those of a map, each once, in the order in which they
come first. -/
theorem keys_foldl_insert (map : OrderedMap κ ν) (pairs : List (κ × ν)) :
    (pairs.foldl (fun map pair => map.insert pair.1 pair.2) map).keys =
      map.keys ++ ((pairs.map Prod.fst).filter (· ∉ map.keys)).eraseDups := by
  induction pairs generalizing map with
  | nil => simp
  | cons pair rest ih =>
      have inserted : (map.insert pair.1 pair.2).keys =
          if pair.1 ∈ map.keys then map.keys else map.keys ++ [pair.1] :=
        map_fst_put pair.1 pair.2 map.entries
      rw [List.foldl_cons, ih, inserted, List.map_cons]
      split
      case isTrue old => rw [List.filter_cons_of_neg (by simpa using old)]
      case isFalse new =>
        rw [List.filter_cons_of_pos (by simpa using new), List.eraseDups_cons, List.filter_filter,
          List.append_assoc, List.singleton_append]
        congr 3
        apply List.filter_congr
        intro key _
        by_cases same : key = pair.1 <;> simp [same]

theorem keys_prefix_insert (map : OrderedMap κ ν) (key : κ) (value : ν) :
    map.keys <+: (map.insert key value).keys := by
  simp only [keys, insert, map_fst_put]
  split
  · exact List.prefix_rfl
  · exact List.prefix_append _ _

attribute [local simp] alter

theorem map_fst_alter (key : κ) (change : ν → ν) (entries : List (κ × ν)) :
    (alter key change entries).map Prod.fst = entries.map Prod.fst := by
  induction entries with
  | nil => rfl
  | cons entry rest ih =>
      by_cases equal : entry.1 = key
      · simp [equal]
      · simp [equal, ih]

/-- With distinct keys the one entry with the key is changed. -/
theorem alter_eq_map {key : κ} (change : ν → ν) {entries : List (κ × ν)}
    (distinct : (entries.map Prod.fst).Nodup) :
    alter key change entries =
      entries.map fun entry => if entry.1 = key then (entry.1, change entry.2) else entry := by
  induction entries with
  | nil => rfl
  | cons entry rest ih =>
      simp only [List.map_cons, List.nodup_cons] at distinct
      by_cases equal : entry.1 = key
      · have others : ∀ other ∈ rest, other.1 ≠ key := by
          intro other member same
          exact distinct.1 (equal ▸ same ▸ List.mem_map_of_mem member)
        have unchanged : rest.map (fun other =>
            if other.1 = key then (other.1, change other.2) else other) = rest :=
          (List.map_congr_left fun other member => if_neg (others other member)).trans
            (List.map_id _)
        simp only [alter, equal, if_true, List.map_cons, unchanged]
      · simp only [alter, equal, if_false, List.map_cons, ih distinct.2]

theorem lookup_alter (key other : κ) (change : ν → ν) (entries : List (κ × ν)) :
    lookup other (alter key change entries) =
      (lookup other entries).map fun value => if key = other then change value else value := by
  induction entries with
  | nil => rfl
  | cons entry rest ih =>
      by_cases equal : entry.1 = key
      · subst equal
        by_cases found : entry.1 = other <;> simp [lookup, found]
      · by_cases found : entry.1 = other
        · subst found
          simp [lookup, equal, Ne.symm equal]
        · simp [lookup, equal, found, ih]

end DesignLayout.OrderedMap
