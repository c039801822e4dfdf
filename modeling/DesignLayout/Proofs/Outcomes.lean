import Mathlib

/-!
# Outcomes of computations that may fail

A list of computations succeeds if each of them does, and fails if one of
them does.
-/

namespace DesignLayout

variable {α β ε : Type}

theorem exists_of_bind {first : Except ε α} {next : α → Except ε β}
    {result : β} (written : first >>= next = .ok result) :
    ∃ value, first = .ok value ∧ next value = .ok result := by
  cases first with
  | ok value => exact ⟨value, rfl, written⟩
  | error fault => cases written

/-- The fault of a computation that fails. -/
def faultOf? : Except ε α → Option ε
  | .ok _ => none
  | .error fault => some fault

/-- A computation after another fails where the first does, or else where it
does itself. -/
theorem faultOf?_bind {first : Except ε α} {next : α → Except ε β} {fault : Option ε}
    (later : ∀ value, faultOf? (next value) = fault) :
    faultOf? (first >>= next) = (faultOf? first).or fault := by
  cases first with
  | ok value => exact later value
  | error earlier => rfl

theorem faultOf?_bind_pure (first : Except ε α) (result : α → β) :
    faultOf? (first >>= fun value => pure (result value)) = faultOf? first := by
  cases first <;> rfl

/-- A list of computations fails at the first of their faults, in the order of the
list. -/
theorem faultOf?_mapM {read : α → Except ε β} {faults : α → List ε}
    (each : ∀ item, faultOf? (read item) = (faults item).head?) (items : List α) :
    faultOf? (items.mapM read) = (items.flatMap faults).head? := by
  induction items with
  | nil => rfl
  | cons item items ih =>
      rw [List.mapM_cons, List.flatMap_cons, List.head?_append, ← each item]
      apply faultOf?_bind
      intro result
      rw [faultOf?_bind_pure]
      exact ih

theorem faultOf?_eq_none_iff {outcome : Except ε α} :
    faultOf? outcome = none ↔ ∃ value, outcome = .ok value := by
  cases outcome <;> simp [faultOf?]

theorem faultOf?_eq_some_iff {outcome : Except ε α} {fault : ε} :
    faultOf? outcome = some fault ↔ outcome = .error fault := by
  cases outcome <;> simp [faultOf?]

theorem mapM_eq_ok {read : α → Except ε β} {result : α → β}
    {items : List α} (each : ∀ item ∈ items, read item = .ok (result item)) :
    items.mapM read = .ok (items.map result) := by
  induction items with
  | nil => rfl
  | cons item items ih =>
      have first := each item List.mem_cons_self
      have later := ih fun other member => each other (List.mem_cons_of_mem _ member)
      rw [List.mapM_cons, first, later]
      rfl

/-- Results that keep a trait of their items keep the list of the traits. -/
theorem map_eq_of_mapM_eq_ok {γ : Type} {read : α → Except ε β} {trait : α → γ} {kept : β → γ}
    (keeps : ∀ item result, read item = .ok result → kept result = trait item)
    {items : List α} {results : List β} (succeeds : items.mapM read = .ok results) :
    results.map kept = items.map trait := by
  induction items generalizing results with
  | nil =>
      cases succeeds
      rfl
  | cons item items ih =>
      rw [List.mapM_cons] at succeeds
      obtain ⟨first, firstRead, succeeds⟩ := exists_of_bind succeeds
      obtain ⟨others, othersRead, succeeds⟩ := exists_of_bind succeeds
      cases succeeds
      rw [List.map_cons, List.map_cons, keeps item first firstRead, ih othersRead]

/-- The results of a list that succeeds are those of its items. -/
theorem mem_of_mapM_eq_ok {read : α → Except ε β} {items : List α} {results : List β}
    (succeeds : items.mapM read = .ok results) :
    (∀ item ∈ items, ∃ result ∈ results, read item = .ok result) ∧
      ∀ result ∈ results, ∃ item ∈ items, read item = .ok result := by
  induction items generalizing results with
  | nil =>
      cases succeeds
      simp
  | cons first items ih =>
      rw [List.mapM_cons] at succeeds
      obtain ⟨firstResult, firstRead, succeeds⟩ := exists_of_bind succeeds
      obtain ⟨others, othersRead, succeeds⟩ := exists_of_bind succeeds
      cases succeeds
      obtain ⟨forward, backward⟩ := ih othersRead
      constructor
      · intro item member
        rcases List.mem_cons.mp member with rfl | later
        · exact ⟨firstResult, List.mem_cons_self, firstRead⟩
        · obtain ⟨result, resultMember, itemRead⟩ := forward item later
          exact ⟨result, List.mem_cons_of_mem _ resultMember, itemRead⟩
      · intro result member
        rcases List.mem_cons.mp member with rfl | later
        · exact ⟨first, List.mem_cons_self, firstRead⟩
        · obtain ⟨item, itemMember, itemRead⟩ := backward result later
          exact ⟨item, List.mem_cons_of_mem _ itemMember, itemRead⟩

theorem mapM_eq_error {read : α → Except ε β} {item : α}
    {items : List α} (member : item ∈ items) (fails : ∃ error, read item = .error error) :
    ∃ error, items.mapM read = .error error := by
  induction items with
  | nil => cases member
  | cons first items ih =>
      rw [List.mapM_cons]
      cases firstResult : read first with
      | error error => exact ⟨error, rfl⟩
      | ok value =>
          have later : item ∈ items := by
            rcases List.mem_cons.mp member with equal | later
            · obtain ⟨error, failed⟩ := fails
              rw [equal, firstResult] at failed
              cases failed
            · exact later
          obtain ⟨error, failed⟩ := ih later
          exact ⟨error, by rw [failed]; rfl⟩

end DesignLayout
