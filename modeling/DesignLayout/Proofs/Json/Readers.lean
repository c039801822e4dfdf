import DesignLayout.Proofs.Json.Fields

/-!
# What readers give

Whatever a reader makes of a value has a property where whatever the readers of
its parts make of theirs has it.  All numbers that are read are finite.
-/

namespace DesignLayout.Json

variable {α β : Type}

/-- Whatever is read from a value has a property. -/
def Reads (read : Json → Option α) (property : α → Prop) : Prop :=
  ∀ value result, read value = some result → property result

namespace FieldReader

/-- Whatever is read from fields has a property. -/
def Reads (reader : FieldReader α) (property : α → Prop) : Prop :=
  ∀ fields result rest, reader.run fields = some (result, rest) → property result

variable {reader : FieldReader α} {property : α → Prop}

theorem reads_any : Reads reader fun _ => True :=
  fun _ _ _ _ => trivial

theorem reads_pure {result : α} (holds : property result) : Reads (pure result) property := by
  intro fields other rest given
  cases given
  exact holds

theorem reads_bind {next : α → FieldReader β} {later : β → Prop} (first : Reads reader property)
    (second : ∀ value, property value → Reads (next value) later) :
    Reads (reader >>= next) later := by
  intro fields result rest given
  rw [StateT.run_bind] at given
  obtain ⟨⟨value, between⟩, read, given⟩ := Option.bind_eq_some_iff.mp given
  exact second value (first fields value between read) between result rest given

section fields

variable {name : String} {read : Json → Option α}

theorem reads_lift {result : Option α} (holds : ∀ value ∈ result, property value) :
    Reads (liftM result) property := by
  intro fields value rest given
  obtain ⟨found, same, given⟩ := Option.bind_eq_some_iff.mp given
  cases given
  exact holds value same

theorem reads_requiredField (reads : Json.Reads read property) :
    Reads (requiredField name read) property := by
  refine reads_bind reads_any fun found _ => ?_
  cases found with
  | none =>
      intro fields value rest given
      cases given
  | some value => exact reads_lift fun result given => reads value result given

theorem reads_defaultedField {default : α} (unsaid : property default)
    (reads : Json.Reads read property) : Reads (defaultedField name default read) property := by
  refine reads_bind reads_any fun found _ => ?_
  cases found with
  | none => exact reads_pure unsaid
  | some value => exact reads_lift fun result given => reads value result given

end fields

end FieldReader

/-- The results of a list are those of its items. -/
theorem exists_of_mem_mapM {items : List β} {results : List α} {read : β → Option α}
    (given : items.mapM read = some results) :
    ∀ result ∈ results, ∃ item ∈ items, read item = some result := by
  induction items generalizing results with
  | nil =>
      cases given
      simp
  | cons item rest ih =>
      rw [List.mapM_cons] at given
      obtain ⟨first, firstRead, given⟩ := Option.bind_eq_some_iff.mp given
      obtain ⟨others, othersRead, given⟩ := Option.bind_eq_some_iff.mp given
      cases given
      intro result member
      rcases List.mem_cons.mp member with rfl | later
      · exact ⟨item, List.mem_cons_self, firstRead⟩
      · obtain ⟨other, otherMember, otherRead⟩ := ih othersRead result later
        exact ⟨other, List.mem_cons_of_mem _ otherMember, otherRead⟩

namespace Reads

variable {read : Json → Option α} {property : α → Prop}

theorem nullable (reads : Reads read property) :
    Reads (nullable read) fun result => ∀ value ∈ result, property value := by
  intro value result given
  cases value with
  | null =>
      cases given
      simp
  | _ =>
      obtain ⟨inner, found, rfl⟩ := Option.map_eq_some_iff.mp given
      intro other same
      cases same
      exact reads _ _ found

theorem optionalField {name : String} (reads : Reads read property) :
    FieldReader.Reads (optionalField name read) fun result => ∀ value ∈ result, property value := by
  refine FieldReader.reads_bind FieldReader.reads_any fun found _ => ?_
  cases found with
  | none =>
      refine FieldReader.reads_bind FieldReader.reads_any fun fields _ => ?_
      split
      · exact FieldReader.reads_pure (by simp)
      · intro fields value rest given
        cases given
  | some value => exact FieldReader.reads_lift fun result given => reads.nullable value result given

theorem record {reader : FieldReader α} (reads : FieldReader.Reads reader property) :
    Reads (record? reader) property := by
  have finish : ∀ fields result,
      ((reader.run fields).bind fun read =>
        (guard read.2.isFinished : Option Unit).bind fun _ => some read.1) = some result →
      property result := by
    intro fields result given
    obtain ⟨⟨found, rest⟩, read, given⟩ := Option.bind_eq_some_iff.mp given
    obtain ⟨_, -, given⟩ := Option.bind_eq_some_iff.mp given
    cases given
    exact reads fields found rest read
  intro value result given
  cases value with
  | obj fields => exact finish (.named fields) result given
  | arr items => exact finish (.listed items) result given
  | _ => cases given

theorem list (reads : Reads read property) :
    Reads (list? read) fun results => ∀ result ∈ results, property result := by
  intro value results given
  cases value with
  | arr items =>
      intro result member
      obtain ⟨item, -, read⟩ := exists_of_mem_mapM given result member
      exact reads item result read
  | _ => cases given

theorem whole (reads : Reads read property) : Reads (whole? read) property := by
  intro value result given
  rw [whole?] at given
  split at given
  · exact reads value result given
  · cases given

end Reads

theorem reads_float? : Reads float? fun number => finiteNumber number = true := by
  have finite : ∀ {number result : Float}, finite? number = some result →
      finiteNumber result = true := by
    intro number result given
    rw [finite?] at given
    split at given
    case isTrue holds =>
      cases given
      exact holds
    case isFalse => cases given
  intro value result given
  cases value with
  | int number => exact finite given
  | float number => exact finite given
  | _ => cases given

end DesignLayout.Json
