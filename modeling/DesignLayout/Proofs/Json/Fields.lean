import Mathlib
import DesignLayout.Json.Record

/-!
# Reading the fields of a record

A reader of named fields finds the value that is given once under a name, and
leaves all fields in place for the readers behind it.
-/

namespace DesignLayout.Json

variable {α β : Type} {fields : List (String × Json)} {result : α}

section fields

variable {name : String} {read : Json → Option α} {value : Json}

theorem run_field? (once : fields.filter (fun field => field.1 == name) = [(name, value)]) :
    (field? name).run (.named fields) = some (some value, .named fields) := by
  show Fields.take? name (.named fields) = _
  rw [Fields.take?, once]

theorem run_requiredField (once : fields.filter (fun field => field.1 == name) = [(name, value)])
    (reads : read value = some result) :
    (requiredField name read).run (.named fields) = some (result, .named fields) := by
  rw [requiredField, StateT.run_bind, run_field? once, Option.bind_eq_bind, Option.bind_some]
  simp [reads]

theorem run_requiredField_bind {next : α → FieldReader β}
    (once : fields.filter (fun field => field.1 == name) = [(name, value)])
    (reads : read value = some result) :
    (requiredField name read >>= next).run (.named fields) =
      (next result).run (.named fields) := by
  rw [StateT.run_bind, run_requiredField once reads, Option.bind_eq_bind, Option.bind_some]

theorem run_defaultedField_bind {default : α} {next : α → FieldReader β}
    (once : fields.filter (fun field => field.1 == name) = [(name, value)])
    (reads : read value = some result) :
    (defaultedField name default read >>= next).run (.named fields) =
      (next result).run (.named fields) := by
  rw [defaultedField, bind_assoc, StateT.run_bind, run_field? once, Option.bind_eq_bind,
    Option.bind_some]
  simp [reads]

theorem run_optionalField_bind {given : Option α} {next : Option α → FieldReader β}
    (once : fields.filter (fun field => field.1 == name) = [(name, value)])
    (reads : nullable read value = some given) :
    (optionalField name read >>= next).run (.named fields) =
      (next given).run (.named fields) := by
  rw [optionalField, bind_assoc, StateT.run_bind, run_field? once, Option.bind_eq_bind,
    Option.bind_some]
  simp [reads]

end fields

theorem record?_obj {read : FieldReader α}
    (reads : read.run (.named fields) = some (result, .named fields)) :
    record? read (.obj fields) = some result := by
  simp [record?, reads, Fields.isFinished]

theorem uint32?_toNat (number : UInt32) : uint32? (.int number.toNat) = some number := by
  have bounds : (0 : Int) ≤ number.toNat ∧ (number.toNat : Int) < UInt32.size :=
    ⟨Int.natCast_nonneg _, Int.ofNat_lt.mpr number.toNat_lt_size⟩
  simp only [uint32?, bounds, and_self, if_true, Int.toNat_natCast, UInt32.ofNat_toNat]

theorem float?_float {number : Float} (finite : finiteNumber number = true) :
    float? (.float number) = some number := by
  rw [float?, finite?, if_pos finite]

/-- A value that is readable throughout, and read as a result. -/
structure ReadAs (read : Json → Option α) (value : Json) (result : α) : Prop where
  readable : value.isReadable = true
  reads : read value = some result

namespace ReadAs

variable {read : Json → Option α} {value : Json}

theorem whole (readAs : ReadAs read value result) : ReadAs (whole? read) value result where
  readable := readAs.readable
  reads := by rw [whole?, if_pos readAs.readable, readAs.reads]

theorem list {write : α → Json} {items : List α}
    (readAs : ∀ item ∈ items, ReadAs read (write item) item) :
    ReadAs (list? read) (.arr (items.map write)) items := by
  have readable : readableItems (items.map write) = true ∧
      (items.map write).mapM read = some items := by
    induction items with
    | nil => exact ⟨rfl, rfl⟩
    | cons item rest ih =>
        have first := readAs item List.mem_cons_self
        obtain ⟨restReadable, restReads⟩ :=
          ih fun other member => readAs other (List.mem_cons_of_mem _ member)
        constructor
        · rw [List.map_cons, readableItems, first.readable, restReadable]
          rfl
        · rw [List.map_cons, List.mapM_cons, first.reads, restReads]
          rfl
  exact ⟨by rw [isReadable, readable.1], by rw [list?, readable.2]⟩

end ReadAs

/-- The kind of a record that names it first. -/
theorem tagged?_obj {tag kind : String} {kinds : List String} {numbered : Bool}
    (untagged : fields.filter (fun field => field.1 == tag) = []) :
    tagged? tag kinds numbered (.obj ((tag, .str kind) :: fields)) = some (kind, .obj fields) := by
  have others : fields.filter (fun field => field.1 != tag) = fields := by
    apply List.filter_eq_self.mpr
    intro field member
    have different := List.filter_eq_nil_iff.mp untagged field member
    rwa [Bool.not_eq_true, ← Bool.not_eq_true'] at different
  simp [tagged?, untagged, kindAt?, others]

end DesignLayout.Json
