import DesignLayout.Proofs.Layering
import DesignLayout.Proofs.Registration
import DesignLayout.Token.Config

/-!
# What the tokens of a table have in common

A trait that every token has which comes into a table stays with all tokens of
the table.  Tables that are laid over each other keep what their tokens have in
common, and so does a table whose values change, if the trait does not look at
values.  Configs and registrations bring in no tokens but those that go by
their names.
-/

namespace DesignLayout

namespace TokenTable

/-- A filed table whose tokens all have a trait. -/
structure FiledWith (trait : Token → Prop) (table : TokenTable) : Prop where
  filed : table.Filed
  all : ∀ token ∈ table.toList, trait token

variable {trait : Token → Prop} {table other : TokenTable}

theorem not_mem_toList_empty {token : Token} : token ∉ empty.toList := by
  intro member
  obtain ⟨category, inside⟩ := mem_toList.mp member
  cases category <;> cases inside

theorem filedWith_empty : empty.FiledWith trait where
  filed := filed_empty
  all := fun _ member => absurd member not_mem_toList_empty

theorem filedWith_ofList {tokens : List Token} (each : ∀ token ∈ tokens, trait token) :
    (ofList tokens).FiledWith trait where
  filed := filed_ofList tokens
  all := by
    intro token member
    rcases mem_toList_foldl_insert member with given | none
    · exact each token given
    · exact absurd none not_mem_toList_empty

namespace FiledWith

theorem insert (has : table.FiledWith trait) {token : Token} (own : trait token) :
    (table.insert token).FiledWith trait where
  filed := has.filed.insert token
  all := by
    intro entry member
    rcases mem_toList_insert member with rfl | old
    · exact own
    · exact has.all entry old

theorem merge (has : table.FiledWith trait) (otherHas : other.FiledWith trait)
    (overwrite : Bool) : (table.merge other overwrite).FiledWith trait := by
  cases overwrite with
  | true =>
      refine ⟨has.filed.foldl_insert other.toList, fun token member => ?_⟩
      rcases mem_toList_foldl_insert member with laid | under
      · exact otherHas.all token laid
      · exact has.all token under
  | false =>
      refine ⟨has.filed.foldl_insertNew other.toList, fun token member => ?_⟩
      rcases mem_toList_foldl_insertNew member with laid | under
      · exact otherHas.all token laid
      · exact has.all token under

theorem revalue (has : table.FiledWith trait) {value : String}
    (kept : ∀ token, trait token → trait { token with value }) (category : Category)
    (id : Int32) : (table.revalue category id value).FiledWith trait where
  filed := has.filed.revalue
  all := by
    intro token member
    obtain ⟨place, inside⟩ := mem_toList.mp member
    rw [tokens_revalue has.filed] at inside
    obtain ⟨original, originalMember, rfl⟩ := List.mem_map.mp inside
    have before := has.all original (mem_toList.mpr ⟨place, originalMember⟩)
    split
    · exact kept original before
    · exact before

end FiledWith

section config

variable {text : String}

theorem exists_named_of_mem_tokens {sections : ConfigSections} {token : Token}
    (member : token ∈ sections.tokens) :
    ∃ category name value, token = Token.named category name value := by
  obtain ⟨entries, -, inside⟩ := List.mem_flatMap.mp member
  obtain ⟨entry, -, rfl⟩ := List.mem_map.mp inside
  exact ⟨entries.1, entry.1, entry.2, rfl⟩

theorem filedWith_ofConfig
    (named : ∀ category name value, trait (Token.named category name value))
    (loads : ofConfig text = .ok table) : table.FiledWith trait := by
  rw [ofConfig] at loads
  cases checked : readConfig text with
  | error fault =>
      rw [checked] at loads
      cases loads
  | ok sections =>
      rw [checked] at loads
      obtain rfl := Except.ok.inj loads
      apply filedWith_ofList
      intro token member
      obtain ⟨category, name, value, rfl⟩ := exists_named_of_mem_tokens member
      exact named category name value

theorem filedWith_ofConfigOrEmpty
    (named : ∀ category name value, trait (Token.named category name value)) (text : String) :
    (ofConfigOrEmpty text).FiledWith trait := by
  unfold ofConfigOrEmpty
  split
  case h_1 table loads => exact filedWith_ofConfig named loads
  case h_2 => exact filedWith_empty

end config

end TokenTable

namespace Registry

variable {ε α : Type} [ToPrimitive α] {trait : Token → Prop} {registry : Registry}

theorem filedWith_store (has : registry.table.FiledWith trait) {token : Token}
    (own : trait token) : (registry.store token).2.table.FiledWith trait := by
  unfold store
  split
  · exact has
  · exact has.insert own

/-- Registering brings in a token that goes by its name, or nothing.  This holds
of a registration that fails as well. -/
theorem filedWith_register (has : registry.table.FiledWith trait)
    (named : ∀ category name value, trait (Token.named category name value))
    (format : Primitive → Except ε String) (category : Category)
    (property : Option (Property α)) :
    (Id.run ((register format category property).run.run registry)).2.table.FiledWith trait := by
  cases property with
  | none => exact has
  | some property =>
      rw [register]
      split
      · exact has
      · rw [Registering.run_bind]
        cases format property.toPrimitive with
        | error fault => exact has
        | ok text =>
            have own : trait (property.token category text) := by
              cases property <;> exact named category _ _
            exact filedWith_store has own

end Registry

end DesignLayout
