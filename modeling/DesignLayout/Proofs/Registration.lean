import DesignLayout.Proofs.Filing
import DesignLayout.Token.Registry

/-!
# Runs that register tokens

A run that registers tokens is described by the tokens that it shows.  Each
is the token that the registry has under its id, or else it is new and put at
the end of its category.  What a registry holds after a run is decided by
this alone: showing a token again adds nothing, and tokens of different
categories can be shown in either order.
-/

namespace DesignLayout

namespace Registering

variable {ε α β : Type} {registry after : Registry}

/-- A run from a registry succeeds, and leaves a result and a registry. -/
def Gives (action : Registering ε α) (registry : Registry) (result : α) (after : Registry) :
    Prop :=
  Id.run (action.run.run registry) = (.ok result, after)

instance [DecidableEq α] (action : Registering ε α) (result : α) :
    Decidable (action.Gives registry result after) :=
  match run : Id.run (action.run.run registry) with
  | (.ok value, other) =>
    decidable_of_iff (value = result ∧ other = after) (by simp [Gives, run])
  | (.error _, _) => isFalse (by simp [Gives, run])

theorem gives_pure {value result : α} :
    (pure value : Registering ε α).Gives registry result after ↔
      value = result ∧ registry = after := by
  constructor
  · intro gives
    cases gives
    exact ⟨rfl, rfl⟩
  · intro given
    obtain ⟨rfl, rfl⟩ := given
    rfl

theorem run_bind (action : Registering ε α) (next : α → Registering ε β) (registry : Registry) :
    Id.run ((action >>= next).run.run registry) =
      match Id.run (action.run.run registry) with
      | (.ok value, between) => Id.run ((next value).run.run between)
      | (.error fault, between) => (.error fault, between) := by
  show (ExceptT.bindCont next (action.run.run registry).1).run (action.run.run registry).2 = _
  rcases action.run.run registry with ⟨result, between⟩
  cases result <;> rfl

theorem gives_bind {action : Registering ε α} {next : α → Registering ε β} {result : β} :
    (action >>= next).Gives registry result after ↔
      ∃ value between, action.Gives registry value between ∧
        (next value).Gives between result after := by
  unfold Gives
  rw [run_bind]
  rcases Id.run (action.run.run registry) with ⟨result, between⟩
  cases result with
  | ok value =>
      constructor
      · intro gives
        exact ⟨value, between, rfl, gives⟩
      · intro given
        obtain ⟨_, _, first, second⟩ := given
        cases first
        exact second
  | error fault =>
      constructor
      · intro gives
        cases gives
      · intro given
        obtain ⟨_, _, first, _⟩ := given
        cases first

theorem gives_ofExcept {outcome : Except ε α} {result : α} :
    (ofExcept outcome).Gives registry result after ↔
      outcome = .ok result ∧ registry = after :=
  Prod.mk.injEq .. ▸ Iff.rfl

theorem gives_modifyGet {change : Registry → α × Registry} {result : α} :
    (modifyGet change : Registering ε α).Gives registry result after ↔
      change registry = (result, after) := by
  constructor
  · intro gives
    cases gives
    rfl
  · intro changed
    have run : Id.run ((modifyGet change : Registering ε α).run.run registry) =
        (.ok (change registry).1, (change registry).2) := rfl
    rw [Gives, run, changed]

end Registering

namespace Registry

variable {ε : Type} {format : Primitive → Except ε String}
variable {registry between after : Registry}

/-- Showing tokens one after the other takes a registry to another.  A token
that is added has the text of a value. -/
inductive Stored (format : Primitive → Except ε String) :
    Registry → List Token → Registry → Prop where
  | nil {registry : Registry} : Stored format registry [] registry
  | present {registry after : Registry} {token : Token} {tokens : List Token} :
      registry.get? token.category token.id = some token →
      Stored format registry tokens after → Stored format registry (token :: tokens) after
  | added {registry after : Registry} {token : Token} {tokens : List Token}
      (value : Primitive) : registry.get? token.category token.id = none →
      format value = .ok token.value →
      Stored format ⟨registry.table.insert token⟩ tokens after →
      Stored format registry (token :: tokens) after

/-- The tokens of a category whose ids a registry does not have, each once,
in the order in which they come first. -/
def newTokens (registry : Registry) (category : Category) (tokens : List Token) : List Token :=
  (tokens.filter fun token =>
    token.category = category ∧ registry.get? category token.id = none).eraseDups

theorem get?_insert (registry : Registry) (token : Token) (category : Category) (id : Int32) :
    get? ⟨registry.table.insert token⟩ category id =
      if token.category = category ∧ token.id = id then some token
      else registry.get? category id :=
  TokenTable.get?_insert registry.table token category id

/-- A token that is new comes first among the new tokens, and none of the
others is the same. -/
theorem newTokens_cons {token : Token} {tokens : List Token} (category : Category)
    (absent : registry.get? token.category token.id = none)
    (alone : ∀ other ∈ tokens, other.category = token.category → other.id = token.id →
      other = token) :
    registry.newTokens category (token :: tokens) =
      (if token.category = category then [token] else []) ++
        newTokens ⟨registry.table.insert token⟩ category tokens := by
  unfold newTokens
  by_cases same : token.category = category
  · subst category
    rw [List.filter_cons_of_pos (by simp [absent]), List.eraseDups_cons, List.filter_filter,
      if_pos rfl, List.singleton_append]
    congr 2
    apply List.filter_congr
    intro other member
    rw [get?_insert]
    by_cases equal : other = token
    · subst other
      simp
    · by_cases sameCategory : other.category = token.category
      · have otherId : token.id ≠ other.id := by
          intro ids
          exact equal (alone other member sameCategory ids.symm)
        simp [equal, otherId]
      · simp [sameCategory]
  · rw [List.filter_cons_of_neg (by simp [same]), if_neg same, List.nil_append]
    congr 1
    apply List.filter_congr
    intro other _
    rw [get?_insert, if_neg fun both => same both.1]

namespace Stored

theorem get?_of_get? {tokens : List Token} (stored : Stored format registry tokens after)
    {category : Category} {id : Int32} {token : Token}
    (found : registry.get? category id = some token) : after.get? category id = some token := by
  induction stored with
  | nil => exact found
  | present _ _ ih => exact ih found
  | @added registry _ entry _ _ absent _ _ ih =>
      apply ih
      rw [get?_insert, if_neg, found]
      intro given
      obtain ⟨rfl, rfl⟩ := given
      rw [found] at absent
      cases absent

/-- Afterwards the registry has each token under its id. -/
theorem get?_of_mem {tokens : List Token} (stored : Stored format registry tokens after)
    {token : Token} (member : token ∈ tokens) :
    after.get? token.category token.id = some token := by
  induction stored with
  | nil => cases member
  | present found later ih =>
      rcases List.mem_cons.mp member with first | rest
      · subst first
        exact later.get?_of_get? found
      · exact ih rest
  | @added registry _ entry _ _ _ _ later ih =>
      rcases List.mem_cons.mp member with first | rest
      · subst first
        apply later.get?_of_get?
        rw [get?_insert, if_pos ⟨rfl, rfl⟩]
      · exact ih rest

theorem append {left right : List Token} (first : Stored format registry left between)
    (second : Stored format between right after) :
    Stored format registry (left ++ right) after := by
  induction first with
  | nil => exact second
  | present found _ ih => exact .present found (ih second)
  | added value absent written _ ih => exact .added value absent written (ih second)

theorem of_append {left right : List Token}
    (stored : Stored format registry (left ++ right) after) :
    ∃ between, Stored format registry left between ∧ Stored format between right after := by
  induction left generalizing registry with
  | nil => exact ⟨registry, .nil, stored⟩
  | cons token rest ih =>
      cases stored with
      | present found later =>
          obtain ⟨between, first, second⟩ := ih later
          exact ⟨between, .present found first, second⟩
      | added value absent written later =>
          obtain ⟨between, first, second⟩ := ih later
          exact ⟨between, .added value absent written first, second⟩

/-- Tokens that are there already add nothing. -/
theorem eq_of_present {tokens : List Token} (stored : Stored format registry tokens after)
    (present : ∀ token ∈ tokens, registry.get? token.category token.id = some token) :
    after = registry := by
  induction stored with
  | nil => rfl
  | present _ _ ih => exact ih fun token member => present token (List.mem_cons_of_mem _ member)
  | added _ absent _ _ _ =>
      rw [present _ List.mem_cons_self] at absent
      cases absent

/-- What is shown again at the end can be left out. -/
theorem of_append_subset {left right : List Token}
    (stored : Stored format registry (left ++ right) after) (repeated : right ⊆ left) :
    Stored format registry left after := by
  obtain ⟨between, first, second⟩ := stored.of_append
  have same : after = between := second.eq_of_present fun token member =>
    first.get?_of_mem (repeated member)
  exact same ▸ first

/-- Two tokens of different categories can be shown the other way round. -/
theorem swap {left right : Token} (stored : Stored format registry [left, right] after)
    (different : left.category ≠ right.category) :
    Stored format registry [right, left] after := by
  have apart : ∀ (first second : Token), first.category ≠ second.category →
      get? ⟨registry.table.insert first⟩ second.category second.id =
        registry.get? second.category second.id := by
    intro first second categories
    rw [get?_insert, if_neg fun same => categories same.1]
  have leftKept := apart right left different.symm
  have rightKept := apart left right different
  cases stored with
  | present leftFound later =>
      cases later with
      | present rightFound last =>
          cases last
          exact .present rightFound (.present leftFound .nil)
      | added value rightAbsent written last =>
          cases last
          exact .added value rightAbsent written (.present (leftKept.trans leftFound) .nil)
  | added value leftAbsent written later =>
      cases later with
      | present rightFound last =>
          cases last
          exact .present (rightKept ▸ rightFound) (.added value leftAbsent written .nil)
      | added other rightAbsent otherWritten last =>
          cases last
          rw [TokenTable.insert_comm registry.table different]
          exact .added other (rightKept ▸ rightAbsent) otherWritten
            (.added value (leftKept.trans leftAbsent) written .nil)

theorem filed {tokens : List Token} (stored : Stored format registry tokens after)
    (filed : registry.table.Filed) : after.table.Filed := by
  induction stored with
  | nil => exact filed
  | present _ _ ih => exact ih filed
  | added _ _ _ _ ih => exact ih (filed.insert _)

/-- Tokens of one category and id are one token. -/
theorem eq_of_same_id {tokens : List Token} (stored : Stored format registry tokens after)
    {left right : Token} (leftMember : left ∈ tokens) (rightMember : right ∈ tokens)
    (category : left.category = right.category) (id : left.id = right.id) : left = right := by
  have leftFound := stored.get?_of_mem leftMember
  have rightFound := stored.get?_of_mem rightMember
  rw [category, id, rightFound] at leftFound
  exact (Option.some.inj leftFound).symm

/-- Each category keeps its tokens and takes the new ones at its end. -/
theorem tokens_eq {tokens : List Token} (stored : Stored format registry tokens after)
    (category : Category) :
    after.table.tokens category =
      registry.table.tokens category ++ registry.newTokens category tokens := by
  induction stored with
  | nil => simp [newTokens]
  | @present registry _ token tokens found _ ih =>
      have old : registry.newTokens category (token :: tokens) =
          registry.newTokens category tokens := by
        rw [newTokens, List.filter_cons_of_neg, newTokens]
        simp only [decide_eq_true_eq]
        intro given
        obtain ⟨rfl, absent⟩ := given
        rw [found] at absent
        cases absent
      rw [ih, old]
  | @added registry _ token tokens value absent written later ih =>
      have whole : Stored format registry (token :: tokens) _ := .added value absent written later
      have alone : ∀ other ∈ tokens, other.category = token.category → other.id = token.id →
          other = token := by
        intro other member
        exact whole.eq_of_same_id (List.mem_cons_of_mem _ member) List.mem_cons_self
      rw [ih, TokenTable.tokens_insert_of_new absent, List.append_assoc,
        newTokens_cons category absent alone]

/-- A token that was not there before has the text of a value. -/
theorem written_of_mem {tokens : List Token} (stored : Stored format registry tokens after)
    {token : Token} (member : token ∈ tokens)
    (absent : registry.get? token.category token.id = none) :
    ∃ value, format value = .ok token.value := by
  induction stored with
  | nil => cases member
  | present found _ ih =>
      rcases List.mem_cons.mp member with first | rest
      · subst first
        rw [found] at absent
        cases absent
      · exact ih rest absent
  | @added registry _ entry tokens value entryAbsent written later ih =>
      -- The token may be the one that is added here, or wait for its turn.
      by_cases same : entry.category = token.category ∧ entry.id = token.id
      · have whole : Stored format registry (entry :: tokens) _ :=
          .added value entryAbsent written later
        have shown := whole.eq_of_same_id List.mem_cons_self member same.1 same.2
        exact ⟨value, shown ▸ written⟩
      · have later : token ∈ tokens :=
          (List.mem_cons.mp member).resolve_left fun first => same (first ▸ ⟨rfl, rfl⟩)
        exact ih later (by rw [get?_insert, if_neg same, absent])

end Stored

/-- Storing shows the token that was there, or adds the one that was not. -/
theorem stored_store {candidate token : Token} {value : Primitive}
    (filed : registry.table.Filed) (written : format value = .ok candidate.value)
    (stores : registry.store candidate = (token, after)) :
    Stored format registry [token] after ∧ token.category = candidate.category := by
  unfold store at stores
  split at stores
  case h_1 present found =>
      cases stores
      obtain ⟨-, id, category⟩ := filed.of_get? found
      refine ⟨.present ?_ .nil, category⟩
      rw [id, category, found]
  case h_2 absent =>
      cases stores
      exact ⟨.added value absent written .nil, rfl⟩

/-- Registering a value shows the token that it gives, if it gives one. -/
theorem stored_register {α : Type} [ToPrimitive α] {category : Category}
    {property : Option (Property α)} {token : Option Token} (filed : registry.table.Filed)
    (gives : (register format category property).Gives registry token after) :
    Stored format registry token.toList after ∧ ∀ entry ∈ token, entry.category = category := by
  cases property with
  | none =>
      obtain ⟨rfl, rfl⟩ := Registering.gives_pure.mp gives
      exact ⟨.nil, by simp⟩
  | some property =>
      rw [register] at gives
      split at gives
      case isTrue =>
        obtain ⟨rfl, rfl⟩ := Registering.gives_pure.mp gives
        exact ⟨.nil, by simp⟩
      case isFalse =>
        obtain ⟨text, _, formats, gives⟩ := Registering.gives_bind.mp gives
        obtain ⟨written, rfl⟩ := Registering.gives_ofExcept.mp formats
        obtain ⟨entry, _, stores, gives⟩ := Registering.gives_bind.mp gives
        obtain ⟨rfl, rfl⟩ := Registering.gives_pure.mp gives
        have candidate : (property.token category text).value = text ∧
            (property.token category text).category = category := by
          cases property <;> exact ⟨rfl, rfl⟩
        obtain ⟨stored, sameCategory⟩ := stored_store filed (candidate.1.symm ▸ written)
          (Registering.gives_modifyGet.mp stores)
        refine ⟨stored, ?_⟩
        intro other same
        cases same
        exact sameCategory.trans candidate.2

end Registry

end DesignLayout
