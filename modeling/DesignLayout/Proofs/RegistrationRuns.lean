import DesignLayout.Proofs.Layering
import DesignLayout.Proofs.ValueTokens

/-!
# Runs of registrations

Each registration in a run starts from the registry that the ones before it
leave.  One that asks for a token gets the token that stands under its id, its
own if none stood there before, and no later registration changes what it got.
One that asks for nothing and one that fails leave the registry as it is.
-/

namespace DesignLayout

/-- The name under which a property is registered: that of its link, or else the
text of its value. -/
def Property.registeredName {α : Type} (property : Property α) (text : String) : String :=
  (property.link?.map TokenLink.name).getD text

theorem Property.token_eq {α : Type} (property : Property α) (category : Category)
    (text : String) :
    property.token category text = .named category (property.registeredName text) text := by
  cases property <;> rfl

/-- A property to be registered, and how its value is written. -/
structure Registration (ε : Type) : Type 1 where
  {α : Type}
  [toPrimitive : ToPrimitive α]
  format : Primitive → Except ε String
  category : Category
  property : Option (Property α)

attribute [instance] Registration.toPrimitive

namespace Registration

variable {ε : Type}

/-- Nothing is there to be registered, or a blank value. -/
def IsBlank (registration : Registration ε) : Prop :=
  ∀ property ∈ registration.property, property.isBlank = true

/-- The token that a registration asks for, if it asks for one and its value can
be written. -/
def asked? (registration : Registration ε) : Option Token := do
  let property ← registration.property.filter fun property => !property.isBlank
  let text ← (registration.format property.toPrimitive).toOption
  return property.token registration.category text

end Registration

namespace Registry

variable {ε : Type}

/-- What a registration gives from a registry, and the registry that it leaves. -/
def call (registry : Registry) (registration : Registration ε) :
    Except ε (Option Token) × Registry :=
  Id.run ((register registration.format registration.category
    registration.property).run.run registry)

/-- The registry after some registrations. -/
def run (registry : Registry) (registrations : List (Registration ε)) : Registry :=
  registrations.foldl (fun before registration => (before.call registration).2) registry

end Registry

/-- The first token of each id. -/
def firstOfEachId : List Token → List Token
  | [] => []
  | token :: rest => token :: (firstOfEachId rest).filter fun other => other.id ≠ token.id

theorem firstOfEachId_eq_self {tokens : List Token} (distinct : (tokens.map Token.id).Nodup) :
    firstOfEachId tokens = tokens := by
  induction tokens with
  | nil => rfl
  | cons token rest ih =>
      obtain ⟨fresh, later⟩ := List.nodup_cons.mp distinct
      rw [firstOfEachId, ih later, List.filter_eq_self.mpr]
      intro other member
      have different : other.id ≠ token.id :=
        fun same => fresh (same ▸ List.mem_map_of_mem member)
      exact decide_eq_true different

theorem filter_firstOfEachId (holds : Int32 → Bool) (tokens : List Token) :
    (firstOfEachId tokens).filter (fun token => holds token.id) =
      firstOfEachId (tokens.filter fun token => holds token.id) := by
  induction tokens with
  | nil => rfl
  | cons token rest ih =>
      rw [firstOfEachId, List.filter_cons, List.filter_cons]
      split
      case isTrue held =>
        rw [firstOfEachId, ← ih, List.filter_filter, List.filter_filter]
        simp only [Bool.and_comm]
      case isFalse dropped =>
        rw [← ih, List.filter_filter]
        apply List.filter_congr
        intro other _
        by_cases same : other.id = token.id
        · simp [same, dropped]
        · simp [same]

namespace TokenTable

variable {table : TokenTable}

/-- Tokens that are stored unless their ids are taken come behind those of the
table, the first of each new id. -/
theorem tokens_foldl_insertNew (table : TokenTable) (tokens : List Token) (category : Category) :
    (tokens.foldl insertNew table).tokens category =
      table.tokens category ++ firstOfEachId (tokens.filter fun token =>
        token.category = category ∧ table.get? category token.id = none) := by
  induction tokens generalizing table with
  | nil => simp [firstOfEachId]
  | cons token rest ih =>
      rw [List.foldl_cons, ih, insertNew_eq]
      split
      case isTrue present =>
        rw [List.filter_cons_of_neg]
        intro new
        obtain ⟨rfl, absent⟩ := of_decide_eq_true new
        rw [absent] at present
        cases present
      case isFalse absent =>
        have new := Option.not_isSome_iff_eq_none.mp absent
        rw [tokens_insert_of_new new]
        by_cases same : token.category = category
        · subst category
          rw [if_pos rfl, List.filter_cons_of_pos (by simp [new]), firstOfEachId,
            filter_firstOfEachId fun id => id ≠ token.id, List.filter_filter, List.append_assoc,
            List.singleton_append]
          congr 3
          apply List.filter_congr
          intro other _
          rw [get?_insert]
          by_cases sameId : token.id = other.id
          · simp [sameId]
          · simp [sameId, Ne.symm sameId]
        · rw [if_neg same, List.append_nil, List.filter_cons_of_neg (by simp [same])]
          congr 2
          apply List.filter_congr
          intro other _
          rw [get?_insert, if_neg fun both => same both.1]

end TokenTable

namespace Registry

variable {ε : Type} {registration : Registration ε} {property : Property registration.α}

theorem call_of_isBlank (registry : Registry) (blank : registration.IsBlank) :
    registry.call registration = (.ok none, registry) ∧ registration.asked? = none := by
  obtain ⟨format, category, given⟩ := registration
  cases given with
  | none => exact ⟨rfl, rfl⟩
  | some property =>
      have isBlank : property.isBlank = true := blank property rfl
      exact ⟨by rw [call, register, if_pos isBlank]; rfl, by simp [Registration.asked?, isBlank]⟩

theorem call_of_error (registry : Registry) (given : registration.property = some property)
    (shows : property.isBlank = false) {fault : ε}
    (fails : registration.format property.toPrimitive = .error fault) :
    registry.call registration = (.error fault, registry) ∧ registration.asked? = none := by
  constructor
  · rw [call, given, register, if_neg (by simp [shows]), Registering.run_bind, fails]
    rfl
  · rw [Registration.asked?, given, Option.filter_some, shows]
    show (registration.format property.toPrimitive).toOption.bind _ = _
    rw [fails]
    rfl

theorem call_of_ok (registry : Registry) (given : registration.property = some property)
    (shows : property.isBlank = false) {text : String}
    (written : registration.format property.toPrimitive = .ok text) :
    let stored := registry.store (property.token registration.category text)
    registry.call registration = (.ok (some stored.1), stored.2) ∧
      registration.asked? = some (property.token registration.category text) := by
  constructor
  · rw [call, given, register, if_neg (by simp [shows]), Registering.run_bind, written]
    rfl
  · rw [Registration.asked?, given, Option.filter_some, shows]
    show (registration.format property.toPrimitive).toOption.bind _ = _
    rw [written]
    rfl

/-- A registration stores the token for which it asks, unless its id is taken. -/
theorem call_registry (registry : Registry) (registration : Registration ε) :
    (registry.call registration).2 =
      ⟨registration.asked?.toList.foldl TokenTable.insertNew registry.table⟩ := by
  by_cases blank : registration.IsBlank
  · obtain ⟨called, asked⟩ := registry.call_of_isBlank blank
    rw [called, asked]
    rfl
  · simp only [Registration.IsBlank, not_forall, Bool.not_eq_true] at blank
    obtain ⟨property, given, shows⟩ := blank
    cases written : registration.format property.toPrimitive with
    | error fault =>
        obtain ⟨called, asked⟩ := registry.call_of_error given shows written
        rw [called, asked]
        rfl
    | ok text =>
        obtain ⟨called, asked⟩ := registry.call_of_ok given shows written
        rw [called, asked]
        exact (store_eq rfl).1

theorem run_eq (registry : Registry) (registrations : List (Registration ε)) :
    registry.run registrations =
      ⟨(registrations.filterMap Registration.asked?).foldl TokenTable.insertNew
        registry.table⟩ := by
  induction registrations generalizing registry with
  | nil => rfl
  | cons first rest ih =>
      rw [run, List.foldl_cons, ← run, ih, call_registry]
      cases asked : first.asked? with
      | none => rw [List.filterMap_cons_none asked]; rfl
      | some token => rw [List.filterMap_cons_some asked]; rfl

/-- What is under an id stays there. -/
theorem get?_run (registry : Registry) (registrations : List (Registration ε))
    {category : Category} {id : Int32} {token : Token}
    (found : registry.get? category id = some token) :
    (registry.run registrations).get? category id = some token := by
  rw [run_eq, get?, TokenTable.get?_foldl_insertNew]
  rw [get?] at found
  rw [found, Option.some_or]

/-- After a run each category has what it had, and behind it the first token of
each new id for which a registration asked.  A registration whose value can be
written gives the token that is found in the end under the id of its name.  One
of nothing or of a blank value gives nothing, one whose value cannot be written
fails, and both leave the registry as it was. -/
theorem run_firstOfEachId (registry : Registry) (registrations : List (Registration ε)) :
    (∀ category, (registry.run registrations).table.tokens category =
      registry.table.tokens category ++
        firstOfEachId ((registrations.filterMap Registration.asked?).filter fun token =>
          token.category = category ∧ registry.get? category token.id = none)) ∧
    ∀ earlier registration later, registrations = earlier ++ registration :: later →
      let before := registry.run earlier
      (registration.IsBlank → before.call registration = (.ok none, before)) ∧
      ∀ property, registration.property = some property → property.isBlank = false →
        (∀ fault, registration.format property.toPrimitive = .error fault →
          before.call registration = (.error fault, before)) ∧
        ∀ text, registration.format property.toPrimitive = .ok text → ∃ token,
          (before.call registration).1 = .ok (some token) ∧
          (registry.run registrations).get? registration.category
            (tokenId (property.registeredName text)) = some token := by
  constructor
  · intro category
    rw [run_eq]
    exact TokenTable.tokens_foldl_insertNew registry.table _ category
  · intro earlier registration later split before
    refine ⟨fun blank => (before.call_of_isBlank blank).1, ?_⟩
    intro property given shows
    refine ⟨fun fault fails => (before.call_of_error given shows fails).1, ?_⟩
    intro text written
    obtain ⟨called, -⟩ := before.call_of_ok given shows written
    refine ⟨_, congrArg Prod.fst called, ?_⟩
    have storing : before.store (property.token registration.category text) =
      (_, (before.store (property.token registration.category text)).2) := rfl
    have stored := (store_eq storing).2
    have after : registry.run registrations = (before.call registration).2.run later := by
      rw [split]
      exact List.foldl_append
    rw [after, called]
    rw [Property.token_eq] at stored ⊢
    exact get?_run _ later stored

/-- A link whose id is taken, a zero and a failure add nothing to the padding
that is there, and of two registrations under one name the first stays. -/
theorem run_firstOfEachId_taken :
    let registry : Registry := ⟨.ofList [.named .padding "Aa" "4.dp"]⟩
    let registrations : List (Registration Unit) := [
      ⟨fun _ => .ok "2.dp", .padding, some (.linked ⟨"V:1", "BB", 2.0⟩)⟩,
      ⟨fun _ => .error (), .padding, some (.own 0.0)⟩,
      ⟨fun _ => .error (), .color, some (.own 3.0)⟩,
      ⟨fun _ => .ok "8.dp", .shape, some (.own 8.0)⟩,
      ⟨fun _ => .ok "9.dp", .shape, some (.linked ⟨"V:2", "8.dp", 9.0⟩)⟩,
      ⟨fun _ => .ok "6.dp", .padding, some (.own 6.0)⟩]
    (registry.run registrations).table.tokens .padding =
      [.named .padding "Aa" "4.dp", .named .padding "6.dp" "6.dp"] ∧
    (registry.run registrations).table.tokens .color = [] ∧
    (registry.run registrations).table.tokens .shape = [.named .shape "8.dp" "8.dp"] ∧
    ∃ token,
      ((registry.run (registrations.take 4)).call
        (⟨fun _ => .ok "9.dp", .shape, some (.linked ⟨"V:2", "8.dp", 9.0⟩)⟩ :
          Registration Unit)).1 = .ok (some token) ∧
      (registry.run registrations).get? .shape (tokenId "8.dp") = some token := by
  intro registry registrations
  obtain ⟨listed, each⟩ := run_firstOfEachId registry registrations
  refine ⟨(listed .padding).trans ?_, (listed .color).trans ?_, (listed .shape).trans ?_, ?_⟩
  · decide
  · decide
  · decide
  · exact ((each (registrations.take 4) _ _ rfl).2 _ rfl rfl).2 "9.dp" rfl

end Registry

end DesignLayout
