import DesignLayout.Proofs.CodeLikeness
import DesignLayout.Proofs.ValueTokens

/-!
# What a rendering takes from its registry

Rendering one tree from two filed registries succeeds from both or from none,
and the codes are alike: what the registries hold decides what the tokens show,
and nothing else.  Equal tokens are said once, so this hangs on tokens being
equal just where their ids are, which filed registries grant.

So it makes no difference whether a table is there from the start or laid over
the result.
-/

namespace DesignLayout

open Registry

namespace Registering

variable {ε α β γ δ : Type}

/-- Where a run from a filed registry succeeds, so does another from any filed
registry.  The results are related, and the registries are filed again. -/
def Follows (related : α → β → Prop) (action : Registering ε α) (other : Registering ε β) :
    Prop :=
  ∀ ⦃registry after otherRegistry result⦄, registry.table.Filed → otherRegistry.table.Filed →
    action.Gives registry result after →
    after.table.Filed ∧ ∃ otherResult otherAfter, otherAfter.table.Filed ∧
      other.Gives otherRegistry otherResult otherAfter ∧ related result otherResult

variable {related : α → β → Prop} {later : γ → δ → Prop}

theorem follows_pure {value : α} {other : β} (holds : related value other) :
    Follows related (pure value : Registering ε α) (pure other) := by
  intro registry after otherRegistry result filed otherFiled gives
  obtain ⟨rfl, rfl⟩ := gives_pure.mp gives
  exact ⟨filed, other, otherRegistry, otherFiled, gives_pure.mpr ⟨rfl, rfl⟩, holds⟩

theorem follows_bind {action : Registering ε α} {other : Registering ε β}
    {next : α → Registering ε γ} {otherNext : β → Registering ε δ}
    (first : Follows related action other)
    (second : ∀ value otherValue, related value otherValue →
      Follows later (next value) (otherNext otherValue)) :
    Follows later (action >>= next) (other >>= otherNext) := by
  intro registry after otherRegistry result filed otherFiled gives
  obtain ⟨value, between, givesFirst, gives⟩ := gives_bind.mp gives
  obtain ⟨betweenFiled, otherValue, otherBetween, otherBetweenFiled, otherFirst, same⟩ :=
    first filed otherFiled givesFirst
  obtain ⟨afterFiled, otherResult, otherAfter, otherAfterFiled, otherSecond, alike⟩ :=
    second value otherValue same betweenFiled otherBetweenFiled gives
  exact ⟨afterFiled, otherResult, otherAfter, otherAfterFiled,
    gives_bind.mpr ⟨otherValue, otherBetween, otherFirst, otherSecond⟩, alike⟩

theorem follows_ofExcept (outcome : Except ε α) :
    Follows (· = ·) (ofExcept outcome) (ofExcept outcome) := by
  intro registry after otherRegistry result filed otherFiled gives
  obtain ⟨rfl, rfl⟩ := gives_ofExcept.mp gives
  exact ⟨filed, result, otherRegistry, otherFiled, gives_ofExcept.mpr ⟨rfl, rfl⟩, rfl⟩

/-- What holds of the result of any run holds of both results. -/
theorem Follows.holding {holds : α → Prop} {otherHolds : β → Prop} {action : Registering ε α}
    {other : Registering ε β} (follows : Follows related action other)
    (each : ∀ ⦃registry after result⦄, registry.table.Filed →
      action.Gives registry result after → holds result)
    (otherEach : ∀ ⦃registry after result⦄, registry.table.Filed →
      other.Gives registry result after → otherHolds result) :
    Follows (fun result otherResult => related result otherResult ∧ holds result ∧
      otherHolds otherResult) action other := by
  intro registry after otherRegistry result filed otherFiled gives
  obtain ⟨afterFiled, otherResult, otherAfter, otherAfterFiled, otherGives, same⟩ :=
    follows filed otherFiled gives
  exact ⟨afterFiled, otherResult, otherAfter, otherAfterFiled, otherGives, same,
    each filed gives, otherEach otherFiled otherGives⟩

/-- Where both runs succeed, their results are related. -/
theorem Follows.related_results {action : Registering ε α} {other : Registering ε β}
    {registry after otherRegistry otherAfter : Registry} {result : α} {otherResult : β}
    (follows : Follows related action other) (filed : registry.table.Filed)
    (otherFiled : otherRegistry.table.Filed) (gives : action.Gives registry result after)
    (otherGives : other.Gives otherRegistry otherResult otherAfter) :
    related result otherResult := by
  obtain ⟨-, given, givenAfter, -, givenGives, holds⟩ := follows filed otherFiled gives
  have same : (Except.ok given, givenAfter) = (Except.ok otherResult, otherAfter) :=
    givenGives.symm.trans otherGives
  cases same
  exact holds

end Registering

namespace Registry

/-- Storing a token gives one of its category and id. -/
theorem alike_store {registry after : Registry} {own token : Token}
    (filed : registry.table.Filed) (stores : registry.store own = (token, after)) :
    own.Alike token ∧ after.table.Filed := by
  unfold store at stores
  split at stores
  case h_1 present found =>
    cases stores
    obtain ⟨-, id, category⟩ := filed.of_get? found
    exact ⟨⟨category.symm, id.symm⟩, filed⟩
  case h_2 =>
    cases stores
    exact ⟨⟨rfl, rfl⟩, filed.insert own⟩

end Registry

namespace Source

open Registering

theorem follows_store (own : Token) :
    Follows Token.Alike (modifyGet fun registry => registry.store own : Rendering Token)
      (modifyGet fun registry => registry.store own) := by
  intro registry after otherRegistry token filed otherFiled gives
  obtain ⟨alike, afterFiled⟩ := alike_store filed (gives_modifyGet.mp gives)
  obtain ⟨otherAlike, otherAfterFiled⟩ := alike_store otherFiled rfl
  exact ⟨afterFiled, _, _, otherAfterFiled, gives_modifyGet.mpr rfl,
    alike.1.symm.trans otherAlike.1, alike.2.symm.trans otherAlike.2⟩

theorem follows_token? {α : Type} [ToPrimitive α] (category : Category)
    (property : Option (Property α)) :
    Follows TokensAlike (token? category property) (token? category property) := by
  cases property with
  | none => exact follows_pure .none
  | some property =>
      rw [token?, register]
      split
      · exact follows_pure .none
      · refine follows_bind (follows_ofExcept _) ?_
        rintro text _ rfl
        exact follows_bind (follows_store _) fun _ _ alike => follows_pure (.some alike)

section modifiers

theorem distinguished_of_stored {registry after : Registry} {tokens : List (Option Token)}
    (stored : Stored Primitive.source registry (tokens.flatMap Option.toList) after) :
    Distinguished tokens := by
  intro token other member otherMember alike
  have inside : ∀ {entry : Token}, some entry ∈ tokens →
      entry ∈ tokens.flatMap Option.toList :=
    fun member => List.mem_flatMap.mpr ⟨_, member, Option.mem_toList.mpr rfl⟩
  exact stored.eq_of_same_id (inside member) (inside otherMember) alike.1 alike.2

/-- A call is put together alike from like tokens of the sides of a rectangle,
since in either run tokens of one id are one token. -/
theorem follows_sides {σ : Type} {sides : σ → List (Option Token)} {register : Rendering σ}
    {call? : σ → Option Code}
    (alike : Follows (fun tokens others => List.Forall₂ TokensAlike (sides tokens) (sides others))
      register register)
    (stored : ∀ ⦃registry after : Registry⦄ ⦃tokens⦄, registry.table.Filed →
      register.Gives registry tokens after →
      Stored Primitive.source registry ((sides tokens).flatMap Option.toList) after)
    (call : ∀ tokens others, List.Forall₂ TokensAlike (sides tokens) (sides others) →
      Distinguished (sides tokens) → Distinguished (sides others) →
      Option.Rel Code.Alike (call? tokens) (call? others)) :
    Follows (Option.Rel Code.Alike) (register >>= fun tokens => pure (call? tokens))
      (register >>= fun tokens => pure (call? tokens)) := by
  have distinguished : ∀ ⦃registry after : Registry⦄ ⦃tokens⦄, registry.table.Filed →
      register.Gives registry tokens after → Distinguished (sides tokens) :=
    fun _ _ _ filed gives => distinguished_of_stored (stored filed gives)
  refine follows_bind (alike.holding distinguished distinguished) ?_
  rintro tokens others ⟨same, first, second⟩
  exact follows_pure (call tokens others same first second)

theorem follows_padding? (padding : Padding) :
    Follows (Option.Rel Code.Alike) (padding? padding) (padding? padding) := by
  rw [padding?_eq]
  refine follows_sides ?_ (fun _ _ _ => stored_edgeTokens) fun _ _ => alike_edgesCall?
  refine follows_bind (follows_token? _ _) fun _ _ left => ?_
  refine follows_bind (follows_token? _ _) fun _ _ top => ?_
  refine follows_bind (follows_token? _ _) fun _ _ right => ?_
  refine follows_bind (follows_token? _ _) fun _ _ bottom => ?_
  exact follows_pure (.cons left (.cons top (.cons right (.cons bottom .nil))))

theorem follows_shape? (shape : Shape) :
    Follows (Option.Rel Code.Alike) (shape? shape) (shape? shape) := by
  rw [shape?_eq]
  refine follows_sides ?_ (fun _ _ _ => stored_cornerTokens) fun _ _ => alike_cornersCall?
  refine follows_bind (follows_token? _ _) fun _ _ topLeft => ?_
  refine follows_bind (follows_token? _ _) fun _ _ topRight => ?_
  refine follows_bind (follows_token? _ _) fun _ _ bottomRight => ?_
  refine follows_bind (follows_token? _ _) fun _ _ bottomLeft => ?_
  exact follows_pure
    (.cons topLeft (.cons topRight (.cons bottomRight (.cons bottomLeft .nil))))

theorem follows_shapeArgument (label : Option String) (shape : Option Shape) :
    Follows (List.Forall₂ Argument.Alike) (shapeArgument label shape)
      (shapeArgument label shape) := by
  cases shape with
  | none => exact follows_pure .nil
  | some shape =>
      refine follows_bind (follows_shape? shape) fun _ _ call => follows_pure ?_
      cases call with
      | none => exact .nil
      | some alike => exact .cons ⟨rfl, alike⟩ .nil

theorem follows_modifier? (modifier : Modifier) :
    Follows (Option.Rel Code.Alike) (modifier? modifier) (modifier? modifier) := by
  cases modifier with
  | weight weight =>
      refine follows_bind (follows_ofExcept _) ?_
      rintro text _ rfl
      exact follows_pure (.some (Code.alike_refl _))
  | fillMax axis => cases axis <;> exact follows_pure (.some (Code.alike_refl _))
  | baseline => exact follows_pure (.some (Code.alike_refl _))
  | background color shape =>
      refine follows_bind (follows_token? _ _) fun _ _ color => ?_
      cases color with
      | none => exact follows_pure .none
      | some alike =>
          refine follows_bind (follows_shapeArgument _ _) fun _ _ rounding => follows_pure ?_
          exact .some (alike_call _ (.cons ⟨rfl, Code.alike_ofToken alike⟩ rounding))
  | border color shape width =>
      refine follows_bind (follows_token? _ _) fun _ _ color => ?_
      cases color with
      | none => exact follows_pure .none
      | some alike =>
          refine follows_bind (follows_token? _ _) fun token other line => ?_
          refine follows_bind (follows_shapeArgument _ _) fun _ _ rounding => follows_pure ?_
          have width : (token.elim (.ofText "Dp.Hairline") .ofToken : Code).Alike
              (other.elim (.ofText "Dp.Hairline") .ofToken) := by
            cases line with
            | none => exact Code.alike_refl _
            | some alike => exact Code.alike_ofToken alike
          exact .some (alike_call _ (.cons ⟨rfl, width⟩
            (.cons ⟨rfl, Code.alike_ofToken alike⟩ rounding)))
  | padding padding => exact follows_padding? padding
  | size axis value =>
      refine follows_bind (follows_token? _ _) fun _ _ token => follows_pure ?_
      cases token with
      | none => exact .none
      | some alike => exact .some (alike_call _ (.cons ⟨rfl, Code.alike_ofToken alike⟩ .nil))

end modifiers

section statements

variable {options : SourceOptions}

theorem follows_modifierCalls (modifiers : List Modifier) :
    Follows (List.Forall₂ Code.Alike) (modifierCalls modifiers) (modifierCalls modifiers) := by
  induction modifiers with
  | nil => exact follows_pure .nil
  | cons modifier rest ih =>
      refine follows_bind (follows_modifier? modifier) fun _ _ call => ?_
      refine follows_bind ih fun _ _ others => follows_pure ?_
      cases call with
      | none => exact others
      | some alike => exact .cons alike others

theorem follows_modifierParameter (depth : Nat) (modifiers : List Modifier) :
    Follows (List.Forall₂ Parameter.Alike) (modifierParameter options depth modifiers)
      (modifierParameter options depth modifiers) := by
  refine follows_bind (follows_modifierCalls modifiers) fun calls others alike => follows_pure ?_
  have empty : calls.isEmpty = others.isEmpty := by
    cases alike <;> rfl
  rw [empty]
  split
  · exact .nil
  · exact .cons ⟨rfl, alike_chained alike⟩ .nil

theorem follows_arrangementParameter {α : Type} (name : String) (placementName : α → String)
    (arrangement : Option (Arrangement α)) :
    Follows (List.Forall₂ Parameter.Alike) (arrangementParameter name placementName arrangement)
      (arrangementParameter name placementName arrangement) := by
  match arrangement with
  | none => exact follows_pure .nil
  | some (.placed placement) => exact follows_pure (alike_parameters _)
  | some (.spaced spacing) =>
      have call : Follows (Option.Rel Code.Alike) (spacing? spacing) (spacing? spacing) := by
        refine follows_bind (follows_token? _ _) fun _ _ token => follows_pure ?_
        cases token with
        | none => exact .none
        | some alike => exact .some (alike_call _ (.cons ⟨rfl, Code.alike_ofToken alike⟩ .nil))
      refine follows_bind call fun _ _ call => follows_pure ?_
      cases call with
      | none => exact .nil
      | some alike => exact .cons ⟨rfl, alike⟩ .nil

theorem follows_kindParameters (kind : LayoutKind) :
    Follows (List.Forall₂ Parameter.Alike) (kindParameters kind) (kindParameters kind) := by
  have appended : ∀ {first second others rest : List Parameter},
      List.Forall₂ Parameter.Alike first others → List.Forall₂ Parameter.Alike second rest →
      List.Forall₂ Parameter.Alike (first ++ second) (others ++ rest) :=
    fun first second => List.rel_append first second
  cases kind with
  | row arrangement alignment =>
      refine follows_bind (follows_arrangementParameter _ _ _) fun _ _ arranged => ?_
      exact follows_pure (appended arranged (alike_parameters _))
  | flowRow horizontal vertical =>
      refine follows_bind (follows_arrangementParameter _ _ _) fun _ _ across => ?_
      refine follows_bind (follows_arrangementParameter _ _ _) fun _ _ down => ?_
      exact follows_pure (appended across down)
  | column arrangement alignment =>
      refine follows_bind (follows_arrangementParameter _ _ _) fun _ _ arranged => ?_
      exact follows_pure (appended arranged (alike_parameters _))
  | box centered => exact follows_pure (alike_parameters _)
  | text content =>
      refine follows_bind (follows_token? _ _) fun _ _ style => ?_
      refine follows_bind (follows_token? _ _) fun _ _ color => follows_pure ?_
      have shown := appended (alike_tokenParameter "style" style)
        (alike_parameters (textParameter "text" (some (stringLiteral content.text))))
      have colored := appended shown (alike_tokenParameter "color" color)
      exact appended (appended (appended colored (alike_parameters _)) (alike_parameters _))
        (alike_parameters _)

mutual

theorem follows_statement : ∀ (node : Layout) (depth : Nat),
    Follows Code.Alike (statement options depth node) (statement options depth node)
  | ⟨name, modifiers, children, kind⟩, depth => by
      rw [statement]
      refine follows_bind (follows_modifierParameter depth modifiers) fun _ _ modifier => ?_
      refine follows_bind (follows_kindParameters kind) fun _ _ parameters => ?_
      have top := alike_header options depth name kind (List.rel_append modifier parameters)
      split
      case isTrue => exact follows_pure top
      case isFalse =>
        refine follows_bind (follows_statements children (depth + 1)) fun _ _ body => ?_
        refine follows_pure (top.append (Code.Alike.append ?_ (Code.alike_refl _)))
        split
        · exact Code.alike_refl _
        · exact body

/-- List counterpart of follows_statement. -/
theorem follows_statements : ∀ (nodes : List Layout) (depth : Nat),
    Follows Code.Alike (statements options depth nodes) (statements options depth nodes)
  | [], depth => by
      rw [statements]
      exact follows_pure .nil
  | node :: rest, depth => by
      rw [statements]
      refine follows_bind (follows_statement node depth) fun _ _ first => ?_
      refine follows_bind (follows_statements rest depth) fun _ _ others => ?_
      exact follows_pure (first.append others)

end

end statements

end Source

namespace Layout

variable {root : Layout} {options : SourceOptions} {registry other after freshAfter : Registry}
variable {code fresh : Code}

theorem follows_render (root : Layout) (options : SourceOptions) :
    Registering.Follows Code.Alike (root.render options) (root.render options) :=
  Source.follows_statement root 0

/-- A rendering stores under the tokens of its registry what it would store
alone. -/
theorem get?_render (filed : registry.table.Filed)
    (gives : (root.render options).Gives registry code after)
    (freshGives : (root.render options).Gives .empty fresh freshAfter) (category : Category)
    (id : Int32) :
    after.table.get? category id =
      (freshAfter.merge registry.table true).table.get? category id := by
  -- Which tokens a tree asks for does not depend on the registry.
  obtain ⟨owns, asks, rfl⟩ := (shows_render gives).takes
  obtain ⟨freshOwns, freshAsks, rfl⟩ := (shows_render freshGives).takes
  obtain rfl : owns = freshOwns := Except.ok.inj (asks.symm.trans freshAsks)
  have alone : (owns.foldl TokenTable.insertNew Registry.empty.table).get? category id =
      owns.find? fun token => token.category = category ∧ token.id = id := by
    rw [TokenTable.get?_foldl_insertNew, Registry.empty, TokenTable.get?_empty, Option.none_or]
  rw [Registry.merge, TokenTable.get?_merge filed, alone]
  exact TokenTable.get?_foldl_insertNew registry.table owns category id

/-- A rendering succeeds from every filed registry or from none, and two codes
of one tree are alike.  So a registry that is there from the start leads to the
same content, and to the same source text with the values of its tokens, as the
registry's table laid over a rendering by itself. -/
theorem render_alike (filed : registry.table.Filed) (otherFiled : other.table.Filed) :
    ((∃ code after, (root.render options).Gives registry code after) ↔
      ∃ code after, (root.render options).Gives other code after) ∧
    (∀ code after otherCode otherAfter, (root.render options).Gives registry code after →
      (root.render options).Gives other otherCode otherAfter → code.Alike otherCode) ∧
    ∀ code after fresh freshAfter, (root.render options).Gives registry code after →
      (root.render options).Gives .empty fresh freshAfter →
      let laid := (freshAfter.merge registry.table true).table
      after.table.agrees laid = true ∧
        code.sourceText after.table true = fresh.sourceText laid true := by
  have follows := follows_render root options
  refine ⟨?_, ?_, ?_⟩
  · constructor
    · rintro ⟨code, after, gives⟩
      obtain ⟨-, otherCode, otherAfter, -, otherGives, -⟩ := follows filed otherFiled gives
      exact ⟨otherCode, otherAfter, otherGives⟩
    · rintro ⟨otherCode, otherAfter, otherGives⟩
      obtain ⟨-, code, after, -, gives, -⟩ := follows otherFiled filed otherGives
      exact ⟨code, after, gives⟩
  · intro code after otherCode otherAfter gives otherGives
    exact follows.related_results filed otherFiled gives otherGives
  · intro code after fresh freshAfter gives freshGives laid
    have stored := stored_render filed gives
    have freshFiled : freshAfter.table.Filed :=
      (stored_render TokenTable.filed_empty freshGives).filed TokenTable.filed_empty
    have same := get?_render filed gives freshGives
    have alike : code.Alike fresh :=
      follows.related_results filed TokenTable.filed_empty gives freshGives
    constructor
    · exact TokenTable.agrees_of_get?_eq (stored.filed filed) (freshFiled.merge _) same
    · apply alike.sourceText_eq same
      intro token member
      have found : after.table.get? token.category token.id = some token :=
        stored.get?_of_mem member
      rw [found]
      rfl

/-- A registry that has another value for all four sides of a padding. -/
theorem render_alike_overridden : ∃ code after fresh freshAfter,
    (render ⟨"card", [.padding (.uniform (some (.own 16.0)))], [], .box false⟩ {}).Gives
      ⟨.ofList [Token.named .padding "16.dp" "20.dp"]⟩ code after ∧
    (render ⟨"card", [.padding (.uniform (some (.own 16.0)))], [], .box false⟩ {}).Gives
      .empty fresh freshAfter ∧
    code ≠ fresh ∧ code.Alike fresh ∧
    code.sourceText after.table true = fresh.sourceText
      (freshAfter.merge (.ofList [Token.named .padding "16.dp" "20.dp"]) true).table true := by
  have gives : (render ⟨"card", [.padding (.uniform (some (.own 16.0)))], [], .box false⟩ {}).Gives
      ⟨.ofList [Token.named .padding "16.dp" "20.dp"]⟩
      ⟨[.text "// card\nBox(\n    modifier = Modifier\n        .padding(",
        .token (Token.named .padding "16.dp" "20.dp"),
        .text "),\n) \x7b\n    // empty\n\x7d\n"]⟩
      ⟨.ofList [Token.named .padding "16.dp" "20.dp"]⟩ := by
    decide +kernel
  have freshGives : (render ⟨"card", [.padding (.uniform (some (.own 16.0)))], [],
      .box false⟩ {}).Gives .empty
      ⟨[.text "// card\nBox(\n    modifier = Modifier\n        .padding(",
        .token (Token.named .padding "16.dp" "16.dp"),
        .text "),\n) \x7b\n    // empty\n\x7d\n"]⟩
      ⟨.ofList [Token.named .padding "16.dp" "16.dp"]⟩ := by
    decide +kernel
  obtain ⟨-, alike, laid⟩ := render_alike (TokenTable.filed_ofList _) TokenTable.filed_empty
  exact ⟨_, _, _, _, gives, freshGives, by decide, alike _ _ _ _ gives freshGives,
    (laid _ _ _ _ gives freshGives).2⟩

end Layout

end DesignLayout
