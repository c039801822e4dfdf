import DesignLayout.Proofs.CodeJoining
import DesignLayout.Proofs.Registration
import DesignLayout.Source.Statement

/-!
# Source text agrees with its registry

Every value that a renderer registers is shown in the code it gives, so the
registry after a rendering is told by the tokens of the code.  Values are not
shown in the order in which they are registered, and equal tokens at the
sides of a rectangle are shown once.
-/

namespace DesignLayout

open Registering Registry

namespace Source

variable {registry after : Registry}

theorem stored_token? {α : Type} [ToPrimitive α] {category : Category}
    {property : Option (Property α)} {token : Option Token} (filed : registry.table.Filed)
    (gives : (token? category property).Gives registry token after) :
    Stored Primitive.source registry token.toList after ∧
      ∀ entry ∈ token, entry.category = category :=
  stored_register filed gives

/-- Registering one value more shows its token last. -/
theorem stored_append_token? {α : Type} [ToPrimitive α] {between : Registry}
    {category : Category} {property : Option (Property α)} {tokens : List Token}
    {token : Option Token} (stored : Stored Primitive.source registry tokens between)
    (filed : registry.table.Filed)
    (gives : (token? category property).Gives between token after) :
    Stored Primitive.source registry (tokens ++ token.toList) after :=
  stored.append (stored_token? (stored.filed filed) gives).1

section calls

theorem tokens_labelled (argument : Argument) :
    (labelled argument).tokens = argument.value.tokens := by
  unfold labelled
  split <;> simp

theorem tokens_argumentList (arguments : List Argument) :
    (argumentList arguments).tokens = arguments.flatMap (·.value.tokens) := by
  fun_induction argumentList arguments with
  | case1 => rfl
  | case2 argument => simp [tokens_labelled]
  | case3 argument rest _ ih => simp [tokens_labelled, ih]

@[simp] theorem tokens_call (name : String) (arguments : List Argument) :
    (call name arguments).tokens = arguments.flatMap (·.value.tokens) := by
  simp [call, tokens_argumentList]

@[simp] theorem tokens_tokenArguments (arguments : List (Option String × Option Token)) :
    (tokenArguments arguments).flatMap (·.value.tokens) =
      arguments.flatMap (·.2.toList) := by
  induction arguments with
  | nil => rfl
  | cons argument rest ih =>
      rcases argument with ⟨label, token⟩
      unfold tokenArguments at ih ⊢
      cases token with
      | none => simpa using ih
      | some token => simpa using ih

theorem flatMap_toList_of_blank {tokens : List (Option Token)}
    (blank : tokens.all Option.isNone = true) : tokens.flatMap Option.toList = [] := by
  apply List.flatMap_eq_nil_iff.mpr
  intro token member
  rw [Option.isNone_iff_eq_none.mp (List.all_eq_true.mp blank token member)]
  rfl

/-- The sides of a padding are registered all, and equal ones shown once. -/
theorem stored_edgesCall? {tokens : Edges (Option Token)}
    (stored : Stored Primitive.source registry (tokens.toList.flatMap Option.toList) after) :
    Stored Primitive.source registry ((edgesCall? tokens).toList.flatMap Code.tokens) after := by
  unfold edgesCall?
  split
  case isTrue blank =>
    rw [flatMap_toList_of_blank blank] at stored
    exact stored
  case isFalse =>
    simp only [Edges.toList, List.flatMap_cons, List.flatMap_nil, List.append_nil] at stored
    unfold paddingArguments
    split
    case isTrue alike =>
      obtain ⟨-, top, right, bottom⟩ := alike
      rw [← top, ← right, ← bottom] at stored
      simpa using stored.of_append_subset (by simp)
    case isFalse =>
      split
      case isTrue pairs =>
        rw [← pairs.1, ← pairs.2, ← List.append_assoc] at stored
        simpa using stored.of_append_subset (by simp)
      case isFalse => simpa using stored

theorem stored_cornersCall? {tokens : Corners (Option Token)}
    (stored : Stored Primitive.source registry (tokens.toList.flatMap Option.toList) after) :
    Stored Primitive.source registry ((cornersCall? tokens).toList.flatMap Code.tokens) after := by
  unfold cornersCall?
  split
  case isTrue blank =>
    rw [flatMap_toList_of_blank blank] at stored
    exact stored
  case isFalse =>
    simp only [Corners.toList, List.flatMap_cons, List.flatMap_nil, List.append_nil] at stored
    unfold shapeArguments
    split
    case isTrue alike =>
      obtain ⟨-, topRight, bottomRight, bottomLeft⟩ := alike
      rw [← topRight, ← bottomRight, ← bottomLeft] at stored
      simpa using stored.of_append_subset (by simp)
    case isFalse => simpa using stored

end calls

section sides

/-- Registers the values at the edges of a padding. -/
def edgeTokens (padding : Padding) : Rendering (Edges (Option Token)) := do
  let left ← token? .padding padding.left
  let top ← token? .padding padding.top
  let right ← token? .padding padding.right
  let bottom ← token? .padding padding.bottom
  return ⟨left, top, right, bottom⟩

/-- Registers the values at the corners of a shape. -/
def cornerTokens (shape : Shape) : Rendering (Corners (Option Token)) := do
  let topLeft ← token? .shape (some shape.topLeft)
  let topRight ← token? .shape (some shape.topRight)
  let bottomRight ← token? .shape (some shape.bottomRight)
  let bottomLeft ← token? .shape (some shape.bottomLeft)
  return ⟨topLeft, topRight, bottomRight, bottomLeft⟩

theorem padding?_eq (padding : Padding) :
    padding? padding = edgeTokens padding >>= fun tokens => pure (edgesCall? tokens) := by
  simp only [padding?, edgeTokens, bind_assoc, pure_bind]

theorem shape?_eq (shape : Shape) :
    shape? shape = cornerTokens shape >>= fun tokens => pure (cornersCall? tokens) := by
  simp only [shape?, cornerTokens, bind_assoc, pure_bind]

theorem stored_edgeTokens {padding : Padding} {tokens : Edges (Option Token)}
    (filed : registry.table.Filed) (gives : (edgeTokens padding).Gives registry tokens after) :
    Stored Primitive.source registry (tokens.toList.flatMap Option.toList) after := by
  obtain ⟨left, _, givesLeft, gives⟩ := gives_bind.mp gives
  obtain ⟨top, _, givesTop, gives⟩ := gives_bind.mp gives
  obtain ⟨right, _, givesRight, gives⟩ := gives_bind.mp gives
  obtain ⟨bottom, _, givesBottom, gives⟩ := gives_bind.mp gives
  obtain ⟨rfl, rfl⟩ := gives_pure.mp gives
  have one := (stored_token? filed givesLeft).1
  have two := stored_append_token? one filed givesTop
  have three := stored_append_token? two filed givesRight
  have four := stored_append_token? three filed givesBottom
  simpa [Edges.toList] using four

theorem stored_cornerTokens {shape : Shape} {tokens : Corners (Option Token)}
    (filed : registry.table.Filed) (gives : (cornerTokens shape).Gives registry tokens after) :
    Stored Primitive.source registry (tokens.toList.flatMap Option.toList) after := by
  obtain ⟨topLeft, _, givesTopLeft, gives⟩ := gives_bind.mp gives
  obtain ⟨topRight, _, givesTopRight, gives⟩ := gives_bind.mp gives
  obtain ⟨bottomRight, _, givesBottomRight, gives⟩ := gives_bind.mp gives
  obtain ⟨bottomLeft, _, givesBottomLeft, gives⟩ := gives_bind.mp gives
  obtain ⟨rfl, rfl⟩ := gives_pure.mp gives
  have one := (stored_token? filed givesTopLeft).1
  have two := stored_append_token? one filed givesTopRight
  have three := stored_append_token? two filed givesBottomRight
  have four := stored_append_token? three filed givesBottomLeft
  simpa [Corners.toList] using four

end sides

section modifiers

variable {call : Option Code}

theorem stored_padding? {padding : Padding} (filed : registry.table.Filed)
    (gives : (padding? padding).Gives registry call after) :
    Stored Primitive.source registry (call.toList.flatMap Code.tokens) after := by
  rw [padding?_eq] at gives
  obtain ⟨tokens, _, givesTokens, gives⟩ := gives_bind.mp gives
  obtain ⟨rfl, rfl⟩ := gives_pure.mp gives
  exact stored_edgesCall? (stored_edgeTokens filed givesTokens)

theorem stored_shape? {shape : Shape} (filed : registry.table.Filed)
    (gives : (shape? shape).Gives registry call after) :
    Stored Primitive.source registry (call.toList.flatMap Code.tokens) after := by
  rw [shape?_eq] at gives
  obtain ⟨tokens, _, givesTokens, gives⟩ := gives_bind.mp gives
  obtain ⟨rfl, rfl⟩ := gives_pure.mp gives
  exact stored_cornersCall? (stored_cornerTokens filed givesTokens)

theorem stored_shapeArgument {label : Option String} {shape : Option Shape}
    {arguments : List Argument} (filed : registry.table.Filed)
    (gives : (shapeArgument label shape).Gives registry arguments after) :
    Stored Primitive.source registry (arguments.flatMap (·.value.tokens)) after := by
  cases shape with
  | none =>
      obtain ⟨rfl, rfl⟩ := gives_pure.mp gives
      exact .nil
  | some shape =>
      obtain ⟨call, _, givesShape, gives⟩ := gives_bind.mp gives
      obtain ⟨rfl, rfl⟩ := gives_pure.mp gives
      simpa [List.flatMap_map] using stored_shape? filed givesShape

theorem stored_spacing? {spacing : Dimension} (filed : registry.table.Filed)
    (gives : (spacing? spacing).Gives registry call after) :
    Stored Primitive.source registry (call.toList.flatMap Code.tokens) after := by
  obtain ⟨token, _, givesToken, gives⟩ := gives_bind.mp gives
  obtain ⟨rfl, rfl⟩ := gives_pure.mp gives
  have stored := (stored_token? filed givesToken).1
  cases token <;> simpa using stored

/-- What a modifier registers it shows; a border shows its width before the
color that it registers first. -/
theorem stored_modifier? {modifier : Modifier} (filed : registry.table.Filed)
    (gives : (modifier? modifier).Gives registry call after) :
    Stored Primitive.source registry (call.toList.flatMap Code.tokens) after := by
  cases modifier with
  | weight weight =>
      obtain ⟨text, _, written, gives⟩ := gives_bind.mp gives
      obtain ⟨-, rfl⟩ := gives_ofExcept.mp written
      obtain ⟨rfl, rfl⟩ := gives_pure.mp gives
      simpa using Stored.nil
  | fillMax axis =>
      cases axis <;>
      · obtain ⟨rfl, rfl⟩ := gives_pure.mp gives
        simpa using Stored.nil
  | baseline =>
      obtain ⟨rfl, rfl⟩ := gives_pure.mp gives
      simpa using Stored.nil
  | background color shape =>
      obtain ⟨color, _, givesColor, gives⟩ := gives_bind.mp gives
      have stored := (stored_token? filed givesColor).1
      cases color with
      | none =>
          obtain ⟨rfl, rfl⟩ := gives_pure.mp gives
          exact stored
      | some color =>
          obtain ⟨shape, _, givesShape, gives⟩ := gives_bind.mp gives
          obtain ⟨rfl, rfl⟩ := gives_pure.mp gives
          simpa using stored.append (stored_shapeArgument (stored.filed filed) givesShape)
  | border color shape width =>
      obtain ⟨color, _, givesColor, gives⟩ := gives_bind.mp gives
      obtain ⟨stored, colorCategory⟩ := stored_token? filed givesColor
      cases color with
      | none =>
          obtain ⟨rfl, rfl⟩ := gives_pure.mp gives
          exact stored
      | some color =>
          obtain ⟨width, _, givesWidth, gives⟩ := gives_bind.mp gives
          obtain ⟨shape, _, givesShape, gives⟩ := gives_bind.mp gives
          obtain ⟨rfl, rfl⟩ := gives_pure.mp gives
          obtain ⟨storedWidth, widthCategory⟩ := stored_token? (stored.filed filed) givesWidth
          have both := stored.append storedWidth
          have storedShape := stored_shapeArgument (both.filed filed) givesShape
          cases width with
          | none => simpa using both.append storedShape
          | some width =>
              -- The color is registered before the width and shown after it.
              have different : color.category ≠ width.category := by
                rw [colorCategory color rfl, widthCategory width rfl]
                decide
              simpa using (both.swap different).append storedShape
  | padding padding => exact stored_padding? filed gives
  | size axis value =>
      obtain ⟨token, _, givesToken, gives⟩ := gives_bind.mp gives
      obtain ⟨rfl, rfl⟩ := gives_pure.mp gives
      have stored := (stored_token? filed givesToken).1
      cases token <;> simpa using stored

end modifiers

section statements

variable {options : SourceOptions} {depth : Nat}

theorem stored_modifierCalls {modifiers : List Modifier} {calls : List Code}
    (filed : registry.table.Filed)
    (gives : (modifierCalls modifiers).Gives registry calls after) :
    Stored Primitive.source registry (calls.flatMap Code.tokens) after := by
  induction modifiers generalizing registry calls with
  | nil =>
      obtain ⟨rfl, rfl⟩ := gives_pure.mp gives
      exact .nil
  | cons modifier rest ih =>
      obtain ⟨call, _, givesCall, gives⟩ := gives_bind.mp gives
      obtain ⟨others, _, givesOthers, gives⟩ := gives_bind.mp gives
      obtain ⟨rfl, rfl⟩ := gives_pure.mp gives
      have stored := stored_modifier? filed givesCall
      rw [List.flatMap_append]
      exact stored.append (ih (stored.filed filed) givesOthers)

@[simp] theorem tokens_chained (calls : List Code) :
    (chained options depth calls).tokens = calls.flatMap Code.tokens := by
  simp [chained, List.flatMap_map]

theorem stored_modifierParameter {modifiers : List Modifier} {parameters : List Parameter}
    (filed : registry.table.Filed)
    (gives : (modifierParameter options depth modifiers).Gives registry parameters after) :
    Stored Primitive.source registry (parameters.flatMap (·.value.tokens)) after := by
  obtain ⟨calls, _, givesCalls, gives⟩ := gives_bind.mp gives
  obtain ⟨rfl, rfl⟩ := gives_pure.mp gives
  have stored := stored_modifierCalls filed givesCalls
  cases calls with
  | nil => exact stored
  | cons call rest => simpa using stored

theorem stored_arrangementParameter {α : Type} {name : String} {placementName : α → String}
    {arrangement : Option (Arrangement α)} {parameters : List Parameter}
    (filed : registry.table.Filed)
    (gives : (arrangementParameter name placementName arrangement).Gives
      registry parameters after) :
    Stored Primitive.source registry (parameters.flatMap (·.value.tokens)) after := by
  match arrangement with
  | none =>
      obtain ⟨rfl, rfl⟩ := gives_pure.mp gives
      exact .nil
  | some (.placed placement) =>
      obtain ⟨rfl, rfl⟩ := gives_pure.mp gives
      simpa using Stored.nil
  | some (.spaced spacing) =>
      obtain ⟨call, _, givesCall, gives⟩ := gives_bind.mp gives
      obtain ⟨rfl, rfl⟩ := gives_pure.mp gives
      simpa [List.flatMap_map] using stored_spacing? filed givesCall

@[simp] theorem tokens_textParameter (name : String) (text : Option String) :
    (textParameter name text).flatMap (·.value.tokens) = [] := by
  cases text <;> simp [textParameter]

@[simp] theorem tokens_tokenParameter (name : String) (token : Option Token) :
    (tokenParameter name token).flatMap (·.value.tokens) = token.toList := by
  cases token <;> simp [tokenParameter]

theorem stored_kindParameters {kind : LayoutKind} {parameters : List Parameter}
    (filed : registry.table.Filed)
    (gives : (kindParameters kind).Gives registry parameters after) :
    Stored Primitive.source registry (parameters.flatMap (·.value.tokens)) after := by
  cases kind with
  | row arrangement alignment =>
      obtain ⟨arranged, _, givesArranged, gives⟩ := gives_bind.mp gives
      obtain ⟨rfl, rfl⟩ := gives_pure.mp gives
      simpa using stored_arrangementParameter filed givesArranged
  | flowRow horizontal vertical =>
      obtain ⟨across, _, givesAcross, gives⟩ := gives_bind.mp gives
      obtain ⟨down, _, givesDown, gives⟩ := gives_bind.mp gives
      obtain ⟨rfl, rfl⟩ := gives_pure.mp gives
      have stored := stored_arrangementParameter filed givesAcross
      simpa using stored.append (stored_arrangementParameter (stored.filed filed) givesDown)
  | column arrangement alignment =>
      obtain ⟨arranged, _, givesArranged, gives⟩ := gives_bind.mp gives
      obtain ⟨rfl, rfl⟩ := gives_pure.mp gives
      simpa using stored_arrangementParameter filed givesArranged
  | box centered =>
      obtain ⟨rfl, rfl⟩ := gives_pure.mp gives
      simpa using Stored.nil
  | text content =>
      obtain ⟨style, _, givesStyle, gives⟩ := gives_bind.mp gives
      obtain ⟨color, _, givesColor, gives⟩ := gives_bind.mp gives
      obtain ⟨rfl, rfl⟩ := gives_pure.mp gives
      have stored := (stored_token? filed givesStyle).1
      simpa using stored_append_token? stored filed givesColor

@[simp] theorem tokens_header (name : String) (kind : LayoutKind) (parameters : List Parameter) :
    (header options depth name kind parameters).tokens =
      parameters.flatMap (·.value.tokens) := by
  have lines : ∀ parameter, (parameterLine options depth parameter).tokens =
      parameter.value.tokens := by
    intro parameter
    simp [parameterLine]
  unfold header
  split
  case isTrue plain =>
    have none : parameters = [] := by simp_all
    simp [none]
  case isFalse => simp [List.flatMap_map, lines]

mutual

theorem stored_statement {registry after : Registry} {depth : Nat} {code : Code}
    (filed : registry.table.Filed) : ∀ {node : Layout},
    (statement options depth node).Gives registry code after →
    Stored Primitive.source registry code.tokens after
  | ⟨name, modifiers, children, kind⟩, gives => by
      rw [statement] at gives
      obtain ⟨modifier, _, givesModifier, gives⟩ := gives_bind.mp gives
      obtain ⟨parameters, _, givesParameters, gives⟩ := gives_bind.mp gives
      have first := stored_modifierParameter filed givesModifier
      have second := stored_kindParameters (first.filed filed) givesParameters
      have both := first.append second
      split at gives
      case isTrue =>
        obtain ⟨rfl, rfl⟩ := gives_pure.mp gives
        simpa using both
      case isFalse =>
        obtain ⟨body, _, givesBody, gives⟩ := gives_bind.mp gives
        obtain ⟨rfl, rfl⟩ := gives_pure.mp gives
        have third := stored_statements (both.filed filed) givesBody
        split
        case isTrue childless =>
          rw [List.isEmpty_iff.mp childless, statements] at givesBody
          obtain ⟨rfl, rfl⟩ := gives_pure.mp givesBody
          simpa [emptyBody, footer] using both
        case isFalse => simpa [footer] using both.append third

/-- List counterpart of stored_statement. -/
theorem stored_statements {registry after : Registry} {depth : Nat} {code : Code}
    (filed : registry.table.Filed) : ∀ {nodes : List Layout},
    (statements options depth nodes).Gives registry code after →
    Stored Primitive.source registry code.tokens after
  | [], gives => by
      rw [statements] at gives
      obtain ⟨rfl, rfl⟩ := gives_pure.mp gives
      exact .nil
  | node :: rest, gives => by
      rw [statements] at gives
      obtain ⟨first, _, givesFirst, gives⟩ := gives_bind.mp gives
      obtain ⟨others, _, givesOthers, gives⟩ := gives_bind.mp gives
      obtain ⟨rfl, rfl⟩ := gives_pure.mp gives
      have stored := stored_statement filed givesFirst
      simpa using stored.append (stored_statements (stored.filed filed) givesOthers)

end

end statements

end Source

namespace Layout

variable {root : Layout} {options : SourceOptions} {registry after : Registry} {code : Code}

theorem stored_render (filed : registry.table.Filed)
    (gives : (root.render options).Gives registry code after) :
    Stored Primitive.source registry code.tokens after :=
  Source.stored_statement filed gives

/-- A rendering leaves every token of the registry where it was and adds the
tokens of the code that are new, each once, in the order in which they first
appear.  Each token of the code is the one that the registry then has, so
showing the values of the registry shows the values that were written. -/
theorem render_agrees (filed : registry.table.Filed)
    (gives : (root.render options).Gives registry code after) :
    (∀ category, after.table.tokens category =
      registry.table.tokens category ++ registry.newTokens category code.tokens) ∧
    (∀ category, ((after.table.tokens category).map Token.id).Nodup) ∧
    (∀ category id token, registry.get? category id = some token →
      after.get? category id = some token) ∧
    (∀ token ∈ code.tokens, after.get? token.category token.id = some token) ∧
    code.sourceText after.table true = code.plainText := by
  have stored := stored_render filed gives
  have found : ∀ token ∈ code.tokens, after.get? token.category token.id = some token :=
    fun token member => stored.get?_of_mem member
  refine ⟨stored.tokens_eq, (stored.filed filed).ids_nodup, ?_, found, ?_⟩
  · intro category id token present
    exact stored.get?_of_get? present
  · apply Code.displayWith_congr
    intro token member
    have entry : after.table.get? token.category token.id = some token := found token member
    simp [Code.display, entry]

/-- A border shows its width before its color, and the registry has another
value for the width. -/
theorem render_agrees_border : ∃ code after,
    (render ⟨"card", [.border (.own .black) none (some (.own 4.0))],
      [⟨"label", [.padding (.uniform (some (.own 8.0)))], [], .box true⟩], .box false⟩ {}).Gives
      ⟨.ofList [Token.named .padding "4.dp" "5.dp"]⟩ code after ∧
    after.table.tokens .padding =
      [Token.named .padding "4.dp" "5.dp", Token.named .padding "8.dp" "8.dp"] ∧
    code.sourceText after.table true = code.plainText := by
  have gives : (render ⟨"card", [.border (.own .black) none (some (.own 4.0))],
      [⟨"label", [.padding (.uniform (some (.own 8.0)))], [], .box true⟩], .box false⟩ {}).Gives
      ⟨.ofList [Token.named .padding "4.dp" "5.dp"]⟩
      ⟨[.text "// card\nBox(\n    modifier = Modifier\n        .border(width = ",
        .token (Token.named .padding "4.dp" "5.dp"), .text ", color = ",
        .token (Token.named .color "Color(0xFF000000)" "Color(0xFF000000)"),
        .text ("),\n) \x7b\n    // label\n    Box(\n" ++
          "        modifier = Modifier\n            .padding("),
        .token (Token.named .padding "8.dp" "8.dp"),
        .text ("),\n        contentAlignment = Alignment.Center,\n    ) \x7b\n" ++
          "        // empty\n    \x7d\n\x7d\n")]⟩
      ⟨.ofList [Token.named .padding "4.dp" "5.dp",
        Token.named .color "Color(0xFF000000)" "Color(0xFF000000)",
        Token.named .padding "8.dp" "8.dp"]⟩ := by
    decide +kernel
  obtain ⟨added, -, -, -, shown⟩ := render_agrees (TokenTable.filed_ofList _) gives
  refine ⟨_, _, gives, (added .padding).trans ?_, shown⟩
  decide

end Layout

end DesignLayout
