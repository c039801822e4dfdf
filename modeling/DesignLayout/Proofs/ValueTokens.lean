import DesignLayout.Proofs.DesignValues
import DesignLayout.Proofs.Layering
import DesignLayout.Proofs.Outcomes
import DesignLayout.Proofs.TokenAgreement

/-!
# The token of each design value

A rendering registers the values of a tree one after the other.  Where it
shows a value, it shows the token that stands under the id of the token that
the value asks for: the first of that category and id that any value of the
tree asked for.  This is the value's own token as long as its id is not taken
by a token of another name or value.
-/

namespace DesignLayout

open Registering

namespace DesignValue

theorem ownTokens_append {left right : List DesignValue} {first second : List Token}
    (leftTokens : ownTokens left = .ok first) (rightTokens : ownTokens right = .ok second) :
    ownTokens (left ++ right) = .ok (first ++ second) := by
  rw [ownTokens] at leftTokens rightTokens ⊢
  rw [List.filter_append, List.mapM_append, leftTokens, rightTokens]
  rfl

end DesignValue

namespace Registry

variable {β γ : Type} {registry between after : Registry}

/-- The token under the id of a value's own token. -/
def tokenOf (registry : Registry) (value : DesignValue) : Option Token :=
  if value.isBlank then none
  else
    match value.ownToken with
    | .ok own => registry.get? own.category own.id
    | .error _ => none

/-- Every token of a registry is in another under the same id. -/
def Within (registry other : Registry) : Prop :=
  ∀ category id token, registry.get? category id = some token →
    other.get? category id = some token

theorem Within.trans {other : Registry} (first : registry.Within between)
    (second : between.Within other) : registry.Within other :=
  fun category id token found => second category id token (first category id token found)

/-- Registering values stores the tokens that they ask for one after the
other, each unless its id is taken. -/
def Takes (registry : Registry) (values : List DesignValue) (after : Registry) : Prop :=
  ∃ tokens, DesignValue.ownTokens values = .ok tokens ∧
    after = ⟨tokens.foldl TokenTable.insertNew registry.table⟩

theorem Takes.nil : registry.Takes [] registry :=
  ⟨[], rfl, rfl⟩

theorem Takes.append {left right : List DesignValue} (first : registry.Takes left between)
    (second : between.Takes right after) : registry.Takes (left ++ right) after := by
  obtain ⟨leftTokens, leftOwn, rfl⟩ := first
  obtain ⟨rightTokens, rightOwn, rfl⟩ := second
  refine ⟨leftTokens ++ rightTokens, DesignValue.ownTokens_append leftOwn rightOwn, ?_⟩
  rw [List.foldl_append]

theorem Takes.within {values : List DesignValue} (takes : registry.Takes values after) :
    registry.Within after := by
  obtain ⟨tokens, -, rfl⟩ := takes
  intro category id token found
  have stored := TokenTable.get?_foldl_insertNew registry.table tokens category id
  rw [get?] at found ⊢
  rw [stored, found]
  rfl

/-- A run registers values, and its result is told by the tokens that these
have in the end. -/
structure Shows (registry : Registry) (values : List DesignValue) (after : Registry)
    (result : β) (told : (DesignValue → Option Token) → β) : Prop where
  takes : registry.Takes values after
  result_eq : ∀ final, after.Within final → result = told final.tokenOf

namespace Shows

variable {values : List DesignValue} {result : β} {told : (DesignValue → Option Token) → β}

theorem nothing {result : β} : registry.Shows [] registry result fun _ => result :=
  ⟨.nil, fun _ _ => rfl⟩

theorem map (shows : registry.Shows values after result told) (change : β → γ) :
    registry.Shows values after (change result) fun tokenOf => change (told tokenOf) :=
  ⟨shows.takes, fun final within => congrArg change (shows.result_eq final within)⟩

/-- Two runs one after the other. -/
theorem and {later : List DesignValue} {other : γ}
    {otherTold : (DesignValue → Option Token) → γ}
    (first : registry.Shows values between result told)
    (second : between.Shows later after other otherTold) :
    registry.Shows (values ++ later) after (result, other)
      fun tokenOf => (told tokenOf, otherTold tokenOf) where
  takes := first.takes.append second.takes
  result_eq := by
    intro final within
    rw [first.result_eq final (second.takes.within.trans within),
      second.result_eq final within]

theorem append {later : List DesignValue} {tokens others : List Token}
    {tokensTold othersTold : (DesignValue → Option Token) → List Token}
    (first : registry.Shows values between tokens tokensTold)
    (second : between.Shows later after others othersTold) :
    registry.Shows (values ++ later) after (tokens ++ others)
      fun tokenOf => tokensTold tokenOf ++ othersTold tokenOf :=
  (first.and second).map fun both => both.1 ++ both.2

end Shows

/-- Storing a token gives the one that then stands under its id. -/
theorem store_eq {own token : Token} (stores : registry.store own = (token, after)) :
    after = ⟨registry.table.insertNew own⟩ ∧ after.get? own.category own.id = some token := by
  rw [TokenTable.insertNew_eq]
  unfold store at stores
  split at stores
  case h_1 present found =>
    cases stores
    rw [get?] at found
    exact ⟨by rw [found]; rfl, found⟩
  case h_2 absent =>
    cases stores
    rw [get?] at absent
    exact ⟨by rw [absent]; rfl, by rw [get?_insert, if_pos ⟨rfl, rfl⟩]⟩

end Registry

namespace Source

open Registry

variable {registry after : Registry}

/-- Where a value shows, the token is that under the id of its own token. -/
theorem shows_token? {α : Type} [ToPrimitive α] {category : Category} {property : Property α}
    {token : Option Token} (gives : (token? category (some property)).Gives registry token after) :
    registry.Shows [.of category property] after token
      fun tokenOf => tokenOf (.of category property) := by
  rw [token?, register] at gives
  split at gives
  case isTrue blank =>
    obtain ⟨rfl, rfl⟩ := gives_pure.mp gives
    rw [← DesignValue.isBlank_of category] at blank
    exact ⟨⟨[], by simp [DesignValue.ownTokens, blank, pure, Except.pure], rfl⟩,
      fun final _ => by simp [tokenOf, blank]⟩
  case isFalse shown =>
    obtain ⟨text, _, formats, gives⟩ := gives_bind.mp gives
    obtain ⟨written, rfl⟩ := gives_ofExcept.mp formats
    obtain ⟨entry, _, stores, gives⟩ := gives_bind.mp gives
    obtain ⟨rfl, rfl⟩ := gives_pure.mp gives
    obtain ⟨rfl, found⟩ := store_eq (gives_modifyGet.mp stores)
    rw [← DesignValue.isBlank_of category, Bool.not_eq_true] at shown
    have own : (DesignValue.of category property).ownToken =
        .ok (property.token category text) := by
      rw [DesignValue.ownToken_of, written]
      rfl
    refine ⟨⟨[property.token category text], ?_, rfl⟩, ?_⟩
    · simp [DesignValue.ownTokens, shown, own, bind, Except.bind, pure, Except.pure]
    · intro final within
      simp [tokenOf, shown, own, within _ _ _ found]

theorem shows_optional? {α : Type} [ToPrimitive α] {category : Category}
    {property : Option (Property α)} {token : Option Token}
    (gives : (token? category property).Gives registry token after) :
    registry.Shows (property.toList.map (.of category)) after token
      fun tokenOf => property.bind fun property => tokenOf (.of category property) := by
  cases property with
  | none =>
      obtain ⟨rfl, rfl⟩ := gives_pure.mp gives
      exact .nothing
  | some property => exact shows_token? gives

theorem color_ne_none {property : Property Color} :
    ¬ (token? .color (some property)).Gives registry none after := by
  intro gives
  have shows : property.isBlank = false := by cases property <;> rfl
  rw [token?, register, shows] at gives
  obtain ⟨text, _, -, gives⟩ := gives_bind.mp gives
  obtain ⟨entry, _, -, gives⟩ := gives_bind.mp gives
  obtain ⟨different, -⟩ := gives_pure.mp gives
  cases different

section calls

theorem tokens_edgesCall? (tokens : Edges (Option Token)) :
    (edgesCall? tokens).toList.flatMap Code.tokens = tokens.shownTokens := by
  rcases tokens with ⟨left, top, right, bottom⟩
  unfold edgesCall?
  split
  case isTrue blank =>
    obtain ⟨rfl, rfl, rfl, rfl⟩ := by simpa [Edges.toList] using blank
    rfl
  case isFalse shown =>
    unfold Edges.shownTokens paddingArguments
    by_cases alike : left = top ∧ left = right ∧ left = bottom
    · obtain ⟨rfl, rfl, rfl⟩ := alike
      have isSome : left.isSome = true := by
        cases left with
        | none => simp [Edges.toList] at shown
        | some token => rfl
      simp [isSome]
    · have notAlike : ¬ (left.isSome = true ∧ left = top ∧ left = right ∧ left = bottom) :=
        fun given => alike given.2
      rw [if_neg alike, if_neg notAlike]
      split <;> simp [Edges.toList]

theorem tokens_cornersCall? (tokens : Corners (Option Token)) :
    (cornersCall? tokens).toList.flatMap Code.tokens = tokens.shownTokens := by
  rcases tokens with ⟨topLeft, topRight, bottomRight, bottomLeft⟩
  unfold cornersCall?
  split
  case isTrue blank =>
    obtain ⟨rfl, rfl, rfl, rfl⟩ := by simpa [Corners.toList] using blank
    rfl
  case isFalse shown =>
    unfold Corners.shownTokens shapeArguments
    by_cases alike : topLeft = topRight ∧ topLeft = bottomRight ∧ topLeft = bottomLeft
    · obtain ⟨rfl, rfl, rfl⟩ := alike
      have isSome : topLeft.isSome = true := by
        cases topLeft with
        | none => simp [Corners.toList] at shown
        | some token => rfl
      simp [isSome]
    · have notAlike : ¬ (topLeft.isSome = true ∧ topLeft = topRight ∧ topLeft = bottomRight ∧
          topLeft = bottomLeft) := fun given => alike given.2
      rw [if_neg alike, if_neg notAlike]
      simp [Corners.toList]

end calls

section modifiers

variable {call : Option Code}

/-- Each edge has the token of its value. -/
theorem shows_edgeTokens {padding : Padding} {tokens : Edges (Option Token)}
    (gives : (edgeTokens padding).Gives registry tokens after) :
    registry.Shows (padding.toList.flatMap dimensionValues) after tokens
      fun tokenOf => padding.map (dimensionToken tokenOf) := by
  obtain ⟨left, _, givesLeft, gives⟩ := gives_bind.mp gives
  obtain ⟨top, _, givesTop, gives⟩ := gives_bind.mp gives
  obtain ⟨right, _, givesRight, gives⟩ := gives_bind.mp gives
  obtain ⟨bottom, _, givesBottom, gives⟩ := gives_bind.mp gives
  obtain ⟨rfl, rfl⟩ := gives_pure.mp gives
  have edges := (((shows_optional? givesLeft).and (shows_optional? givesTop)).and
    (shows_optional? givesRight)).and (shows_optional? givesBottom)
  have shown := edges.map fun tokens =>
    (⟨tokens.1.1.1, tokens.1.1.2, tokens.1.2, tokens.2⟩ : Edges (Option Token))
  simpa [Edges.toList, Edges.map, dimensionValues, dimensionToken] using shown

/-- Each corner has the token of its value. -/
theorem shows_cornerTokens {shape : Shape} {tokens : Corners (Option Token)}
    (gives : (cornerTokens shape).Gives registry tokens after) :
    registry.Shows (shapeValues (some shape)) after tokens
      fun tokenOf => ⟨tokenOf (.of .shape shape.topLeft), tokenOf (.of .shape shape.topRight),
        tokenOf (.of .shape shape.bottomRight), tokenOf (.of .shape shape.bottomLeft)⟩ := by
  obtain ⟨topLeft, _, givesTopLeft, gives⟩ := gives_bind.mp gives
  obtain ⟨topRight, _, givesTopRight, gives⟩ := gives_bind.mp gives
  obtain ⟨bottomRight, _, givesBottomRight, gives⟩ := gives_bind.mp gives
  obtain ⟨bottomLeft, _, givesBottomLeft, gives⟩ := gives_bind.mp gives
  obtain ⟨rfl, rfl⟩ := gives_pure.mp gives
  have corners := (((shows_token? givesTopLeft).and (shows_token? givesTopRight)).and
    (shows_token? givesBottomRight)).and (shows_token? givesBottomLeft)
  have shown := corners.map fun tokens =>
    (⟨tokens.1.1.1, tokens.1.1.2, tokens.1.2, tokens.2⟩ : Corners (Option Token))
  simpa [shapeValues, Corners.toList] using shown

theorem shows_padding? {padding : Padding}
    (gives : (padding? padding).Gives registry call after) :
    registry.Shows (padding.toList.flatMap dimensionValues) after
      (call.toList.flatMap Code.tokens)
      fun tokenOf => (padding.map (dimensionToken tokenOf)).shownTokens := by
  rw [padding?_eq] at gives
  obtain ⟨tokens, _, givesTokens, gives⟩ := gives_bind.mp gives
  obtain ⟨rfl, rfl⟩ := gives_pure.mp gives
  rw [tokens_edgesCall?]
  exact (shows_edgeTokens givesTokens).map Edges.shownTokens

theorem shows_shape? {shape : Shape} (gives : (shape? shape).Gives registry call after) :
    registry.Shows (shapeValues (some shape)) after (call.toList.flatMap Code.tokens)
      fun tokenOf => shapeTokens tokenOf (some shape) := by
  rw [shape?_eq] at gives
  obtain ⟨tokens, _, givesTokens, gives⟩ := gives_bind.mp gives
  obtain ⟨rfl, rfl⟩ := gives_pure.mp gives
  rw [tokens_cornersCall?]
  exact (shows_cornerTokens givesTokens).map Corners.shownTokens

theorem shows_shapeArgument {label : Option String} {shape : Option Shape}
    {arguments : List Argument}
    (gives : (shapeArgument label shape).Gives registry arguments after) :
    registry.Shows (shapeValues shape) after (arguments.flatMap (·.value.tokens))
      fun tokenOf => shapeTokens tokenOf shape := by
  cases shape with
  | none =>
      obtain ⟨rfl, rfl⟩ := gives_pure.mp gives
      exact .nothing
  | some shape =>
      obtain ⟨call, _, givesShape, gives⟩ := gives_bind.mp gives
      obtain ⟨rfl, rfl⟩ := gives_pure.mp gives
      simpa [List.flatMap_map] using shows_shape? givesShape

theorem shows_spacing? {spacing : Dimension}
    (gives : (spacing? spacing).Gives registry call after) :
    registry.Shows [.of .padding spacing] after (call.toList.flatMap Code.tokens)
      fun tokenOf => (tokenOf (.of .padding spacing)).toList := by
  obtain ⟨token, _, givesToken, gives⟩ := gives_bind.mp gives
  obtain ⟨rfl, rfl⟩ := gives_pure.mp gives
  have shown := (shows_token? givesToken).map Option.toList
  cases token <;> simpa using shown

theorem shows_modifier? {modifier : Modifier}
    (gives : (modifier? modifier).Gives registry call after) :
    registry.Shows modifier.values after (call.toList.flatMap Code.tokens)
      fun tokenOf => modifier.shownTokens tokenOf := by
  cases modifier with
  | weight weight =>
      obtain ⟨text, _, written, gives⟩ := gives_bind.mp gives
      obtain ⟨-, rfl⟩ := gives_ofExcept.mp written
      obtain ⟨rfl, rfl⟩ := gives_pure.mp gives
      simpa [Modifier.values, Modifier.shownTokens] using Shows.nothing
  | fillMax axis =>
      cases axis <;>
      · obtain ⟨rfl, rfl⟩ := gives_pure.mp gives
        simpa [Modifier.values, Modifier.shownTokens] using Shows.nothing
  | baseline =>
      obtain ⟨rfl, rfl⟩ := gives_pure.mp gives
      simpa [Modifier.values, Modifier.shownTokens] using Shows.nothing
  | background color shape =>
      obtain ⟨color, _, givesColor, gives⟩ := gives_bind.mp gives
      cases color with
      | none => exact absurd givesColor color_ne_none
      | some color =>
          obtain ⟨shape, _, givesShape, gives⟩ := gives_bind.mp gives
          obtain ⟨rfl, rfl⟩ := gives_pure.mp gives
          have shown := ((shows_token? givesColor).map Option.toList).append
            (shows_shapeArgument givesShape)
          simpa [Modifier.values, Modifier.shownTokens] using shown
  | border color shape width =>
      obtain ⟨color, _, givesColor, gives⟩ := gives_bind.mp gives
      cases color with
      | none => exact absurd givesColor color_ne_none
      | some color =>
          obtain ⟨width, _, givesWidth, gives⟩ := gives_bind.mp gives
          obtain ⟨shape, _, givesShape, gives⟩ := gives_bind.mp gives
          obtain ⟨rfl, rfl⟩ := gives_pure.mp gives
          -- The color is registered before the width and shown after it.
          have shown := ((shows_token? givesColor).and
            ((shows_optional? givesWidth).and (shows_shapeArgument givesShape))).map
              fun parts => parts.2.1.toList ++ parts.1.toList ++ parts.2.2
          cases width <;>
            simpa [Modifier.values, Modifier.shownTokens, dimensionValues, dimensionToken]
              using shown
  | padding padding => exact shows_padding? gives
  | size axis value =>
      obtain ⟨token, _, givesToken, gives⟩ := gives_bind.mp gives
      obtain ⟨rfl, rfl⟩ := gives_pure.mp gives
      have shown := (shows_token? givesToken).map Option.toList
      cases token <;> simpa [Modifier.values, Modifier.shownTokens] using shown

end modifiers

section statements

variable {options : SourceOptions} {depth : Nat}

theorem shows_modifierCalls {modifiers : List Modifier} {calls : List Code}
    (gives : (modifierCalls modifiers).Gives registry calls after) :
    registry.Shows (modifiers.flatMap Modifier.values) after (calls.flatMap Code.tokens)
      fun tokenOf => modifiers.flatMap (Modifier.shownTokens tokenOf) := by
  induction modifiers generalizing registry calls with
  | nil =>
      obtain ⟨rfl, rfl⟩ := gives_pure.mp gives
      exact .nothing
  | cons modifier rest ih =>
      obtain ⟨call, _, givesCall, gives⟩ := gives_bind.mp gives
      obtain ⟨others, _, givesOthers, gives⟩ := gives_bind.mp gives
      obtain ⟨rfl, rfl⟩ := gives_pure.mp gives
      rw [List.flatMap_append]
      exact (shows_modifier? givesCall).append (ih givesOthers)

theorem shows_modifierParameter {modifiers : List Modifier} {parameters : List Parameter}
    (gives : (modifierParameter options depth modifiers).Gives registry parameters after) :
    registry.Shows (modifiers.flatMap Modifier.values) after
      (parameters.flatMap (·.value.tokens))
      fun tokenOf => modifiers.flatMap (Modifier.shownTokens tokenOf) := by
  obtain ⟨calls, _, givesCalls, gives⟩ := gives_bind.mp gives
  obtain ⟨rfl, rfl⟩ := gives_pure.mp gives
  have shown := shows_modifierCalls givesCalls
  cases calls with
  | nil => exact shown
  | cons call rest => simpa using shown

theorem shows_arrangementParameter {α : Type} {name : String} {placementName : α → String}
    {arrangement : Option (Arrangement α)} {parameters : List Parameter}
    (gives : (arrangementParameter name placementName arrangement).Gives
      registry parameters after) :
    registry.Shows (arrangementValues arrangement) after (parameters.flatMap (·.value.tokens))
      fun tokenOf =>
        (arrangementValues arrangement).flatMap fun value => (tokenOf value).toList := by
  match arrangement with
  | none =>
      obtain ⟨rfl, rfl⟩ := gives_pure.mp gives
      exact .nothing
  | some (.placed placement) =>
      obtain ⟨rfl, rfl⟩ := gives_pure.mp gives
      simpa [arrangementValues] using Shows.nothing
  | some (.spaced spacing) =>
      obtain ⟨call, _, givesCall, gives⟩ := gives_bind.mp gives
      obtain ⟨rfl, rfl⟩ := gives_pure.mp gives
      simpa [List.flatMap_map, arrangementValues] using shows_spacing? givesCall

theorem shows_kindParameters {kind : LayoutKind} {parameters : List Parameter}
    (gives : (kindParameters kind).Gives registry parameters after) :
    registry.Shows kind.values after (parameters.flatMap (·.value.tokens))
      fun tokenOf => kind.shownTokens tokenOf := by
  cases kind with
  | row arrangement alignment =>
      obtain ⟨arranged, _, givesArranged, gives⟩ := gives_bind.mp gives
      obtain ⟨rfl, rfl⟩ := gives_pure.mp gives
      simpa [LayoutKind.values, LayoutKind.shownTokens] using
        shows_arrangementParameter givesArranged
  | flowRow horizontal vertical =>
      obtain ⟨across, _, givesAcross, gives⟩ := gives_bind.mp gives
      obtain ⟨down, _, givesDown, gives⟩ := gives_bind.mp gives
      obtain ⟨rfl, rfl⟩ := gives_pure.mp gives
      have shown := (shows_arrangementParameter givesAcross).append
        (shows_arrangementParameter givesDown)
      simpa [LayoutKind.values, LayoutKind.shownTokens] using shown
  | column arrangement alignment =>
      obtain ⟨arranged, _, givesArranged, gives⟩ := gives_bind.mp gives
      obtain ⟨rfl, rfl⟩ := gives_pure.mp gives
      simpa [LayoutKind.values, LayoutKind.shownTokens] using
        shows_arrangementParameter givesArranged
  | box centered =>
      obtain ⟨rfl, rfl⟩ := gives_pure.mp gives
      simpa [LayoutKind.values, LayoutKind.shownTokens] using Shows.nothing
  | text content =>
      obtain ⟨style, _, givesStyle, gives⟩ := gives_bind.mp gives
      obtain ⟨color, _, givesColor, gives⟩ := gives_bind.mp gives
      obtain ⟨rfl, rfl⟩ := gives_pure.mp gives
      have shown := ((shows_token? givesStyle).map Option.toList).append
        ((shows_optional? givesColor).map Option.toList)
      cases colors : content.color <;>
        simpa [LayoutKind.values, LayoutKind.shownTokens, colors] using shown

mutual

theorem shows_statement {registry after : Registry} {depth : Nat} {code : Code} :
    ∀ {node : Layout}, (statement options depth node).Gives registry code after →
    registry.Shows node.values after code.tokens fun tokenOf => node.shownTokens tokenOf
  | ⟨name, modifiers, children, kind⟩, gives => by
      rw [statement] at gives
      obtain ⟨modifier, _, givesModifier, gives⟩ := gives_bind.mp gives
      obtain ⟨parameters, _, givesParameters, gives⟩ := gives_bind.mp gives
      have both := (shows_modifierParameter givesModifier).append
        (shows_kindParameters givesParameters)
      split at gives
      case isTrue isText =>
        obtain ⟨rfl, rfl⟩ := gives_pure.mp gives
        simpa [Layout.values, Layout.shownTokens, isText] using both
      case isFalse notText =>
        obtain ⟨body, _, givesBody, gives⟩ := gives_bind.mp gives
        obtain ⟨rfl, rfl⟩ := gives_pure.mp gives
        have whole := both.append (shows_statements givesBody)
        split
        case isTrue childless =>
          obtain rfl := List.isEmpty_iff.mp childless
          rw [statements] at givesBody
          obtain ⟨rfl, -⟩ := gives_pure.mp givesBody
          simpa [Layout.values, Layout.shownTokens, notText, emptyBody, footer] using whole
        case isFalse =>
          simpa [Layout.values, Layout.shownTokens, notText, footer] using whole

/-- List counterpart of shows_statement. -/
theorem shows_statements {registry after : Registry} {depth : Nat} {code : Code} :
    ∀ {nodes : List Layout}, (statements options depth nodes).Gives registry code after →
    registry.Shows (Layout.valuesList nodes) after code.tokens
      fun tokenOf => Layout.shownTokensList tokenOf nodes
  | [], gives => by
      rw [statements] at gives
      obtain ⟨rfl, rfl⟩ := gives_pure.mp gives
      exact .nothing
  | node :: rest, gives => by
      rw [statements] at gives
      obtain ⟨first, _, givesFirst, gives⟩ := gives_bind.mp gives
      obtain ⟨others, _, givesOthers, gives⟩ := gives_bind.mp gives
      obtain ⟨rfl, rfl⟩ := gives_pure.mp gives
      rw [Code.tokens_append]
      exact (shows_statement givesFirst).append (shows_statements givesOthers)

end

end statements

end Source

namespace DesignValue

variable {value : DesignValue} {own token : Token}

/-- A token in the category of a value stands for it if it has the name of the
value's own token, and the text where the value is no link. -/
theorem stoodForBy_iff (asks : value.ownToken = .ok own) (placed : token.category = own.category) :
    value.StoodForBy token ↔
      token.name = own.name ∧ (value.property.link? = none → token.value = own.value) := by
  rcases value with ⟨category, property⟩
  obtain ⟨text, written, asked⟩ := exists_of_bind asks
  cases asked
  cases property with
  | linked link =>
      constructor
      · intro stands
        exact ⟨stands.2, fun own => by cases own⟩
      · intro given
        exact ⟨placed, given.1⟩
  | own primitive =>
      have source : primitive.source = .ok text := written
      constructor
      · intro stands
        obtain ⟨-, same, named⟩ := stands
        rw [source] at same
        cases same
        exact ⟨named, fun _ => rfl⟩
      · intro given
        obtain ⟨named, same⟩ := given
        have text : token.value = text := same rfl
        exact ⟨placed, text ▸ source, named.trans text.symm⟩

theorem mem_ownTokens {values : List DesignValue} {owns : List Token}
    (asks : ownTokens values = .ok owns) (member : value ∈ values)
    (shows : value.isBlank = false) : ∃ own ∈ owns, value.ownToken = .ok own :=
  (mem_of_mapM_eq_ok asks).1 value (by simp [member, shows])

theorem idOfName (asks : value.ownToken = .ok own) : own.IdOfName := by
  obtain ⟨text, -, asked⟩ := exists_of_bind asks
  cases asked
  cases value.property <;> rfl

theorem idOfName_of_mem_ownTokens {values : List DesignValue} {owns : List Token}
    (asks : ownTokens values = .ok owns) (member : own ∈ owns) : own.IdOfName := by
  obtain ⟨value, -, asked⟩ := (mem_of_mapM_eq_ok asks).2 own member
  exact idOfName asked

end DesignValue

theorem Token.of_firstLike? {own first : Token} {tokens : List Token}
    (found : own.firstLike? tokens = some first) :
    first.category = own.category ∧ first.id = own.id := by
  have placed := List.find?_some found
  exact of_decide_eq_true placed

/-- Where tokens are stored one after the other, a value has the first with
the category and id of its own token. -/
theorem Registry.tokenOf_eq_find? (owns : List Token) {value : DesignValue} {own : Token}
    (shows : value.isBlank = false) (asks : value.ownToken = .ok own) :
    Registry.tokenOf ⟨owns.foldl TokenTable.insertNew Registry.empty.table⟩ value =
      own.firstLike? owns := by
  have found := TokenTable.get?_foldl_insertNew Registry.empty.table owns own.category own.id
  rw [Registry.empty, TokenTable.get?_empty, Option.none_or] at found
  simpa [Registry.tokenOf, Token.firstLike?, shows, asks, Registry.get?, Registry.empty] using found

namespace Layout

variable {root : Layout} {options : SourceOptions} {registry after : Registry} {code : Code}

theorem shows_render (gives : (root.render options).Gives registry code after) :
    registry.Shows root.values after code.tokens fun tokenOf => root.shownTokens tokenOf :=
  Source.shows_statement gives

/-- A rendering shows for each value the first token of its category and id
that any value of the tree asked for.  That is a token of the value's own name
and text unless the first one has another name or, for a value that is no
link, another text.  Values share a token just when the names of their own
tokens have one id. -/
theorem render_valueTokens (gives : (root.render options).Gives .empty code after) :
    code.tokens = root.shownTokens after.tokenOf ∧
    ∃ owns, DesignValue.ownTokens root.values = .ok owns ∧
      (∀ value ∈ root.values, value.isBlank = false →
        ∃ own first, value.ownToken = .ok own ∧ own.firstLike? owns = some first ∧
          after.tokenOf value = some first ∧
          (value.StoodForBy first ↔
            first.name = own.name ∧ (value.property.link? = none → first.value = own.value))) ∧
      (∀ left ∈ root.values, ∀ right ∈ root.values, ∀ leftOwn rightOwn,
        left.isBlank = false → left.ownToken = .ok leftOwn →
        right.isBlank = false → right.ownToken = .ok rightOwn →
        (after.tokenOf left = after.tokenOf right ↔
          leftOwn.category = rightOwn.category ∧
            tokenId leftOwn.name = tokenId rightOwn.name)) := by
  obtain ⟨⟨owns, asks, rfl⟩, shown⟩ := shows_render gives
  have first : ∀ value ∈ root.values, value.isBlank = false → ∃ own first,
      value.ownToken = .ok own ∧ own.firstLike? owns = some first ∧
      first.category = own.category ∧ first.id = tokenId own.name := by
    intro value member shows
    obtain ⟨own, ownMember, asked⟩ := DesignValue.mem_ownTokens asks member shows
    have present : (own.firstLike? owns).isSome :=
      List.find?_isSome.mpr ⟨own, ownMember, by simp⟩
    obtain ⟨first, found⟩ := Option.isSome_iff_exists.mp present
    obtain ⟨placed, id⟩ := Token.of_firstLike? found
    exact ⟨own, first, asked, found, placed,
      id.trans (DesignValue.idOfName_of_mem_ownTokens asks ownMember)⟩
  refine ⟨shown _ fun _ _ _ found => found, owns, asks, ?_, ?_⟩
  · intro value member shows
    obtain ⟨own, first, asked, found, placed, -⟩ := first value member shows
    exact ⟨own, first, asked, found, (Registry.tokenOf_eq_find? owns shows asked).trans found,
      DesignValue.stoodForBy_iff asked placed⟩
  · intro left leftMember right rightMember leftOwn rightOwn leftShows leftAsked rightShows
      rightAsked
    obtain ⟨own, leftFirst, asked, leftFound, leftPlaced, leftId⟩ :=
      first left leftMember leftShows
    obtain rfl := Except.ok.inj (leftAsked.symm.trans asked)
    obtain ⟨own, rightFirst, asked, rightFound, rightPlaced, rightId⟩ :=
      first right rightMember rightShows
    obtain rfl := Except.ok.inj (rightAsked.symm.trans asked)
    rw [Registry.tokenOf_eq_find? owns leftShows leftAsked,
      Registry.tokenOf_eq_find? owns rightShows rightAsked]
    constructor
    · intro same
      rw [leftFound, rightFound] at same
      cases same
      exact ⟨leftPlaced.symm.trans rightPlaced, leftId.symm.trans rightId⟩
    · intro given
      have ids : leftOwn.id = rightOwn.id := by
        rw [DesignValue.idOfName leftAsked, DesignValue.idOfName rightAsked, given.2]
      rw [Token.firstLike?, Token.firstLike?, given.1, ids]

/-- A border and a padding that are linked to one token share it, though its
value changed in between. -/
theorem render_valueTokens_shared : ∃ code after,
    (render ⟨"card", [.border (.own .black) none (some (.linked ⟨"V:1", "hair", 4.0⟩)),
      .padding (.uniform (some (.linked ⟨"V:1", "hair", 8.0⟩)))], [], .box false⟩ {}).Gives
      .empty code after ∧
    code.tokens = [Token.named .padding "hair" "4.dp",
      Token.named .color "Color(0xFF000000)" "Color(0xFF000000)",
      Token.named .padding "hair" "4.dp"] ∧
    after.tokenOf ⟨.padding, .linked ⟨"V:1", "hair", .number 4.0⟩⟩ =
      after.tokenOf ⟨.padding, .linked ⟨"V:1", "hair", .number 8.0⟩⟩ := by
  have gives : (render ⟨"card", [.border (.own .black) none (some (.linked ⟨"V:1", "hair", 4.0⟩)),
      .padding (.uniform (some (.linked ⟨"V:1", "hair", 8.0⟩)))], [], .box false⟩ {}).Gives .empty
      ⟨[.text "// card\nBox(\n    modifier = Modifier\n        .border(width = ",
        .token (Token.named .padding "hair" "4.dp"), .text ", color = ",
        .token (Token.named .color "Color(0xFF000000)" "Color(0xFF000000)"),
        .text ")\n        .padding(", .token (Token.named .padding "hair" "4.dp"),
        .text "),\n) \x7b\n    // empty\n\x7d\n"]⟩
      ⟨.ofList [Token.named .color "Color(0xFF000000)" "Color(0xFF000000)",
        Token.named .padding "hair" "4.dp"]⟩ := by
    decide +kernel
  obtain ⟨shown, owns, asks, -, sharing⟩ := render_valueTokens gives
  refine ⟨_, _, gives, shown.trans (by decide +kernel), ?_⟩
  exact (sharing ⟨.padding, .linked ⟨"V:1", "hair", .number 4.0⟩⟩ (by decide)
    ⟨.padding, .linked ⟨"V:1", "hair", .number 8.0⟩⟩ (by decide)
    (Token.named .padding "hair" "4.dp") (Token.named .padding "hair" "8.dp")
    (by decide +kernel) (by decide +kernel) (by decide +kernel) (by decide +kernel)).mpr ⟨rfl, rfl⟩

/-- A link can go by the text of a value.  The value that comes behind it shows
the token of the link, which has another value. -/
theorem render_valueTokens_taken :
    ¬ ∀ (root : Layout) (code : Code) (after : Registry),
      (root.render {}).Gives .empty code after →
      ∀ value ∈ root.values, value.isBlank = false → ∃ token ∈ code.tokens,
        after.tokenOf value = some token ∧ value.StoodForBy token := by
  intro claim
  have gives : (render ⟨"card", [.padding ⟨some (.linked ⟨"V:1", "16.dp", 20.0⟩),
      some (.own 16.0), none, none⟩], [], .box false⟩ {}).Gives .empty
      ⟨[.text "// card\nBox(\n    modifier = Modifier\n        .padding(start = ",
        .token (Token.named .padding "16.dp" "20.dp"), .text ", top = ",
        .token (Token.named .padding "16.dp" "20.dp"),
        .text "),\n) \x7b\n    // empty\n\x7d\n"]⟩
      ⟨.ofList [Token.named .padding "16.dp" "20.dp"]⟩ := by
    decide +kernel
  obtain ⟨token, -, found, stands⟩ := claim _ _ _ gives
    ⟨.padding, .own (.number 16.0)⟩ (by decide) (by decide)
  have shown : token = Token.named .padding "16.dp" "20.dp" :=
    Option.some.inj (found.symm.trans (by decide +kernel))
  subst shown
  exact absurd stands (by decide +kernel)

end Layout

end DesignLayout
