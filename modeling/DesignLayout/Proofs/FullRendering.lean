import DesignLayout.Proofs.LayoutForm
import DesignLayout.Proofs.Registration
import DesignLayout.Source.Statement

/-!
# Source text that leaves nothing out

A call or an argument is left out of source text where its values stand for
nothing.  The layout of a document holds no such value, so its source text
has a call for each modifier, an argument for each arrangement and a shape
wherever the layout has one.
-/

namespace DesignLayout

open Float.Model (UnpackedFloat)
open Registering

namespace Property

theorem isBlank_eq_false {length : Dimension} (notZero : ¬ length.IsZero) :
    length.isBlank = false := by
  rw [← Bool.not_eq_true, isBlank_iff_isZero]
  exact notZero

theorem isBlank_eq_false_of_pos {length : Dimension} (positive : length.value > 0.0) :
    length.isBlank = false := by
  apply isBlank_eq_false
  intro given
  obtain ⟨value, rfl, isZero⟩ := given
  have zero : (0.0 : Float).toModel.unpack = .zero .positive := rfl
  have less : UnpackedFloat.lt (0.0 : Float).toModel.unpack value.toModel.unpack = true :=
    of_decide_eq_true positive
  have same : UnpackedFloat.beq value.toModel.unpack (0.0 : Float).toModel.unpack = true := isZero
  rw [zero] at less same
  generalize value.toModel.unpack = unpacked at less same
  cases unpacked with
  | notANumber => cases same
  | infinity sign => cases sign <;> cases same
  | zero sign => cases less
  | finite sign => cases sign <;> cases same

end Property

namespace Source

/-- A shape is an argument with a token for every corner that is no zero. -/
inductive ShapeShown (label : Option String) : Option Shape → List Argument → Prop where
  | square : ShapeShown label none []
  | rounded {shape : Shape} {tokens : Corners (Option Token)} :
      tokens.toList.map Option.isSome = shape.toList.map (fun corner => !corner.isBlank) →
      tokens.toList.all Option.isNone = false →
      ShapeShown label (some shape)
        [⟨label, call "RoundedCornerShape" (shapeArguments tokens)⟩]

/-- A width that is not said is a hairline. -/
inductive WidthShown : Option Dimension → Code → Prop where
  | hairline : WidthShown none (.ofText "Dp.Hairline")
  | token {width : Dimension} (token : Token) : WidthShown (some width) (.ofToken token)

/-- The call of a modifier, one for each. -/
inductive ModifierShown : Modifier → Code → Prop where
  | weight {weight : Float} {text : String} : number weight = .ok text →
      ModifierShown (.weight weight) (.ofText ("weight(" ++ text ++ "f)"))
  | fillMaxWidth : ModifierShown (.fillMax .width) (.ofText "fillMaxWidth()")
  | fillMaxHeight : ModifierShown (.fillMax .height) (.ofText "fillMaxHeight()")
  | baseline : ModifierShown .baseline (.ofText "alignByBaseline()")
  | background {color : Property Color} {shape : Option Shape} {token : Token}
      {rounding : List Argument} : ShapeShown none shape rounding →
      ModifierShown (.background color shape)
        (call "background" (⟨none, .ofToken token⟩ :: rounding))
  | border {color : Property Color} {shape : Option Shape} {width : Option Dimension}
      {token : Token} {line : Code} {rounding : List Argument} : WidthShown width line →
      ShapeShown (some "shape") shape rounding →
      ModifierShown (.border color shape width)
        (call "border" (⟨some "width", line⟩ :: ⟨some "color", .ofToken token⟩ :: rounding))
  | padding {sides : Padding} {tokens : Edges (Option Token)} :
      tokens.toList.map Option.isSome = sides.toList.map Option.isSome →
      tokens.toList.all Option.isNone = false →
      ModifierShown (.padding sides) (call "padding" (paddingArguments tokens))
  | size {extent : Extent} {length : Dimension} {token : Token} :
      ModifierShown (.size extent length) (call (sizeName extent) [⟨none, .ofToken token⟩])

inductive ArrangementShown {α : Type} (name : String) (placementName : α → String) :
    Option (Arrangement α) → List Parameter → Prop where
  | unsaid : ArrangementShown name placementName none []
  | spaced {spacing : Dimension} {token : Token} :
      ArrangementShown name placementName (some (.spaced spacing))
        [⟨name, call "Arrangement.spacedBy" [⟨none, .ofToken token⟩]⟩]
  | placed {placement : α} : ArrangementShown name placementName (some (.placed placement))
      [⟨name, .ofText (placementName placement)⟩]

inductive KindShown : LayoutKind → List Parameter → Prop where
  | row {arrangement : Option (Arrangement HorizontalPlacement)}
      {alignment : Option RowAlignment} {arranged : List Parameter} :
      ArrangementShown "horizontalArrangement" horizontalName arrangement arranged →
      KindShown (.row arrangement alignment)
        (arranged ++ textParameter "verticalAlignment" (alignment.bind rowAlignmentName?))
  | flowRow {horizontal : Option (Arrangement HorizontalPlacement)}
      {vertical : Option (Arrangement VerticalPlacement)} {across down : List Parameter} :
      ArrangementShown "horizontalArrangement" horizontalName horizontal across →
      ArrangementShown "verticalArrangement" verticalName vertical down →
      KindShown (.flowRow horizontal vertical) (across ++ down)
  | column {arrangement : Option (Arrangement VerticalPlacement)}
      {alignment : Option ColumnAlignment} {arranged : List Parameter} :
      ArrangementShown "verticalArrangement" verticalName arrangement arranged →
      KindShown (.column arrangement alignment)
        (arranged ++ textParameter "horizontalAlignment" (alignment.bind columnAlignmentName?))
  | box {centered : Bool} : KindShown (.box centered)
      (textParameter "contentAlignment" (if centered then some "Alignment.Center" else none))
  | text {content : TextBlock} {style : Token} {color : Option Token} :
      color.isSome = content.color.isSome →
      KindShown (.text content)
        (tokenParameter "style" (some style) ++
          textParameter "text" (some (stringLiteral content.text)) ++
          tokenParameter "color" color ++
          textParameter "textAlign" (content.align.map textAlignName) ++
          textParameter "overflow"
            (if content.ellipsis then some "TextOverflow.Ellipsis" else none) ++
          textParameter "maxLines" (content.lineLimit.map fun lines => toString lines.toNat))

/-- The parameter of a statement that holds the calls of its modifiers. -/
def callParameter (options : SourceOptions) (depth : Nat) (calls : List Code) : List Parameter :=
  if calls.isEmpty then [] else [⟨"modifier", chained options (depth + 2) calls⟩]

mutual

/-- A node is a statement with a call for each modifier, in their order, and a
container holds the statements of its children. -/
inductive Shown (options : SourceOptions) : Nat → Layout → Code → Prop where
  | text {depth : Nat} {name : String} {modifiers : List Modifier} {content : TextBlock}
      {calls : List Code} {parameters : List Parameter} :
      List.Forall₂ ModifierShown modifiers calls → KindShown (.text content) parameters →
      Shown options depth ⟨name, modifiers, [], .text content⟩
        (header options depth name (.text content)
          (callParameter options depth calls ++ parameters))
  | container {depth : Nat} {name : String} {modifiers : List Modifier}
      {children : List Layout} {kind : LayoutKind} {calls : List Code}
      {parameters : List Parameter} {body : Code} : kind.holdsText = false →
      List.Forall₂ ModifierShown modifiers calls → KindShown kind parameters →
      ListShown options (depth + 1) children body →
      Shown options depth ⟨name, modifiers, children, kind⟩
        (header options depth name kind (callParameter options depth calls ++ parameters) ++
          ((if children.isEmpty then emptyBody options (depth + 1) else body) ++
            footer options depth))

inductive ListShown (options : SourceOptions) : Nat → List Layout → Code → Prop where
  | nil {depth : Nat} : ListShown options depth [] .empty
  | cons {depth : Nat} {node : Layout} {rest : List Layout} {first others : Code} :
      Shown options depth node first → ListShown options depth rest others →
      ListShown options depth (node :: rest) (first ++ others)

end

variable {registry after : Registry}

section tokens

variable {α : Type} [ToPrimitive α] {category : Category} {token : Option Token}

theorem isSome_token? {property : Property α}
    (gives : (token? category (some property)).Gives registry token after) :
    token.isSome = !property.isBlank := by
  rw [token?, register] at gives
  split at gives
  case isTrue blank =>
    obtain ⟨rfl, -⟩ := gives_pure.mp gives
    rw [blank]
    rfl
  case isFalse shows =>
    obtain ⟨text, _, -, gives⟩ := gives_bind.mp gives
    obtain ⟨entry, _, -, gives⟩ := gives_bind.mp gives
    obtain ⟨rfl, -⟩ := gives_pure.mp gives
    rw [Bool.not_eq_true] at shows
    rw [shows]
    rfl

theorem exists_of_token? {property : Property α} (shows : property.isBlank = false)
    (gives : (token? category (some property)).Gives registry token after) :
    ∃ entry, token = some entry := by
  apply Option.isSome_iff_exists.mp
  rw [isSome_token? gives, shows]
  rfl

theorem isSome_optional? {property : Option (Property α)}
    (shows : ∀ given, property = some given → given.isBlank = false)
    (gives : (token? category property).Gives registry token after) :
    token.isSome = property.isSome := by
  cases property with
  | none =>
      obtain ⟨rfl, -⟩ := gives_pure.mp gives
      rfl
  | some given =>
      rw [isSome_token? gives, shows given rfl]
      rfl

theorem all_isNone_eq_false {tokens : List (Option Token)} {β : Type} {items : List β}
    {shows : β → Bool} (same : tokens.map Option.isSome = items.map shows) {item : β}
    (member : item ∈ items) (shown : shows item = true) :
    tokens.all Option.isNone = false := by
  have present : true ∈ tokens.map Option.isSome := by
    rw [same, ← shown]
    exact List.mem_map_of_mem member
  obtain ⟨token, tokenMember, isSome⟩ := List.mem_map.mp present
  apply List.all_eq_false.mpr
  exact ⟨token, tokenMember, by rw [Option.isNone_eq_false_iff.mpr isSome]; simp⟩

end tokens

theorem isBlank_color (color : Property Color) : color.isBlank = false := by
  cases color <;> rfl

theorem isBlank_typography (style : Property Typography) : style.isBlank = false := by
  cases style <;> rfl

section calls

variable {call : Option Code}

theorem shapeShown {label : Option String} {shape : Option Shape} {arguments : List Argument}
    (rounded : ∀ given, shape = some given → ∃ corner ∈ given.toList, ¬ corner.IsZero)
    (gives : (shapeArgument label shape).Gives registry arguments after) :
    ShapeShown label shape arguments := by
  cases shape with
  | none =>
      obtain ⟨rfl, -⟩ := gives_pure.mp gives
      exact .square
  | some shape =>
      obtain ⟨call, _, givesCall, gives⟩ := gives_bind.mp gives
      obtain ⟨rfl, -⟩ := gives_pure.mp gives
      unfold shape? at givesCall
      obtain ⟨topLeft, _, givesTopLeft, givesCall⟩ := gives_bind.mp givesCall
      obtain ⟨topRight, _, givesTopRight, givesCall⟩ := gives_bind.mp givesCall
      obtain ⟨bottomRight, _, givesBottomRight, givesCall⟩ := gives_bind.mp givesCall
      obtain ⟨bottomLeft, _, givesBottomLeft, givesCall⟩ := gives_bind.mp givesCall
      obtain ⟨rfl, -⟩ := gives_pure.mp givesCall
      have same : (Corners.mk topLeft topRight bottomRight bottomLeft).toList.map Option.isSome =
          shape.toList.map fun corner => !corner.isBlank := by
        simp only [Corners.toList, List.map_cons, List.map_nil, isSome_token? givesTopLeft,
          isSome_token? givesTopRight, isSome_token? givesBottomRight,
          isSome_token? givesBottomLeft]
      obtain ⟨corner, member, notZero⟩ := rounded shape rfl
      have shows := all_isNone_eq_false same member (by simp [Property.isBlank_eq_false notZero])
      rw [cornersCall?, if_neg (by simp [shows])]
      exact .rounded same shows

theorem widthShown {width : Option Dimension} {token : Option Token}
    (shows : ∀ given, width = some given → given.isBlank = false)
    (gives : (token? .padding width).Gives registry token after) :
    WidthShown width (token.elim (.ofText "Dp.Hairline") .ofToken) := by
  cases width with
  | none =>
      obtain ⟨rfl, -⟩ := gives_pure.mp gives
      exact .hairline
  | some given =>
      obtain ⟨entry, rfl⟩ := exists_of_token? (shows given rfl) gives
      exact .token entry

theorem paddingShown {sides : Padding} (some_side : ∃ side, some side ∈ sides.toList)
    (shows : ∀ side, some side ∈ sides.toList → side.isBlank = false)
    (gives : (padding? sides).Gives registry call after) :
    ∃ code, call = some code ∧ ModifierShown (.padding sides) code := by
  unfold padding? at gives
  obtain ⟨left, _, givesLeft, gives⟩ := gives_bind.mp gives
  obtain ⟨top, _, givesTop, gives⟩ := gives_bind.mp gives
  obtain ⟨right, _, givesRight, gives⟩ := gives_bind.mp gives
  obtain ⟨bottom, _, givesBottom, gives⟩ := gives_bind.mp gives
  obtain ⟨rfl, -⟩ := gives_pure.mp gives
  have edge : ∀ {side : Option Dimension} {token : Option Token} {before after : Registry},
      side ∈ sides.toList → (token? .padding side).Gives before token after →
        token.isSome = side.isSome := by
    intro side token before after member givesSide
    apply isSome_optional? _ givesSide
    rintro given rfl
    exact shows given member
  have same : (Edges.mk left top right bottom).toList.map Option.isSome =
      sides.toList.map Option.isSome := by
    simp only [Edges.toList, List.map_cons, List.map_nil,
      edge (by simp [Edges.toList]) givesLeft, edge (by simp [Edges.toList]) givesTop,
      edge (by simp [Edges.toList]) givesRight, edge (by simp [Edges.toList]) givesBottom]
  obtain ⟨side, member⟩ := some_side
  have shown := all_isNone_eq_false same member rfl
  rw [edgesCall?, if_neg (by simp [shown])]
  exact ⟨_, rfl, .padding same shown⟩

end calls

section statements

variable {node : Layout} {options : SourceOptions}

theorem isBlank_size (formed : node.WellFormed) {extent : Extent} {length : Dimension}
    (member : .size extent length ∈ node.modifiers) : length.isBlank = false := by
  obtain ⟨others, sizes, same, layers, sized⟩ := formed.ordered
  rw [same] at member
  apply Property.isBlank_eq_false
  rcases List.mem_append.mp member with early | late
  · exact absurd (layers.subset (List.mem_map_of_mem early)) node.kind.size_not_mem_layers
  · exact sized.not_isZero late

theorem modifierShown (formed : node.WellFormed) {modifier : Modifier} {call : Option Code}
    (member : modifier ∈ node.modifiers)
    (gives : (modifier? modifier).Gives registry call after) :
    ∃ code, call = some code ∧ ModifierShown modifier code := by
  cases modifier with
  | weight weight =>
      obtain ⟨text, _, formats, gives⟩ := gives_bind.mp gives
      obtain ⟨written, -⟩ := gives_ofExcept.mp formats
      obtain ⟨rfl, -⟩ := gives_pure.mp gives
      exact ⟨_, rfl, .weight written⟩
  | fillMax axis =>
      cases axis with
      | width =>
          obtain ⟨rfl, -⟩ := gives_pure.mp gives
          exact ⟨_, rfl, .fillMaxWidth⟩
      | height =>
          obtain ⟨rfl, -⟩ := gives_pure.mp gives
          exact ⟨_, rfl, .fillMaxHeight⟩
  | baseline =>
      obtain ⟨rfl, -⟩ := gives_pure.mp gives
      exact ⟨_, rfl, .baseline⟩
  | background color shape =>
      obtain ⟨token, _, givesColor, gives⟩ := gives_bind.mp gives
      obtain ⟨token, rfl⟩ := exists_of_token? (isBlank_color color) givesColor
      obtain ⟨rounding, _, givesShape, gives⟩ := gives_bind.mp gives
      obtain ⟨rfl, -⟩ := gives_pure.mp gives
      exact ⟨_, rfl, .background (shapeShown (formed.rounded _ member) givesShape)⟩
  | border color shape width =>
      obtain ⟨token, _, givesColor, gives⟩ := gives_bind.mp gives
      obtain ⟨token, rfl⟩ := exists_of_token? (isBlank_color color) givesColor
      obtain ⟨line, _, givesWidth, gives⟩ := gives_bind.mp gives
      obtain ⟨rounding, _, givesShape, gives⟩ := gives_bind.mp gives
      obtain ⟨rfl, -⟩ := gives_pure.mp gives
      have shows : ∀ given, width = some given → given.isBlank = false := by
        intro given said
        exact Property.isBlank_eq_false ((formed.bordered _ _ _ member).2.2 given said)
      exact ⟨_, rfl, .border (widthShown shows givesWidth)
        (shapeShown (formed.rounded _ member) givesShape)⟩
  | padding sides =>
      obtain ⟨some_side, notZero⟩ := formed.padded sides member
      exact paddingShown some_side
        (fun side sideMember => Property.isBlank_eq_false (notZero side sideMember)) gives
  | size extent length =>
      obtain ⟨token, _, givesToken, gives⟩ := gives_bind.mp gives
      obtain ⟨rfl, -⟩ := gives_pure.mp gives
      obtain ⟨token, rfl⟩ := exists_of_token? (isBlank_size formed member) givesToken
      exact ⟨_, rfl, .size⟩

theorem modifierCalls_shown (formed : node.WellFormed) : ∀ {modifiers : List Modifier}
    {registry : Registry} {calls : List Code}, modifiers ⊆ node.modifiers →
    (modifierCalls modifiers).Gives registry calls after →
    List.Forall₂ ModifierShown modifiers calls := by
  intro modifiers
  induction modifiers with
  | nil =>
      intro registry calls _ gives
      obtain ⟨rfl, -⟩ := gives_pure.mp gives
      exact .nil
  | cons modifier rest ih =>
      intro registry calls within gives
      obtain ⟨call, _, givesCall, gives⟩ := gives_bind.mp gives
      obtain ⟨others, _, givesOthers, gives⟩ := gives_bind.mp gives
      obtain ⟨rfl, rfl⟩ := gives_pure.mp gives
      obtain ⟨code, rfl, shown⟩ := modifierShown formed (within List.mem_cons_self) givesCall
      exact .cons shown (ih (fun _ later => within (List.mem_cons_of_mem _ later)) givesOthers)

theorem arrangementShown {α : Type} {name : String} {placementName : α → String}
    {arrangement : Option (Arrangement α)} {parameters : List Parameter}
    (shows : ∀ spacing ∈ (arrangement.bind Arrangement.spacing?).toList, spacing.isBlank = false)
    (gives : (arrangementParameter name placementName arrangement).Gives
      registry parameters after) :
    ArrangementShown name placementName arrangement parameters := by
  match arrangement with
  | none =>
      obtain ⟨rfl, -⟩ := gives_pure.mp gives
      exact .unsaid
  | some (.placed placement) =>
      obtain ⟨rfl, -⟩ := gives_pure.mp gives
      exact .placed
  | some (.spaced spacing) =>
      obtain ⟨call, _, givesCall, gives⟩ := gives_bind.mp gives
      obtain ⟨rfl, -⟩ := gives_pure.mp gives
      obtain ⟨token, _, givesToken, givesCall⟩ := gives_bind.mp givesCall
      obtain ⟨rfl, -⟩ := gives_pure.mp givesCall
      obtain ⟨token, rfl⟩ := exists_of_token? (shows spacing (by simp [Arrangement.spacing?]))
        givesToken
      exact .spaced

theorem kindShown {kind : LayoutKind} {parameters : List Parameter}
    (shows : ∀ spacing ∈ kind.spacings, spacing.isBlank = false)
    (gives : (kindParameters kind).Gives registry parameters after) :
    KindShown kind parameters := by
  cases kind with
  | row arrangement alignment =>
      obtain ⟨arranged, _, givesArranged, gives⟩ := gives_bind.mp gives
      obtain ⟨rfl, -⟩ := gives_pure.mp gives
      exact .row (arrangementShown shows givesArranged)
  | flowRow horizontal vertical =>
      obtain ⟨across, _, givesAcross, gives⟩ := gives_bind.mp gives
      obtain ⟨down, _, givesDown, gives⟩ := gives_bind.mp gives
      obtain ⟨rfl, -⟩ := gives_pure.mp gives
      have acrossShows := fun spacing member => shows spacing (List.mem_append_left _ member)
      have downShows := fun spacing member => shows spacing (List.mem_append_right _ member)
      exact .flowRow (arrangementShown acrossShows givesAcross)
        (arrangementShown downShows givesDown)
  | column arrangement alignment =>
      obtain ⟨arranged, _, givesArranged, gives⟩ := gives_bind.mp gives
      obtain ⟨rfl, -⟩ := gives_pure.mp gives
      exact .column (arrangementShown shows givesArranged)
  | box centered =>
      obtain ⟨rfl, -⟩ := gives_pure.mp gives
      exact .box
  | text content =>
      obtain ⟨style, _, givesStyle, gives⟩ := gives_bind.mp gives
      obtain ⟨color, _, givesColor, gives⟩ := gives_bind.mp gives
      obtain ⟨rfl, -⟩ := gives_pure.mp gives
      obtain ⟨style, rfl⟩ := exists_of_token? (isBlank_typography content.style) givesStyle
      exact .text (isSome_optional? (fun given _ => isBlank_color given) givesColor)

mutual

/-- A well formed tree is written in full. -/
theorem statement_shown {registry after : Registry} {depth : Nat} {code : Code} :
    ∀ {node : Layout}, (∀ inner ∈ node.preorder, inner.WellFormed) →
    (statement options depth node).Gives registry code after → Shown options depth node code
  | ⟨name, modifiers, children, kind⟩, formed, gives => by
      rw [Layout.preorder] at formed
      have own : Layout.WellFormed ⟨name, modifiers, children, kind⟩ :=
        formed _ List.mem_cons_self
      rw [statement] at gives
      obtain ⟨modifier, _, givesModifier, gives⟩ := gives_bind.mp gives
      obtain ⟨parameters, _, givesParameters, gives⟩ := gives_bind.mp gives
      obtain ⟨calls, _, givesCalls, written⟩ := gives_bind.mp givesModifier
      obtain ⟨rfl, -⟩ : callParameter options depth calls = modifier ∧ _ := gives_pure.mp written
      have callsShown := modifierCalls_shown own (List.Subset.refl modifiers) givesCalls
      have parametersShown := kindShown
        (fun spacing member => Property.isBlank_eq_false_of_pos (own.spaced spacing member))
        givesParameters
      split at gives
      case isTrue isText =>
        obtain ⟨rfl, -⟩ := gives_pure.mp gives
        obtain rfl : children = [] := own.childless isText
        cases kind with
        | text content => exact .text callsShown parametersShown
        | row _ _ | flowRow _ _ | column _ _ | box _ => cases isText
      case isFalse isContainer =>
        obtain ⟨body, _, givesBody, gives⟩ := gives_bind.mp gives
        obtain ⟨rfl, -⟩ := gives_pure.mp gives
        exact .container (Bool.not_eq_true _ ▸ isContainer) callsShown parametersShown
          (statements_shown (fun inner member => formed inner (List.mem_cons_of_mem _ member))
            givesBody)

/-- List counterpart of statement_shown. -/
theorem statements_shown {registry after : Registry} {depth : Nat} {code : Code} :
    ∀ {nodes : List Layout}, (∀ inner ∈ Layout.preorderList nodes, inner.WellFormed) →
    (statements options depth nodes).Gives registry code after → ListShown options depth nodes code
  | [], formed, gives => by
      rw [statements] at gives
      obtain ⟨rfl, -⟩ := gives_pure.mp gives
      exact .nil
  | node :: rest, formed, gives => by
      rw [Layout.preorderList] at formed
      rw [statements] at gives
      obtain ⟨first, _, givesFirst, gives⟩ := gives_bind.mp gives
      obtain ⟨others, _, givesOthers, gives⟩ := gives_bind.mp gives
      obtain ⟨rfl, -⟩ := gives_pure.mp gives
      exact .cons
        (statement_shown (fun inner member => formed inner (List.mem_append_left _ member))
          givesFirst)
        (statements_shown (fun inner member => formed inner (List.mem_append_right _ member))
          givesOthers)

end

end statements

end Source

namespace Document

variable {document : Document}

end Document

end DesignLayout
