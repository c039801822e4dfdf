import DesignLayout.Proofs.DesignValues
import DesignLayout.Proofs.FiniteDocuments
import DesignLayout.Proofs.LayoutForm

/-!
# The numbers in the layout of a document

A layout takes its numbers from the document as they are, with one exception:
where a paint has the color of a variable, the alpha of the variable is
multiplied by the opacity of the paint.  So all numbers in the layout of a
document with finite numbers are finite but for these products, each of which
may be too large.
-/

namespace DesignLayout

/-- The numbers of a value. -/
def Primitive.numbers : Primitive → List Float
  | .number value => [value]
  | .text _ => []
  | .color value => value.channels
  | .font value => value.numbers

namespace Document

/-- A color is that of a variable, with its alpha multiplied by the opacity of
some paint.  The two are finite, and the product is not. -/
def Overflows (document : Document) (color : Color) : Prop :=
  ∃ id entry own opacity, document.variable? id .color = some entry ∧
    entry.value = some (.color own) ∧ own.IsFinite ∧ finiteNumber opacity = true ∧
    color = own.setAlpha (own.alpha * opacity) ∧ finiteNumber color.alpha = false

/-- A value has finite numbers, or it is a color with too large an alpha. -/
def Allows (document : Document) (value : DesignValue) : Prop :=
  (∀ number ∈ value.property.value.numbers, finiteNumber number = true) ∨
    ∃ color, value.property.value = .color color ∧ document.Overflows color

end Document

section sides

variable {α β γ : Type} {combine : α → β → γ} {holds : α → Prop} {result : γ → Prop}

theorem Corners.forall_zipWith {left : Corners α} (each : ∀ corner ∈ left.toList, holds corner)
    (combined : ∀ corner other, holds corner → result (combine corner other))
    (right : Corners β) : ∀ corner ∈ (left.zipWith combine right).toList, result corner := by
  simp only [toList, List.forall_mem_cons] at each
  obtain ⟨topLeft, topRight, bottomRight, bottomLeft, -⟩ := each
  simp [zipWith, toList, combined _ _ topLeft, combined _ _ topRight, combined _ _ bottomRight,
    combined _ _ bottomLeft]

theorem Edges.forall_zipWith {left : Edges α} (each : ∀ edge ∈ left.toList, holds edge)
    (combined : ∀ edge other, holds edge → result (combine edge other))
    (right : Edges β) : ∀ edge ∈ (left.zipWith combine right).toList, result edge := by
  simp only [toList, List.forall_mem_cons] at each
  obtain ⟨leftHolds, topHolds, rightHolds, bottomHolds, -⟩ := each
  simp [zipWith, toList, combined _ _ leftHolds, combined _ _ topHolds, combined _ _ rightHolds,
    combined _ _ bottomHolds]

end sides

theorem Color.isFinite_setAlpha {color : Color} (finite : color.IsFinite) {alpha : Float}
    (alphaFinite : finiteNumber alpha = true) : (color.setAlpha alpha).IsFinite := by
  have red := finite color.red (by simp [channels])
  have green := finite color.green (by simp [channels])
  have blue := finite color.blue (by simp [channels])
  simp [IsFinite, channels, setAlpha, red, green, blue, alphaFinite]

namespace Paint

variable {paint : Paint}

theorem IsFinite.strength (finite : paint.IsFinite) : finiteNumber paint.strength = true := by
  rw [Paint.strength]
  cases said : paint.opacity with
  | none => decide
  | some opacity => exact finite.opacity opacity said

theorem IsFinite.solid? (finite : paint.IsFinite) {color : Color}
    (found : paint.solid? = some color) : color.IsFinite := by
  unfold Paint.solid? at found
  split at found
  case h_1 own _ said =>
    cases found
    exact Color.isFinite_setAlpha (finite.color own said) finite.strength
  case h_2 => cases found

end Paint

namespace Document.IsFinite

variable {document : Document}

theorem of_variable? (finite : document.IsFinite) {id : String} {type : VariableKind}
    {entry : Variable} (found : document.variable? id type = some entry) : entry.IsFinite := by
  obtain ⟨found, -⟩ := Option.filter_eq_some_iff.mp found
  exact finite.values (id, entry) (OrderedMap.mem_of_lookup found)

theorem dimension (finite : document.IsFinite) {own : Float} (ownFinite : finiteNumber own = true)
    (binding : Option String) : finiteNumber (document.dimension own binding).value = true := by
  unfold Document.dimension
  split
  case h_1 => exact ownFinite
  case h_2 id =>
    split
    case h_2 => exact ownFinite
    case h_1 entry found =>
      rw [Property.value_linked, Variable.numberOr]
      split
      case h_2 => exact ownFinite
      case h_1 number said => exact finite.of_variable? found _ said

section colors

variable {color : Property Color}

theorem soleColor? (finite : document.IsFinite) {paints : List Paint}
    (paintsFinite : ∀ paint ∈ paints, paint.IsFinite)
    (found : document.soleColor? paints = some color) :
    color.value.IsFinite ∨ document.Overflows color.value := by
  unfold Document.soleColor? at found
  split at found
  case h_2 => cases found
  case h_1 paint only =>
    have paintFinite : paint.IsFinite := by
      apply paintsFinite
      have member : paint ∈ paints.filter Paint.visible := only ▸ List.mem_singleton_self paint
      exact (List.mem_filter.mp member).1
    obtain ⟨own, ownFound, found⟩ := Option.bind_eq_some_iff.mp found
    have ownFinite := paintFinite.solid? ownFound
    split at found
    case h_1 =>
      cases found
      exact .inl ownFinite
    case h_2 id _ =>
      split at found
      case h_2 =>
        cases found
        exact .inl ownFinite
      case h_1 entry entryFound =>
        cases found
        rw [Property.value_linked, Variable.colorOr]
        split
        case h_2 => exact .inl ownFinite
        case h_1 value said =>
          have valueFinite : value.IsFinite := finite.of_variable? entryFound _ said
          -- This product is the only arithmetic on the way, and it may overflow.
          cases product : finiteNumber (value.alpha * paint.strength) with
          | true => exact .inl (Color.isFinite_setAlpha valueFinite product)
          | false =>
              exact .inr ⟨id, entry, value, paint.strength, entryFound, said, valueFinite,
                paintFinite.strength, rfl, product⟩

theorem colorOf? (finite : document.IsFinite) {paints : Option (List Paint)}
    {style : Option String} (paintsFinite : ∀ given ∈ paints, ∀ paint ∈ given, paint.IsFinite)
    (found : document.colorOf? paints style = some color) :
    color.value.IsFinite ∨ document.Overflows color.value := by
  have own : paints.bind document.soleColor? = some color →
      color.value.IsFinite ∨ document.Overflows color.value := by
    intro found
    obtain ⟨given, same, found⟩ := Option.bind_eq_some_iff.mp found
    exact finite.soleColor? (paintsFinite given same) found
  unfold Document.colorOf? at found
  split at found
  case h_1 => exact own found
  case h_2 id _ =>
    split at found
    case h_2 => exact own found
    case h_1 name layers styleFound =>
      obtain ⟨layer, first, found⟩ := Option.bind_eq_some_iff.mp found
      obtain ⟨solid, solidFound, found⟩ := Option.bind_eq_some_iff.mp found
      cases found
      have layersFinite : ∀ layer ∈ layers, layer.IsFinite :=
        finite.styles (id, .paint name layers) (OrderedMap.mem_of_lookup styleFound)
      exact .inl ((layersFinite layer (List.mem_of_mem_head? first)).solid? solidFound)

end colors

end Document.IsFinite

namespace DesignValue

variable {document : Document} {category : Category}

theorem value_property_of {α : Type} [ToPrimitive α] (category : Category) (property : Property α) :
    (of category property).property.value = toPrimitive property.value := by
  cases property <;> rfl

theorem allows_dimension {length : Dimension} (finite : finiteNumber length.value = true) :
    document.Allows (.of category length) := by
  refine .inl ?_
  rw [value_property_of]
  simpa [toPrimitive, Primitive.numbers] using finite

theorem allows_color {color : Property Color}
    (known : color.value.IsFinite ∨ document.Overflows color.value) :
    document.Allows (.of category color) := by
  rw [Document.Allows, value_property_of]
  exact known.imp_right fun overflows => ⟨color.value, rfl, overflows⟩

theorem allows_font {style : Property Typography}
    (finite : ∀ number ∈ style.value.numbers, finiteNumber number = true) :
    document.Allows (.of category style) := by
  refine .inl ?_
  rw [value_property_of]
  exact finite

end DesignValue

namespace Document

variable {document : Document} {scope : Scope}

section frames

variable {frame : Frame} {layout : AutoLayout}

theorem allows_shapeValues {shape : Option Shape}
    (finite : ∀ given ∈ shape, ∀ corner ∈ given.toList, finiteNumber corner.value = true) :
    ∀ value ∈ shapeValues shape, document.Allows value := by
  intro value member
  obtain ⟨given, same, member⟩ := List.mem_flatMap.mp member
  obtain ⟨corner, cornerMember, rfl⟩ := List.mem_map.mp member
  exact DesignValue.allows_dimension (finite given (Option.mem_toList.mp same) corner cornerMember)

theorem allows_dimensionValues {length : Option Dimension}
    (finite : ∀ given ∈ length, finiteNumber given.value = true) :
    ∀ value ∈ dimensionValues length, document.Allows value := by
  intro value member
  obtain ⟨given, same, rfl⟩ := List.mem_map.mp member
  exact DesignValue.allows_dimension (finite given (Option.mem_toList.mp same))

theorem values_stretch? (scope : Scope) (horizontal vertical : Sizing) :
    (stretch? scope horizontal vertical).toList.flatMap Modifier.values = [] := by
  cases scope <;> simp only [stretch?] <;> repeat' split
  all_goals rfl

theorem allows_sizeModifiers {horizontal vertical : Sizing} {width height : Float}
    (widthFinite : finiteNumber width = true) (heightFinite : finiteNumber height = true) :
    ∀ value ∈ (sizeModifiers horizontal vertical width height).flatMap Modifier.values,
      document.Allows value := by
  have fixed : ∀ {sizing : Sizing} {length found : Float}, finiteNumber length = true →
      fixedLength? sizing length = some found →
      document.Allows (.of .padding (.own found : Dimension)) := by
    intro sizing length found finite given
    rw [fixedLength?] at given
    split at given
    · cases given
      exact DesignValue.allows_dimension finite
    · cases given
  unfold sizeModifiers
  split
  case h_1 across down =>
    split
    · simpa [Modifier.values] using fixed widthFinite across
    · simpa [Modifier.values] using ⟨fixed widthFinite across, fixed heightFinite down⟩
  case h_2 across _ => simpa [Modifier.values] using fixed widthFinite across
  case h_3 _ down => simpa [Modifier.values] using fixed heightFinite down
  case h_4 => simp

theorem IsFinite.radii (finite : document.IsFinite) (frameFinite : frame.IsFinite) :
    ∀ corner ∈ (document.radii frame).toList, finiteNumber corner.value = true :=
  Corners.forall_zipWith frameFinite.radii
    (fun _ binding ownFinite => finite.dimension ownFinite binding) frame.bindings.radii

theorem IsFinite.border? (finite : document.IsFinite) (frameFinite : frame.IsFinite)
    {border : Border} (found : document.border? frame = some border) :
    (border.color.value.IsFinite ∨ document.Overflows border.color.value) ∧
      ∀ width ∈ border.width, finiteNumber width.value = true := by
  obtain ⟨color, colorFound, found⟩ := Option.bind_eq_some_iff.mp found
  have known := finite.colorOf? (by simpa using frameFinite.strokes) colorFound
  split at found
  case h_1 =>
    cases found
    exact ⟨known, by simp⟩
  case h_2 => cases found
  case h_3 weight said =>
    split at found
    case isTrue => cases found
    case isFalse =>
      cases found
      have weightFinite := frameFinite.strokeWidth _ said weight rfl
      exact ⟨known, by simpa using finite.dimension weightFinite _⟩

theorem of_autoLayout? (found : document.autoLayout? frame = some layout) :
    layout.spacing = document.dimension frame.spacing frame.bindings.spacing ∧
      layout.lineSpacing = frame.lineSpacing.map (fun spacing =>
        document.dimension spacing frame.bindings.lineSpacing) ∧
      layout.padding = frame.padding.zipWith document.dimension frame.bindings.padding := by
  unfold Document.autoLayout? at found
  generalize frame.mode = mode, frame.wrap = wrap at found
  cases mode <;> cases wrap <;> cases found <;> exact ⟨rfl, rfl, rfl⟩

theorem IsFinite.autoLayout? (finite : document.IsFinite) (frameFinite : frame.IsFinite)
    (found : document.autoLayout? frame = some layout) :
    finiteNumber layout.spacing.value = true ∧
      (∀ spacing ∈ layout.lineSpacing, finiteNumber spacing.value = true) ∧
      ∀ edge ∈ layout.padding.toList, finiteNumber edge.value = true := by
  obtain ⟨spacing, lineSpacing, padding⟩ := of_autoLayout? found
  rw [spacing, lineSpacing, padding]
  refine ⟨finite.dimension frameFinite.spacing _, ?_, ?_⟩
  · intro spacing given
    obtain ⟨own, said, rfl⟩ := Option.map_eq_some_iff.mp given
    exact finite.dimension (frameFinite.lineSpacing own said) _
  · exact Edges.forall_zipWith frameFinite.padding
      (fun _ binding ownFinite => finite.dimension ownFinite binding) frame.bindings.padding

theorem mem_of_padding? {sides : Padding} {length : Dimension}
    (found : layout.padding? = some sides) (member : some length ∈ sides.toList) :
    length ∈ layout.padding.toList := by
  have kept : ∀ edge : Dimension, some length = (if edge.isBlank then none else some edge) →
      length = edge := by
    intro edge same
    split at same
    · cases same
    · exact Option.some.inj same
  rw [AutoLayout.padding?] at found
  split at found
  · cases found
  · cases found
    simp only [Edges.map, Edges.toList, List.mem_cons, List.not_mem_nil, or_false] at member ⊢
    rcases member with left | top | right | bottom
    · exact .inl (kept _ left)
    · exact .inr (.inl (kept _ top))
    · exact .inr (.inr (.inl (kept _ right)))
    · exact .inr (.inr (.inr (kept _ bottom)))

theorem IsFinite.shape? (finite : document.IsFinite) (frameFinite : frame.IsFinite) :
    ∀ given ∈ (document.radii frame).shape?, ∀ corner ∈ given.toList,
      finiteNumber corner.value = true := by
  intro given same
  rw [Corners.shape?] at same
  split at same
  · cases same
  · cases same
    exact finite.radii frameFinite

theorem allows_background (finite : document.IsFinite) (frameFinite : frame.IsFinite)
    {color : Property Color} (found : document.background? frame = some color) :
    ∀ value ∈ (Modifier.background color (document.radii frame).shape?).values,
      document.Allows value := by
  intro value member
  rcases List.mem_cons.mp member with rfl | corner
  · exact DesignValue.allows_color (finite.colorOf? frameFinite.fills found)
  · exact allows_shapeValues (finite.shape? frameFinite) value corner

theorem allows_border (finite : document.IsFinite) (frameFinite : frame.IsFinite)
    {border : Border} (found : document.border? frame = some border) :
    ∀ value ∈ (Modifier.border border.color
      ((document.background? frame).bind fun _ => (document.radii frame).shape?)
      border.width).values, document.Allows value := by
  obtain ⟨known, widthFinite⟩ := finite.border? frameFinite found
  intro value member
  rcases List.mem_cons.mp member with rfl | others
  · exact DesignValue.allows_color known
  · rcases List.mem_append.mp others with width | corner
    · exact allows_dimensionValues widthFinite value width
    · refine allows_shapeValues ?_ value corner
      intro shape same
      obtain ⟨_, -, same⟩ := Option.bind_eq_some_iff.mp same
      exact finite.shape? frameFinite shape same

theorem allows_padding (finite : document.IsFinite) (frameFinite : frame.IsFinite)
    (found : document.autoLayout? frame = some layout) {sides : Padding}
    (sidesFound : layout.padding? = some sides) :
    ∀ value ∈ (Modifier.padding sides).values, document.Allows value := by
  obtain ⟨-, -, edges⟩ := finite.autoLayout? frameFinite found
  intro value member
  obtain ⟨side, sideMember, inside⟩ := List.mem_flatMap.mp member
  refine allows_dimensionValues ?_ value inside
  rintro length rfl
  exact edges length (mem_of_padding? sidesFound sideMember)

theorem allows_frameModifiers (finite : document.IsFinite) (frameFinite : frame.IsFinite)
    (found : document.autoLayout? frame = some layout) :
    ∀ value ∈ (document.frameModifiers scope frame layout).flatMap Modifier.values,
      document.Allows value := by
  have mapped : ∀ {α : Type} {given : Option α} {modifier : α → Modifier},
      (∀ inner, given = some inner → ∀ value ∈ (modifier inner).values, document.Allows value) →
      ∀ value ∈ (given.map modifier).toList.flatMap Modifier.values, document.Allows value := by
    intro α given modifier each value member
    cases given with
    | none => cases member
    | some inner => exact each inner rfl value (by simpa using member)
  intro value member
  simp only [frameModifiers, List.flatMap_append, List.mem_append, values_stretch?,
    List.not_mem_nil, false_or] at member
  rcases member with ((background | border) | padding) | size
  · exact mapped (fun _ given => allows_background finite frameFinite given) value background
  · exact mapped (fun _ given => allows_border finite frameFinite given) value border
  · exact mapped (fun _ given => allows_padding finite frameFinite found given) value padding
  · exact allows_sizeModifiers frameFinite.width frameFinite.height value size

theorem allows_kind (finite : document.IsFinite) (frameFinite : frame.IsFinite)
    (found : document.autoLayout? frame = some layout) (childCount : Nat) :
    ∀ value ∈ (layout.kind frame childCount).values, document.Allows value := by
  obtain ⟨spacing, lineSpacing, -⟩ := finite.autoLayout? frameFinite found
  have arranged : ∀ {α : Type} [DecidableEq α] (placement : Option α) (given : Option Dimension)
      (spaceBetween : α), (∀ length ∈ given, finiteNumber length.value = true) →
      ∀ value ∈ arrangementValues (arrangement? placement given spaceBetween),
        document.Allows value := by
    intro α _ placement given spaceBetween finite value member
    unfold arrangement? at member
    split at member
    · cases member
    · split at member
      case h_1 length kept =>
        obtain rfl := List.mem_singleton.mp member
        exact DesignValue.allows_dimension (finite length (Option.filter_eq_some_iff.mp kept).1)
      case h_2 => cases placement <;> cases member
  have spaced : ∀ length ∈ some layout.spacing, finiteNumber length.value = true := by
    rintro length ⟨⟩
    exact spacing
  simp only [AutoLayout.kind]
  split
  · split
    · exact fun value member => (List.mem_append.mp member).elim (arranged _ _ _ spaced value)
        (arranged _ _ _ lineSpacing value)
    · exact arranged _ _ _ spaced
  · split
    · exact arranged _ _ _ spaced
    · intro value member
      cases member

end frames

section texts

variable {run : TextRun} {text : TextAppearance}

theorem IsFinite.ownFont? (runFinite : run.IsFinite) {font : Typography}
    (found : run.ownFont? = some font) : ∀ number ∈ font.numbers, finiteNumber number = true := by
  obtain ⟨size, sizeFound, found⟩ := Option.bind_eq_some_iff.mp found
  obtain ⟨weight, weightFound, found⟩ := Option.bind_eq_some_iff.mp found
  obtain ⟨decoration, -, found⟩ := Option.bind_eq_some_iff.mp found
  obtain ⟨face, -, found⟩ := Option.bind_eq_some_iff.mp found
  obtain ⟨letterSpacing, letterSpacingFound, found⟩ := Option.bind_eq_some_iff.mp found
  obtain ⟨lineHeight, lineHeightFound, found⟩ := Option.bind_eq_some_iff.mp found
  obtain ⟨letterCase, -, found⟩ := Option.bind_eq_some_iff.mp found
  cases found
  intro number member
  rcases List.mem_append.mp member with own | height
  · simp only [List.mem_cons, List.not_mem_nil, or_false] at own
    rcases own with rfl | rfl | rfl
    · exact runFinite.size _ sizeFound
    · exact runFinite.weight _ weightFound
    · exact runFinite.letterSpacing _ letterSpacingFound
  · exact runFinite.lineHeight _ lineHeightFound number height

theorem IsFinite.font? (finite : document.IsFinite) (runFinite : run.IsFinite)
    {style : Property Typography} (found : document.font? run = some style) :
    ∀ number ∈ style.value.numbers, finiteNumber number = true := by
  have own : run.ownFont?.map .own = some style →
      ∀ number ∈ style.value.numbers, finiteNumber number = true := by
    intro found
    obtain ⟨font, ownFound, rfl⟩ := Option.map_eq_some_iff.mp found
    exact IsFinite.ownFont? runFinite ownFound
  unfold Document.font? at found
  split at found
  case h_2 => exact own found
  case h_1 id weight _ weightSaid =>
    split at found
    case isTrue => exact own found
    case isFalse =>
      split at found
      case h_2 => exact own found
      case h_1 shared styleFound =>
        cases found
        have styleFinite : shared.IsFinite :=
          finite.styles (id, .text shared) (OrderedMap.mem_of_lookup styleFound)
        intro number member
        rcases List.mem_append.mp member with said | height
        · simp only [TypeStyle.font, Property.value_linked, List.mem_cons, List.not_mem_nil,
            or_false] at said
          rcases said with rfl | rfl | rfl
          · exact styleFinite.size
          · exact runFinite.weight _ (by rw [weightSaid]; rfl)
          · exact styleFinite.letterSpacing
        · exact styleFinite.lineHeight number height

theorem allows_text (finite : document.IsFinite) (runFinite : run.IsFinite)
    (found : document.text? run = some text) :
    ∀ value ∈ (LayoutKind.text text.content).values, document.Allows value := by
  obtain ⟨style, styleFound, found⟩ := Option.bind_eq_some_iff.mp found
  obtain ⟨fills, fillsFound, found⟩ := Option.bind_eq_some_iff.mp found
  cases found
  intro value member
  rcases List.mem_cons.mp member with rfl | colored
  · exact DesignValue.allows_font (finite.font? runFinite styleFound)
  · obtain ⟨color, colorFound, rfl⟩ := List.mem_map.mp colored
    exact DesignValue.allows_color
      (finite.colorOf? (by simpa using runFinite.fills fills fillsFound)
        (Option.mem_toList.mp colorFound))

theorem allows_textModifiers (runFinite : run.IsFinite) :
    ∀ value ∈ (run.modifiers scope).flatMap Modifier.values, document.Allows value := by
  intro value member
  simp only [TextRun.modifiers, List.flatMap_append, List.mem_append, values_stretch?,
    List.not_mem_nil, false_or] at member
  rcases member with baseline | size
  · split at baseline <;> cases baseline
  · exact allows_sizeModifiers runFinite.width runFinite.height value size

end texts

theorem weight_of_mem_stretch? {horizontal vertical : Sizing} {weight : Float}
    (member : .weight weight ∈ stretch? scope horizontal vertical) : weight = 1.0 := by
  cases scope <;> simp only [stretch?] at member <;> repeat' split at member
  all_goals cases member
  all_goals rfl

theorem weight_of_place? {source : Scene} {laidOut : Layout} {weight : Float}
    (placed : document.place? scope source = some laidOut)
    (member : .weight weight ∈ laidOut.modifiers) : weight = 1.0 := by
  cases source with
  | frame frame children =>
      obtain ⟨-, layout, -, rfl⟩ := place?_frame_eq_some.mp placed
      have growth : Modifier.weight weight ∈
          (document.frameModifiers scope frame layout).filter Modifier.isGrowth :=
        List.mem_filter.mpr ⟨member, rfl⟩
      rw [filter_isGrowth_frameModifiers, Option.mem_toList] at growth
      exact weight_of_mem_stretch? growth
  | text run =>
      obtain ⟨-, text, -, rfl⟩ := place?_text_eq_some.mp placed
      simp only [TextRun.modifiers, List.mem_append, Option.mem_toList] at member
      rcases member with (growth | baseline) | size
      · exact weight_of_mem_stretch? growth
      · split at baseline <;> simp at baseline
      · have layer := (sizes_sizeModifiers _ _ _ _).layer_eq size
        cases layer
  | unsupported =>
      rw [place?] at placed
      cases placed

theorem IsFinite.allows_place? (finite : document.IsFinite) {source : Scene} {laidOut : Layout}
    (sourceFinite : source.IsFinite) (placed : document.place? scope source = some laidOut) :
    ∀ value ∈ laidOut.modifiers.flatMap Modifier.values ++ laidOut.kind.values,
      document.Allows value := by
  intro value member
  cases source with
  | frame frame children =>
      obtain ⟨-, layout, found, rfl⟩ := place?_frame_eq_some.mp placed
      rcases List.mem_append.mp member with modifier | kind
      · exact allows_frameModifiers finite sourceFinite found value modifier
      · exact allows_kind finite sourceFinite found children.length value kind
  | text run =>
      obtain ⟨-, text, found, rfl⟩ := place?_text_eq_some.mp placed
      rcases List.mem_append.mp member with modifier | kind
      · exact allows_textModifiers sourceFinite value modifier
      · exact allows_text finite sourceFinite found value kind
  | unsupported =>
      rw [place?] at placed
      cases placed

end Document

namespace Layout

mutual

/-- Every value of a tree is a value of one of its nodes. -/
theorem exists_node_of_mem_values : ∀ {root : Layout} {value : DesignValue}, value ∈ root.values →
    ∃ node ∈ root.preorder,
      value ∈ node.modifiers.flatMap Modifier.values ++ node.kind.values
  | ⟨name, modifiers, children, kind⟩, value, member => by
      rw [values] at member
      rw [preorder]
      rcases List.mem_append.mp member with own | below
      · exact ⟨_, List.mem_cons_self, own⟩
      · split at below
        · cases below
        · obtain ⟨node, nodeMember, inside⟩ := exists_node_of_mem_valuesList below
          exact ⟨node, List.mem_cons_of_mem _ nodeMember, inside⟩

/-- List counterpart of exists_node_of_mem_values. -/
theorem exists_node_of_mem_valuesList : ∀ {nodes : List Layout} {value : DesignValue},
    value ∈ valuesList nodes → ∃ node ∈ preorderList nodes,
      value ∈ node.modifiers.flatMap Modifier.values ++ node.kind.values
  | [], value, member => by
      rw [valuesList] at member
      cases member
  | first :: rest, value, member => by
      rw [valuesList] at member
      rw [preorderList]
      rcases List.mem_append.mp member with own | later
      · obtain ⟨node, nodeMember, inside⟩ := exists_node_of_mem_values own
        exact ⟨node, List.mem_append_left _ nodeMember, inside⟩
      · obtain ⟨node, nodeMember, inside⟩ := exists_node_of_mem_valuesList later
        exact ⟨node, List.mem_append_right _ nodeMember, inside⟩

end

end Layout

namespace Document

variable {document : Document} {root : Layout}

theorem allows_layout? (finite : document.IsFinite) (laidOut : document.layout? = some root) :
    ∀ value ∈ root.values, document.Allows value := by
  intro value member
  obtain ⟨node, nodeMember, inside⟩ := Layout.exists_node_of_mem_values member
  obtain ⟨origin, originMember, scope, placed⟩ := exists_source laidOut node nodeMember
  exact finite.allows_place? (finite.nodes origin originMember) placed value inside

theorem weight_of_layout? (laidOut : document.layout? = some root) {node : Layout}
    (nodeMember : node ∈ root.preorder) {weight : Float}
    (member : .weight weight ∈ node.modifiers) : weight = 1.0 := by
  obtain ⟨origin, -, scope, placed⟩ := exists_source laidOut node nodeMember
  exact weight_of_place? placed member

end Document

end DesignLayout
