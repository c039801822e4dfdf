import DesignLayout.Proofs.Placement
import DesignLayout.Proofs.ScopeSafety

/-!
# The form of a laid out node

The modifiers of a node come in a fixed order, each kind at most once, and
none of them stands for nothing: sizes and widths are not zero, a padding has
a side, a shape has a corner, and a space between children is above zero.  A
link counts as something, whatever value it last had.
-/

namespace DesignLayout

/-- Whether a length is a zero of its own. -/
def Property.IsZero (length : Dimension) : Prop :=
  ∃ value, length = .own value ∧ (value == 0.0) = true

theorem Property.isBlank_iff_isZero {length : Dimension} :
    length.isBlank = true ↔ length.IsZero := by
  cases length with
  | linked link => simp [IsZero]
  | own value => simp [IsZero, isBlank, DesignLayout.toPrimitive, Primitive.isBlank]

theorem Property.not_isZero_own {value : Float} (notZero : (value != 0.0) = true) :
    ¬ IsZero (own value) := by
  rw [← isBlank_iff_isZero, Bool.not_eq_true]
  rwa [bne, Bool.not_eq_true'] at notZero

/-- What a modifier is about. -/
inductive Layer where
  | growth
  | baseline
  | background
  | border
  | padding
  | size
  deriving DecidableEq, Repr

namespace Modifier

def layer : Modifier → Layer
  | .weight _ => .growth
  | .fillMax _ => .growth
  | .baseline => .baseline
  | .background _ _ => .background
  | .border _ _ _ => .border
  | .padding _ => .padding
  | .size _ _ => .size

/-- The shape of a background or a border. -/
def shape? : Modifier → Option Shape
  | .background _ shape => shape
  | .border _ shape _ => shape
  | _ => none

/-- Only a background or a border has a shape. -/
theorem layer_ne_of_shape? {modifier : Modifier} {shape : Shape}
    (given : modifier.shape? = some shape) :
    modifier.layer ≠ .growth ∧ modifier.layer ≠ .size := by
  cases modifier with
  | background _ _ | border _ _ _ => simp [layer]
  | weight _ | fillMax _ | baseline | padding _ | size _ _ => cases given

end Modifier

def Arrangement.spacing? {α : Type} : Arrangement α → Option Dimension
  | .spaced spacing => some spacing
  | .placed _ => none

namespace LayoutKind

/-- What the modifiers of a kind are about before its sizes, in their order. -/
def layers : LayoutKind → List Layer
  | .text _ => [.growth, .baseline]
  | _ => [.growth, .background, .border, .padding]

theorem layers_of_container {kind : LayoutKind} (container : kind.holdsText = false) :
    kind.layers = [.growth, .background, .border, .padding] := by
  cases kind with
  | text content => cases container
  | row _ _ | flowRow _ _ | column _ _ | box _ => rfl

theorem size_not_mem_layers (kind : LayoutKind) : Layer.size ∉ kind.layers := by
  cases kind <;> simp [layers]

/-- The spaces that a kind puts between its children. -/
def spacings : LayoutKind → List Dimension
  | .row arrangement _ => (arrangement.bind Arrangement.spacing?).toList
  | .flowRow horizontal vertical =>
    (horizontal.bind Arrangement.spacing?).toList ++ (vertical.bind Arrangement.spacing?).toList
  | .column arrangement _ => (arrangement.bind Arrangement.spacing?).toList
  | _ => []

end LayoutKind

/-- Sizes are the node's own and not zero: none, one for both axes, one for an
axis, or different ones for the two axes. -/
inductive Sizes : List Modifier → Prop where
  | none : Sizes []
  | both {length : Float} : (length != 0.0) = true → Sizes [.size .both (.own length)]
  | width {width : Float} : (width != 0.0) = true → Sizes [.size .width (.own width)]
  | height {height : Float} : (height != 0.0) = true → Sizes [.size .height (.own height)]
  | apart {width height : Float} : (width != 0.0) = true → (height != 0.0) = true →
      (width == height) = false →
      Sizes [.size .width (.own width), .size .height (.own height)]

namespace Sizes

variable {sizes : List Modifier}

theorem layer_eq (sized : Sizes sizes) {modifier : Modifier} (member : modifier ∈ sizes) :
    modifier.layer = .size := by
  cases sized <;> simp at member
  case both => rw [member]; rfl
  case width => rw [member]; rfl
  case height => rw [member]; rfl
  case apart => rcases member with rfl | rfl <;> rfl

theorem not_isZero (sized : Sizes sizes) {extent : Extent} {length : Dimension}
    (member : .size extent length ∈ sizes) : ¬ length.IsZero := by
  cases sized <;> simp at member
  case both notZero =>
    rw [member.2]
    exact Property.not_isZero_own notZero
  case width notZero =>
    rw [member.2]
    exact Property.not_isZero_own notZero
  case height notZero =>
    rw [member.2]
    exact Property.not_isZero_own notZero
  case apart widthNotZero heightNotZero _ =>
    rcases member with given | given
    · rw [given.2]
      exact Property.not_isZero_own widthNotZero
    · rw [given.2]
      exact Property.not_isZero_own heightNotZero

end Sizes

structure Layout.WellFormed (node : Layout) : Prop where
  childless : node.holdsText = true → node.children = []
  ordered : ∃ others sizes, node.modifiers = others ++ sizes ∧
    (others.map Modifier.layer).Sublist node.kind.layers ∧ Sizes sizes
  padded : ∀ sides, .padding sides ∈ node.modifiers →
    (∃ side, some side ∈ sides.toList) ∧ ∀ side, some side ∈ sides.toList → ¬ side.IsZero
  rounded : ∀ modifier ∈ node.modifiers, ∀ shape, modifier.shape? = some shape →
    ∃ corner ∈ shape.toList, ¬ corner.IsZero
  bordered : ∀ color shape width, .border color shape width ∈ node.modifiers →
    (shape ≠ none → ∃ ground, .background ground shape ∈ node.modifiers) ∧
      (∀ ground other, .background ground other ∈ node.modifiers → shape = other) ∧
      ∀ length, width = some length → ¬ length.IsZero
  spaced : ∀ spacing ∈ node.kind.spacings, spacing.value > 0.0

section parts

variable {horizontal vertical : Sizing}

theorem fixedLength?_eq_some {sizing : Sizing} {length fixed : Float}
    (found : fixedLength? sizing length = some fixed) : (fixed != 0.0) = true := by
  rw [fixedLength?] at found
  split at found
  case isTrue given =>
    obtain rfl := Option.some.inj found
    exact (Bool.and_eq_true_iff.mp given).2
  case isFalse => cases found

theorem sizes_sizeModifiers (horizontal vertical : Sizing) (width height : Float) :
    Sizes (sizeModifiers horizontal vertical width height) := by
  rw [sizeModifiers]
  split
  case h_1 across down =>
    have acrossSize := fixedLength?_eq_some across
    have downSize := fixedLength?_eq_some down
    split
    case isTrue => exact .both acrossSize
    case isFalse different => exact .apart acrossSize downSize (by simpa using different)
  case h_2 across _ => exact .width (fixedLength?_eq_some across)
  case h_3 _ down => exact .height (fixedLength?_eq_some down)
  case h_4 => exact .none

theorem layer_of_mem_stretch? {scope : Scope} {modifier : Modifier}
    (member : modifier ∈ stretch? scope horizontal vertical) : modifier.layer = .growth := by
  cases scope <;> simp only [stretch?] at member <;> repeat' split at member
  all_goals first | (obtain rfl := Option.some.inj member; rfl) | cases member

/-- What may be there once is about one thing. -/
theorem layers_toList {modifier : Option Modifier} {layer : Layer}
    (about : ∀ given ∈ modifier, given.layer = layer) :
    (modifier.toList.map Modifier.layer).Sublist [layer] := by
  cases modifier with
  | none => exact List.nil_sublist _
  | some given =>
      rw [Option.toList_some, List.map_singleton, about given rfl]

end parts

namespace Document

variable {document : Document} {scope : Scope} {frame : Frame} {layout : AutoLayout}

section modifiers

variable {color : Property Color} {shape : Option Shape} {width : Option Dimension}

/-- A modifier of a frame, by what it is about. -/
theorem of_mem_frameModifiers {modifier : Modifier}
    (member : modifier ∈ document.frameModifiers scope frame layout) :
    modifier.layer = .growth ∨
      (∃ color, document.background? frame = some color ∧
        modifier = .background color (document.radii frame).shape?) ∨
      (∃ border, document.border? frame = some border ∧
        modifier = .border border.color
          ((document.background? frame).bind fun _ => (document.radii frame).shape?)
          border.width) ∨
      (∃ sides, layout.padding? = some sides ∧ modifier = .padding sides) ∨
      modifier.layer = .size := by
  simp only [frameModifiers, List.mem_append, Option.mem_toList] at member
  rcases member with (((growth | background) | border) | padding) | size
  · exact .inl (layer_of_mem_stretch? growth)
  · obtain ⟨color, found, rfl⟩ := Option.map_eq_some_iff.mp background
    exact .inr (.inl ⟨color, found, rfl⟩)
  · obtain ⟨line, found, rfl⟩ := Option.map_eq_some_iff.mp border
    exact .inr (.inr (.inl ⟨line, found, rfl⟩))
  · obtain ⟨sides, found, rfl⟩ := Option.map_eq_some_iff.mp padding
    exact .inr (.inr (.inr (.inl ⟨sides, found, rfl⟩)))
  · exact .inr (.inr (.inr (.inr ((sizes_sizeModifiers _ _ _ _).layer_eq size))))

theorem background_mem_iff :
    .background color shape ∈ document.frameModifiers scope frame layout ↔
      document.background? frame = some color ∧ shape = (document.radii frame).shape? := by
  constructor
  · intro member
    rcases of_mem_frameModifiers member with growth | ⟨given, found, same⟩ | ⟨_, _, other⟩ |
      ⟨_, _, other⟩ | size
    · cases growth
    · cases same
      exact ⟨found, rfl⟩
    · cases other
    · cases other
    · cases size
  · intro given
    obtain ⟨found, rfl⟩ := given
    simp [frameModifiers, found]

theorem border_of_mem
    (member : .border color shape width ∈ document.frameModifiers scope frame layout) :
    shape = ((document.background? frame).bind fun _ => (document.radii frame).shape?) ∧
      document.border? frame = some ⟨color, width⟩ := by
  rcases of_mem_frameModifiers member with growth | ⟨_, _, other⟩ | ⟨line, found, same⟩ |
    ⟨_, _, other⟩ | size
  · cases growth
  · cases other
  · cases same
    exact ⟨rfl, found⟩
  · cases other
  · cases size

theorem padding_of_mem {sides : Padding}
    (member : .padding sides ∈ document.frameModifiers scope frame layout) :
    layout.padding? = some sides := by
  rcases of_mem_frameModifiers member with growth | ⟨_, _, other⟩ | ⟨_, _, other⟩ |
    ⟨given, found, same⟩ | size
  · cases growth
  · cases other
  · cases other
  · cases same
    exact found
  · cases size

theorem ordered_frameModifiers (document : Document) (scope : Scope) (frame : Frame)
    (layout : AutoLayout) : ∃ others sizes,
    document.frameModifiers scope frame layout = others ++ sizes ∧
      (others.map Modifier.layer).Sublist [.growth, .background, .border, .padding] ∧
      Sizes sizes := by
  refine ⟨_, _, rfl, ?_, sizes_sizeModifiers _ _ _ _⟩
  have growth := layers_toList fun given (member : given ∈
    stretch? scope frame.horizontalSizing frame.verticalSizing) => layer_of_mem_stretch? member
  have mapped : ∀ {α : Type} (option : Option α) (modifier : α → Modifier) (layer : Layer),
      (∀ value, (modifier value).layer = layer) →
        ((option.map modifier).toList.map Modifier.layer).Sublist [layer] := by
    intro α option modifier layer about
    apply layers_toList
    intro given member
    obtain ⟨value, -, rfl⟩ := Option.map_eq_some_iff.mp member
    exact about value
  simp only [List.map_append]
  exact ((growth.append (mapped _ _ .background fun _ => rfl)).append
    (mapped _ _ .border fun _ => rfl)).append (mapped _ _ .padding fun _ => rfl)

end modifiers

section traits

/-- A rounded shape has a corner that is no zero. -/
theorem rounded_of_shape? {radii : Corners Dimension} {shape : Shape}
    (found : radii.shape? = some shape) : ∃ corner ∈ shape.toList, ¬ corner.IsZero := by
  rw [Corners.shape?] at found
  split at found
  case isTrue => cases found
  case isFalse notBlank =>
    obtain rfl := Option.some.inj found
    simp only [List.all_eq_true, not_forall] at notBlank
    obtain ⟨corner, member, shows⟩ := notBlank
    exact ⟨corner, member, fun zero => shows (Property.isBlank_iff_isZero.mpr zero)⟩

theorem padded_of_padding? {sides : Padding} (found : layout.padding? = some sides) :
    (∃ side, some side ∈ sides.toList) ∧
      ∀ side, some side ∈ sides.toList → ¬ side.IsZero := by
  rw [AutoLayout.padding?] at found
  split at found
  case isTrue => cases found
  case isFalse notBlank =>
    obtain rfl := Option.some.inj found
    constructor
    · simp only [List.all_eq_true, not_forall] at notBlank
      obtain ⟨side, member, shows⟩ := notBlank
      obtain ⟨length, rfl⟩ := Option.ne_none_iff_exists'.mp (by simpa using shows)
      exact ⟨length, member⟩
    · intro side member zero
      have blank := Property.isBlank_iff_isZero.mpr zero
      simp only [Edges.map, Edges.toList, List.mem_cons, List.not_mem_nil, or_false] at member
      rcases member with same | same | same | same <;>
      · split at same
        · cases same
        · simp_all

theorem dimension_eq_own {own value : Float} {binding : Option String}
    (same : document.dimension own binding = .own value) : value = own := by
  simp only [dimension] at same
  split at same
  · exact (Property.own.inj same).symm
  · split at same
    · cases same
    · exact (Property.own.inj same).symm

theorem width_of_border? {border : Border} (found : document.border? frame = some border)
    {width : Dimension} (said : border.width = some width) : ¬ width.IsZero := by
  obtain ⟨color, -, found⟩ := Option.bind_eq_some_iff.mp found
  split at found
  case h_1 =>
    obtain rfl := Option.some.inj found
    cases said
  case h_2 => cases found
  case h_3 weight _ =>
    split at found
    case isTrue => cases found
    case isFalse notZero =>
      obtain rfl := Option.some.inj found
      obtain rfl := Option.some.inj said
      intro given
      obtain ⟨value, same, zero⟩ := given
      rw [dimension_eq_own same] at zero
      exact notZero zero

theorem arrangement?_spaced {α : Type} [DecidableEq α] {placement : Option α}
    {given : Option Dimension} {spaceBetween : α} {spacing : Dimension}
    (found : arrangement? placement given spaceBetween = some (.spaced spacing)) :
    spacing.value > 0.0 := by
  rw [arrangement?] at found
  split at found
  case isTrue => cases found
  case isFalse =>
    split at found
    case h_1 chosen kept =>
      cases found
      exact of_decide_eq_true (Option.filter_eq_some_iff.mp kept).2
    case h_2 =>
      obtain ⟨_, -, other⟩ := Option.map_eq_some_iff.mp found
      cases other

theorem spaced_kind (layout : AutoLayout) (frame : Frame) (childCount : Nat) :
    ∀ spacing ∈ (layout.kind frame childCount).spacings, spacing.value > 0.0 := by
  have spaced : ∀ {α : Type} [DecidableEq α] (placement : Option α) (given : Option Dimension)
      (spaceBetween : α) (spacing : Dimension),
      spacing ∈ ((arrangement? placement given spaceBetween).bind
        Arrangement.spacing?).toList → spacing.value > 0.0 := by
    intro α _ placement given spaceBetween spacing member
    obtain ⟨arranged, found, chosen⟩ := Option.bind_eq_some_iff.mp (Option.mem_toList.mp member)
    cases arranged with
    | spaced other =>
        cases chosen
        exact arrangement?_spaced found
    | placed _ => cases chosen
  intro spacing member
  simp only [AutoLayout.kind] at member
  split at member
  · split at member
    · rw [LayoutKind.spacings] at member
      rcases List.mem_append.mp member with across | down
      · exact spaced _ _ _ spacing across
      · exact spaced _ _ _ spacing down
    · exact spaced _ _ _ spacing member
  · split at member
    · exact spaced _ _ _ spacing member
    · cases member

end traits

theorem frame_wellFormed (document : Document) (scope : Scope) (frame : Frame)
    (layout : AutoLayout) (childCount : Nat) (children : List Layout) :
    Layout.WellFormed ⟨frame.name, document.frameModifiers scope frame layout, children,
      layout.kind frame childCount⟩ := by
  have container := holdsText_kind layout frame childCount
  constructor
  · intro isText
    rw [Layout.holdsText, container] at isText
    cases isText
  · rw [LayoutKind.layers_of_container container]
    exact document.ordered_frameModifiers scope frame layout
  · intro sides member
    exact padded_of_padding? (padding_of_mem member)
  · intro modifier member shape given
    rcases of_mem_frameModifiers member with growth | ⟨_, _, rfl⟩ | ⟨_, _, rfl⟩ | ⟨_, _, rfl⟩ |
      size
    · exact absurd growth (Modifier.layer_ne_of_shape? given).1
    · exact rounded_of_shape? given
    · obtain ⟨_, -, rounded⟩ := Option.bind_eq_some_iff.mp given
      exact rounded_of_shape? rounded
    · cases given
    · exact absurd size (Modifier.layer_ne_of_shape? given).2
  · intro color shape width member
    obtain ⟨rfl, found⟩ := border_of_mem member
    refine ⟨?_, ?_, fun length said => width_of_border? found said⟩
    · intro shaped
      cases ground : document.background? frame with
      | none => simp [ground] at shaped
      | some color => exact ⟨color, background_mem_iff.mpr ⟨ground, rfl⟩⟩
    · intro ground other groundMember
      obtain ⟨found, rfl⟩ := background_mem_iff.mp groundMember
      rw [found, Option.bind_some]
  · exact spaced_kind layout frame childCount

/-- A modifier of a text, by what it is about. -/
theorem of_mem_textModifiers {run : TextRun} {modifier : Modifier}
    (member : modifier ∈ run.modifiers scope) :
    modifier.layer = .growth ∨ modifier = .baseline ∨ modifier.layer = .size := by
  simp only [TextRun.modifiers, List.mem_append, Option.mem_toList] at member
  rcases member with (growth | baseline) | size
  · exact .inl (layer_of_mem_stretch? growth)
  · split at baseline
    · exact .inr (.inl (List.mem_singleton.mp baseline))
    · cases baseline
  · exact .inr (.inr ((sizes_sizeModifiers _ _ _ _).layer_eq size))

theorem text_wellFormed (run : TextRun) (scope : Scope) (content : TextBlock) :
    Layout.WellFormed ⟨run.name, run.modifiers scope, [], .text content⟩ := by
  constructor
  · exact fun _ => rfl
  · refine ⟨_, _, rfl, ?_, sizes_sizeModifiers _ _ _ _⟩
    have growth := layers_toList fun given (member : given ∈
      stretch? scope run.horizontalSizing run.verticalSizing) => layer_of_mem_stretch? member
    have baseline : List.Sublist
        ((if scope.isBaseline then [Modifier.baseline] else []).map Modifier.layer)
        [.baseline] := by
      split
      · exact List.Sublist.refl _
      · exact List.nil_sublist _
    rw [List.map_append]
    exact growth.append baseline
  · intro sides member
    rcases of_mem_textModifiers member with growth | other | size
    · cases growth
    · cases other
    · cases size
  · intro modifier member shape given
    rcases of_mem_textModifiers member with growth | rfl | size
    · exact absurd growth (Modifier.layer_ne_of_shape? given).1
    · cases given
    · exact absurd size (Modifier.layer_ne_of_shape? given).2
  · intro color shape width member
    rcases of_mem_textModifiers member with growth | other | size
    · cases growth
    · cases other
    · cases size
  · intro spacing member
    cases member

theorem place?_wellFormed {source : Scene} {laidOut : Layout}
    (placed : document.place? scope source = some laidOut) :
    ∀ node ∈ laidOut.preorder, node.WellFormed := by
  intro node member
  obtain ⟨origin, -, inner, originPlaced⟩ := exists_source placed node member
  cases origin with
  | frame frame children =>
      obtain ⟨-, layout, -, rfl⟩ := place?_frame_eq_some.mp originPlaced
      exact document.frame_wellFormed inner frame layout children.length _
  | text run =>
      obtain ⟨-, text, -, rfl⟩ := place?_text_eq_some.mp originPlaced
      exact text_wellFormed run inner text.content
  | unsupported =>
      rw [place?] at originPlaced
      cases originPlaced

/-- In the layout of a document every node keeps the form: what it does to
itself stands in one order, and nothing in it stands for nothing. -/
theorem layout?_wellFormed {root : Layout} (laidOut : document.layout? = some root) :
    ∀ node ∈ root.preorder, node.WellFormed :=
  place?_wellFormed laidOut

/-- A row with a border of no said width, a padding bound to a variable that
is zero, one round corner and two sizes, over two texts. -/
theorem layout?_wellFormed_boundZero : ∃ root,
    layout? ⟨.frame {
          mode := .horizontal, width := 40.0, height := 24.0, spacing := 8.0
          fills := .same [⟨.solid, some .white, none, true, none⟩]
          strokes := [⟨.solid, some .black, none, true, none⟩]
          radii := { Corners.uniform 0.0 with topLeft := 4.0 }
          bindings := { padding := { Edges.uniform none with left := some "edge" } } }
        [.text { horizontalSizing := .fill }, .text { width := 8.0, horizontalSizing := .fixed }],
        .empty, .ofList [("edge", ⟨"tight", .number, some (.number 0.0)⟩)]⟩ = some root ∧
    root.preorder.map (fun node => node.modifiers.map Modifier.layer) =
      [[.background, .border, .padding, .size, .size], [.growth], [.size]] ∧
    ∀ node ∈ root.preorder, node.WellFormed := by
  have shown : (layout? ⟨.frame {
          mode := .horizontal, width := 40.0, height := 24.0, spacing := 8.0
          fills := .same [⟨.solid, some .white, none, true, none⟩]
          strokes := [⟨.solid, some .black, none, true, none⟩]
          radii := { Corners.uniform 0.0 with topLeft := 4.0 }
          bindings := { padding := { Edges.uniform none with left := some "edge" } } }
        [.text { horizontalSizing := .fill }, .text { width := 8.0, horizontalSizing := .fixed }],
        .empty, .ofList [("edge", ⟨"tight", .number, some (.number 0.0)⟩)]⟩).map
          (fun root => root.preorder.map fun node => node.modifiers.map Modifier.layer) =
      some [[.background, .border, .padding, .size, .size], [.growth], [.size]] := by
    decide
  obtain ⟨root, laidOut, layers⟩ := Option.map_eq_some_iff.mp shown
  exact ⟨root, laidOut, layers, layout?_wellFormed laidOut⟩

end Document

end DesignLayout
