import DesignLayout.Proofs.PlacedValues

/-!
# Where the links of a layout come from

A layout has no links but those that its scene asks for and its document can
answer.  The link of a length leads to the variable to which the frame binds
that very length; the link of a color leads to a paint style or to a variable
that colors a paint; the link of a font leads to the text style of its text.
Id, name and value of a link come from one and the same entry.
-/

namespace DesignLayout

/-- A length of a frame that may be bound to a variable. -/
inductive Measure where
  | spacing
  | lineSpacing
  | strokeWidth
  | leftPadding
  | topPadding
  | rightPadding
  | bottomPadding
  | topLeftRadius
  | topRightRadius
  | bottomRightRadius
  | bottomLeftRadius
  deriving DecidableEq, Repr

namespace Measure

def padding : Edges Measure :=
  ⟨.leftPadding, .topPadding, .rightPadding, .bottomPadding⟩

def radii : Corners Measure :=
  ⟨.topLeftRadius, .topRightRadius, .bottomRightRadius, .bottomLeftRadius⟩

end Measure

namespace Frame

/-- The length that a frame says itself. -/
def own? (frame : Frame) : Measure → Option Float
  | .spacing => some frame.spacing
  | .lineSpacing => frame.lineSpacing
  | .strokeWidth => frame.strokeWidth.bind Uniform.value?
  | .leftPadding => some frame.padding.left
  | .topPadding => some frame.padding.top
  | .rightPadding => some frame.padding.right
  | .bottomPadding => some frame.padding.bottom
  | .topLeftRadius => some frame.radii.topLeft
  | .topRightRadius => some frame.radii.topRight
  | .bottomRightRadius => some frame.radii.bottomRight
  | .bottomLeftRadius => some frame.radii.bottomLeft

/-- The id of the variable to which a frame binds a length. -/
def binding? (frame : Frame) : Measure → Option String
  | .spacing => frame.bindings.spacing
  | .lineSpacing => frame.bindings.lineSpacing
  | .strokeWidth => frame.bindings.strokeWidth
  | .leftPadding => frame.bindings.padding.left
  | .topPadding => frame.bindings.padding.top
  | .rightPadding => frame.bindings.padding.right
  | .bottomPadding => frame.bindings.padding.bottom
  | .topLeftRadius => frame.bindings.radii.topLeft
  | .topRightRadius => frame.bindings.radii.topRight
  | .bottomRightRadius => frame.bindings.radii.bottomRight
  | .bottomLeftRadius => frame.bindings.radii.bottomLeft

end Frame

namespace Scene

/-- The paints of a node. -/
def paints : Scene → List Paint
  | .frame properties _ => properties.fills.value?.getD [] ++ properties.strokes
  | .text run => run.fills.value?.getD []
  | .unsupported => []

/-- The ids of the paint styles that a node asks for. -/
def paintStyles : Scene → List String
  | .frame properties _ => properties.fillStyle.value?.toList ++ [properties.strokeStyle]
  | .text run => run.fillStyle.value?.toList
  | .unsupported => []

end Scene

/-- A link in a layout node, by what it gives. -/
inductive NodeLink where
  | length (measure : Measure) (link : TokenLink Float)
  | size (link : TokenLink Float)
  | color (link : TokenLink Color)
  | font (link : TokenLink Typography)
  deriving DecidableEq, Repr

section links

/-- The link of a property, if it has one. -/
def Property.links {α : Type} (gives : TokenLink α → NodeLink) (property : Property α) :
    List NodeLink :=
  property.link?.toList.map gives

def lengthLinks (measure : Measure) (length : Option Dimension) : List NodeLink :=
  length.toList.flatMap (Property.links (.length measure))

def shapeLinks (shape : Option Shape) : List NodeLink :=
  shape.toList.flatMap fun corners =>
    (Measure.radii.zipWith (fun measure corner => corner.links (.length measure))
      corners).toList.flatten

def paddingLinks (sides : Padding) : List NodeLink :=
  (Measure.padding.zipWith lengthLinks sides).toList.flatten

def Modifier.links : Modifier → List NodeLink
  | .background color shape => color.links .color ++ shapeLinks shape
  | .border color shape width =>
    color.links .color ++ lengthLinks .strokeWidth width ++ shapeLinks shape
  | .padding sides => paddingLinks sides
  | .weight _ => []
  | .fillMax _ => []
  | .baseline => []
  | .size _ value => value.links .size

def arrangementLinks {α : Type} (measure : Measure) (arrangement : Option (Arrangement α)) :
    List NodeLink :=
  lengthLinks measure (arrangement.bind Arrangement.spacing?)

def LayoutKind.links : LayoutKind → List NodeLink
  | .row arrangement _ => arrangementLinks .spacing arrangement
  | .flowRow horizontal vertical =>
    arrangementLinks .spacing horizontal ++ arrangementLinks .lineSpacing vertical
  | .column arrangement _ => arrangementLinks .spacing arrangement
  | .box _ => []
  | .text content =>
    content.style.links .font ++ content.color.toList.flatMap (Property.links .color)

/-- All links of a node, those of its children apart. -/
def Layout.links (node : Layout) : List NodeLink :=
  node.modifiers.flatMap Modifier.links ++ node.kind.links

theorem Modifier.links_of_growth {modifier : Modifier} (growth : modifier.layer = .growth) :
    modifier.links = [] := by
  cases modifier with
  | weight _ | fillMax _ => rfl
  | baseline | background _ _ | border _ _ _ | padding _ | size _ _ => cases growth

end links

namespace Layout.WellFormed

variable {node : Layout}

theorem size_own (wellFormed : node.WellFormed) {extent : Extent} {length : Dimension}
    (member : .size extent length ∈ node.modifiers) : ∃ own, length = .own own := by
  obtain ⟨others, sizes, same, layers, sized⟩ := wellFormed.ordered
  rw [same] at member
  rcases List.mem_append.mp member with other | size
  · exact absurd (layers.subset (List.mem_map_of_mem other)) node.kind.size_not_mem_layers
  · cases sized <;> simp at size
    case both => exact ⟨_, size.2⟩
    case width => exact ⟨_, size.2⟩
    case height => exact ⟨_, size.2⟩
    case apart =>
      rcases size with ⟨-, rfl⟩ | ⟨-, rfl⟩
      · exact ⟨_, rfl⟩
      · exact ⟨_, rfl⟩

theorem links_of_size (wellFormed : node.WellFormed) {modifier : Modifier}
    (member : modifier ∈ node.modifiers) (size : modifier.layer = .size) :
    modifier.links = [] := by
  cases modifier with
  | size extent length =>
      obtain ⟨own, rfl⟩ := wellFormed.size_own member
      rfl
  | weight _ | fillMax _ | baseline | background _ _ | border _ _ _ | padding _ => cases size

end Layout.WellFormed

/-- A scene node asks for a link, and the document answers it: the link has the
id that the node names, and the name and the value of the entry of that id. -/
inductive Document.Supplies (document : Document) : Scene → NodeLink → Prop where
  /-- A number variable that has a number. -/
  | number {frame : Frame} {children : List Scene} {measure : Measure} {own value : Float}
      {id : String} {entry : Variable} :
      frame.own? measure = some own → frame.binding? measure = some id →
      document.variableById.get? id = some entry → entry.type = .number →
      entry.value = some (.number value) →
      Supplies document (.frame frame children) (.length measure ⟨id, entry.name, value⟩)
  /-- A number variable without a number leaves the frame its own. -/
  | ownNumber {frame : Frame} {children : List Scene} {measure : Measure} {own : Float}
      {id : String} {entry : Variable} :
      frame.own? measure = some own → frame.binding? measure = some id →
      document.variableById.get? id = some entry → entry.type = .number →
      (∀ value, entry.value ≠ some (.number value)) →
      Supplies document (.frame frame children) (.length measure ⟨id, entry.name, own⟩)
  /-- A paint style whose first paint is solid, with the color of that paint under
  its opacity. -/
  | paintStyle {origin : Scene} {id name : String} {first : Paint} {rest : List Paint}
      {color : Color} :
      id ∈ origin.paintStyles →
      document.styleById.get? id = some (.paint name (first :: rest)) →
      first.solid? = some color →
      Supplies document origin (.color ⟨id, name, color⟩)
  /-- A color variable, under the opacity of the paint that it colors. -/
  | colorVariable {origin : Scene} {paint : Paint} {id : String} {entry : Variable}
      {own : Color} :
      paint ∈ origin.paints → paint.solid? = some own → paint.colorVariable = some id →
      document.variableById.get? id = some entry → entry.type = .color →
      Supplies document origin (.color ⟨id, entry.name, entry.colorOr paint.strength own⟩)
  /-- A text style with the weight of the text. -/
  | textStyle {run : TextRun} {id : String} {weight : Float} {style : TypeStyle} :
      run.style = .same id → run.weight = .same weight →
      document.styleById.get? id = some (.text style) →
      Supplies document (.text run) (.font ⟨id, style.name,
        { size := style.size, weight, decoration := style.decoration, face := style.face
          letterSpacing := style.letterSpacing, lineHeight := style.lineHeight
          letterCase := style.letterCase }⟩)

namespace Document

variable {document : Document}

theorem of_variable?_eq_some {id : String} {type : VariableKind} {entry : Variable}
    (found : document.variable? id type = some entry) :
    document.variableById.get? id = some entry ∧ entry.type = type := by
  obtain ⟨stored, matching⟩ := Option.filter_eq_some_iff.mp found
  exact ⟨stored, of_decide_eq_true matching⟩

section frames

variable {frame : Frame} {children : List Scene} {layout : AutoLayout}

theorem supplies_dimension {measure : Measure} {own : Float} {binding : Option String}
    (said : frame.own? measure = some own) (bound : frame.binding? measure = binding) :
    ∀ link ∈ (document.dimension own binding).links (.length measure),
      document.Supplies (.frame frame children) link := by
  intro link member
  unfold dimension at member
  split at member
  case h_1 => cases member
  case h_2 id =>
    split at member
    case h_2 => cases member
    case h_1 entry found =>
      obtain ⟨stored, numeric⟩ := of_variable?_eq_some found
      obtain rfl := List.mem_singleton.mp member
      unfold Variable.numberOr
      split
      case h_1 value known => exact .number said bound stored numeric known
      case h_2 unknown => exact .ownNumber said bound stored numeric unknown

theorem supplies_shape {shape : Option Shape}
    (rounded : ∀ corners ∈ shape, corners = document.radii frame) :
    ∀ link ∈ shapeLinks shape, document.Supplies (.frame frame children) link := by
  intro link member
  obtain ⟨corners, given, member⟩ := List.mem_flatMap.mp member
  obtain rfl := rounded corners (Option.mem_toList.mp given)
  obtain ⟨corner, cornerMember, member⟩ := List.mem_flatten.mp member
  simp only [Corners.toList, Corners.zipWith, radii, Measure.radii, List.mem_cons,
    List.not_mem_nil, or_false] at cornerMember
  rcases cornerMember with rfl | rfl | rfl | rfl <;>
    exact supplies_dimension rfl rfl link member

theorem supplies_padding (found : document.autoLayout? frame = some layout) {sides : Padding}
    (padded : layout.padding? = some sides) :
    ∀ link ∈ paddingLinks sides, document.Supplies (.frame frame children) link := by
  obtain ⟨-, -, padding⟩ := of_autoLayout? found
  have kept : ∀ {measure : Measure} {edge : Dimension} {link : NodeLink},
      link ∈ lengthLinks measure (if edge.isBlank then none else some edge) →
      link ∈ edge.links (.length measure) := by
    intro measure edge link member
    split at member
    · cases member
    · simpa [lengthLinks] using member
  rw [AutoLayout.padding?, padding] at padded
  split at padded
  case isTrue => cases padded
  case isFalse =>
    cases padded
    intro link member
    obtain ⟨side, sideMember, member⟩ := List.mem_flatten.mp member
    simp only [Edges.toList, Edges.zipWith, Edges.map, Measure.padding, List.mem_cons,
      List.not_mem_nil, or_false] at sideMember
    rcases sideMember with rfl | rfl | rfl | rfl <;>
      exact supplies_dimension rfl rfl link (kept member)

theorem supplies_arrangement {α : Type} [DecidableEq α] {placement : Option α}
    {given : Option Dimension} {spaceBetween : α} {measure : Measure}
    (supplied : ∀ length ∈ given, ∀ link ∈ length.links (.length measure),
      document.Supplies (.frame frame children) link) :
    ∀ link ∈ arrangementLinks measure (arrangement? placement given spaceBetween),
      document.Supplies (.frame frame children) link := by
  intro link member
  unfold arrangement? at member
  split at member
  case isTrue => cases member
  case isFalse =>
    split at member
    case h_1 spacing kept =>
      obtain ⟨said, -⟩ := Option.filter_eq_some_iff.mp kept
      refine supplied spacing said link ?_
      simpa [arrangementLinks, lengthLinks, Arrangement.spacing?] using member
    case h_2 => cases placement <;> cases member

theorem supplies_kind (found : document.autoLayout? frame = some layout) (childCount : Nat) :
    ∀ link ∈ (layout.kind frame childCount).links,
      document.Supplies (.frame frame children) link := by
  obtain ⟨spacing, lineSpacing, -⟩ := of_autoLayout? found
  have across : ∀ length ∈ some layout.spacing, ∀ link ∈ length.links (.length .spacing),
      document.Supplies (.frame frame children) link := by
    rintro length ⟨⟩
    rw [spacing]
    exact supplies_dimension rfl rfl
  have down : ∀ length ∈ layout.lineSpacing, ∀ link ∈ length.links (.length .lineSpacing),
      document.Supplies (.frame frame children) link := by
    intro length said
    rw [lineSpacing] at said
    obtain ⟨own, ownSaid, rfl⟩ := Option.map_eq_some_iff.mp said
    exact supplies_dimension ownSaid rfl
  simp only [AutoLayout.kind]
  split
  · split
    · exact List.forall_mem_append.mpr ⟨supplies_arrangement across, supplies_arrangement down⟩
    · exact supplies_arrangement across
  · split
    · exact supplies_arrangement across
    · exact List.forall_mem_nil _

end frames

theorem eq_radii_of_shape? {radii : Corners Dimension} {shape : Shape}
    (found : radii.shape? = some shape) : shape = radii := by
  rw [Corners.shape?] at found
  split at found
  · cases found
  · exact (Option.some.inj found).symm

/-- The color of a border is that of the strokes, and its width, if it has one,
that of the frame. -/
theorem of_border? {frame : Frame} {border : Border}
    (found : document.border? frame = some border) :
    document.colorOf? (some frame.strokes) (some frame.strokeStyle) = some border.color ∧
      ∀ width ∈ border.width, ∃ own, frame.own? .strokeWidth = some own ∧
        width = document.dimension own frame.bindings.strokeWidth := by
  obtain ⟨color, colored, found⟩ := Option.bind_eq_some_iff.mp found
  split at found
  case h_1 =>
    cases found
    exact ⟨colored, by simp⟩
  case h_2 => cases found
  case h_3 weight said =>
    split at found
    case isTrue => cases found
    case isFalse =>
      cases found
      refine ⟨colored, ?_⟩
      rintro width ⟨⟩
      exact ⟨weight, by rw [Frame.own?, said]; rfl, rfl⟩

section colors

variable {origin : Scene} {color : Property Color}

theorem supplies_soleColor? {paints : List Paint}
    (shown : ∀ paint ∈ paints, paint ∈ origin.paints)
    (found : document.soleColor? paints = some color) :
    ∀ link ∈ color.links .color, document.Supplies origin link := by
  unfold soleColor? at found
  split at found
  case h_2 => cases found
  case h_1 paint only =>
    have member : paint ∈ paints.filter Paint.visible := only ▸ List.mem_singleton_self paint
    have painted := shown paint (List.mem_filter.mp member).1
    obtain ⟨own, solid, found⟩ := Option.bind_eq_some_iff.mp found
    split at found
    case h_1 =>
      cases found
      exact List.forall_mem_nil _
    case h_2 id bound =>
      split at found
      case h_2 =>
        cases found
        exact List.forall_mem_nil _
      case h_1 entry entryFound =>
        cases found
        obtain ⟨stored, colored⟩ := of_variable?_eq_some entryFound
        exact List.forall_mem_singleton.mpr (.colorVariable painted solid bound stored colored)

theorem supplies_colorOf? {paints : Option (List Paint)} {style : Option String}
    (shown : ∀ paint ∈ paints.getD [], paint ∈ origin.paints)
    (asked : ∀ id ∈ style, id ∈ origin.paintStyles)
    (found : document.colorOf? paints style = some color) :
    ∀ link ∈ color.links .color, document.Supplies origin link := by
  have own : paints.bind document.soleColor? = some color →
      ∀ link ∈ color.links .color, document.Supplies origin link := by
    intro found
    obtain ⟨given, rfl, found⟩ := Option.bind_eq_some_iff.mp found
    exact supplies_soleColor? shown found
  unfold colorOf? at found
  split at found
  case h_1 => exact own found
  case h_2 id named =>
    split at found
    case h_2 => exact own found
    case h_1 name layers stored =>
      obtain ⟨first, firstFound, found⟩ := Option.bind_eq_some_iff.mp found
      obtain ⟨solid, solidFound, found⟩ := Option.bind_eq_some_iff.mp found
      cases found
      obtain ⟨rest, rfl⟩ := List.head?_eq_some_iff.mp firstFound
      have styled := asked id (Option.filter_eq_some_iff.mp named).1
      exact List.forall_mem_singleton.mpr (.paintStyle styled stored solidFound)

end colors

theorem supplies_font? {run : TextRun} {style : Property Typography}
    (found : document.font? run = some style) :
    ∀ link ∈ style.links .font, document.Supplies (.text run) link := by
  have own : run.ownFont?.map .own = some style →
      ∀ link ∈ style.links .font, document.Supplies (.text run) link := by
    intro found
    obtain ⟨font, -, rfl⟩ := Option.map_eq_some_iff.mp found
    exact List.forall_mem_nil _
  unfold font? at found
  split at found
  case h_2 => exact own found
  case h_1 id weight styled weighed =>
    split at found
    case isTrue => exact own found
    case isFalse =>
      split at found
      case h_2 => exact own found
      case h_1 shared stored =>
        cases found
        exact List.forall_mem_singleton.mpr (.textStyle styled weighed stored)

section nodes

variable {scope : Scope} {frame : Frame} {children : List Scene} {layout : AutoLayout}

theorem supplies_background {color : Property Color}
    (found : document.background? frame = some color) :
    ∀ link ∈ (Modifier.background color (document.radii frame).shape?).links,
      document.Supplies (.frame frame children) link := by
  refine List.forall_mem_append.mpr ⟨?_, supplies_shape fun _ => eq_radii_of_shape?⟩
  refine supplies_colorOf? (fun _ painted => ?_) (fun _ asked => ?_) found
  · exact List.mem_append_left _ painted
  · exact List.mem_append_left _ (Option.mem_toList.mpr asked)

theorem supplies_border {border : Border} (found : document.border? frame = some border) :
    ∀ link ∈ (Modifier.border border.color
      ((document.background? frame).bind fun _ => (document.radii frame).shape?)
      border.width).links, document.Supplies (.frame frame children) link := by
  obtain ⟨colored, width⟩ := of_border? found
  refine List.forall_mem_append.mpr ⟨List.forall_mem_append.mpr ⟨?_, ?_⟩, ?_⟩
  · refine supplies_colorOf? (fun _ painted => ?_) (fun _ asked => ?_) colored
    · exact List.mem_append_right _ painted
    · obtain rfl := Option.some.inj asked
      exact List.mem_append_right _ (List.mem_singleton_self _)
  · intro link member
    obtain ⟨length, given, member⟩ := List.mem_flatMap.mp member
    obtain ⟨own, said, rfl⟩ := width length (Option.mem_toList.mp given)
    exact supplies_dimension said rfl link member
  · refine supplies_shape fun shape given => ?_
    obtain ⟨_, -, given⟩ := Option.bind_eq_some_iff.mp given
    exact eq_radii_of_shape? given

theorem supplies_frameModifiers (found : document.autoLayout? frame = some layout)
    {modifier : Modifier} (member : modifier ∈ document.frameModifiers scope frame layout)
    (plain : modifier.layer ≠ .size) :
    ∀ link ∈ modifier.links, document.Supplies (.frame frame children) link := by
  rcases of_mem_frameModifiers member with growth | ⟨color, given, rfl⟩ |
    ⟨border, given, rfl⟩ | ⟨sides, given, rfl⟩ | size
  · rw [Modifier.links_of_growth growth]
    exact List.forall_mem_nil _
  · exact supplies_background given
  · exact supplies_border given
  · exact supplies_padding found given
  · exact absurd size plain

theorem supplies_textModifiers {run : TextRun} {modifier : Modifier}
    (member : modifier ∈ run.modifiers scope) (plain : modifier.layer ≠ .size) :
    ∀ link ∈ modifier.links, document.Supplies (.text run) link := by
  rcases of_mem_textModifiers member with growth | rfl | size
  · rw [Modifier.links_of_growth growth]
    exact List.forall_mem_nil _
  · exact List.forall_mem_nil _
  · exact absurd size plain

theorem supplies_text {run : TextRun} {text : TextAppearance}
    (found : document.text? run = some text) :
    ∀ link ∈ (LayoutKind.text text.content).links, document.Supplies (.text run) link := by
  obtain ⟨style, styleFound, found⟩ := Option.bind_eq_some_iff.mp found
  obtain ⟨fills, fillsFound, found⟩ := Option.bind_eq_some_iff.mp found
  cases found
  refine List.forall_mem_append.mpr ⟨supplies_font? styleFound, ?_⟩
  intro link member
  obtain ⟨color, colorFound, member⟩ := List.mem_flatMap.mp member
  refine supplies_colorOf? (fun _ painted => ?_) (fun _ asked => ?_)
    (Option.mem_toList.mp colorFound) link member
  · rw [Scene.paints, fillsFound]
    exact painted
  · exact Option.mem_toList.mpr asked

/-- A placed node has no links but those with which its document answers its
source, if its sizes are its own. -/
theorem supplies_place? {source : Scene} {laidOut : Layout}
    (placed : document.place? scope source = some laidOut)
    (sized : ∀ modifier ∈ laidOut.modifiers, modifier.layer = .size → modifier.links = []) :
    ∀ link ∈ laidOut.links, document.Supplies source link := by
  have modified : (∀ modifier ∈ laidOut.modifiers, modifier.layer ≠ .size →
      ∀ link ∈ modifier.links, document.Supplies source link) →
      ∀ link ∈ laidOut.modifiers.flatMap Modifier.links, document.Supplies source link := by
    intro each link member
    obtain ⟨modifier, modifierMember, member⟩ := List.mem_flatMap.mp member
    by_cases size : modifier.layer = .size
    · rw [sized modifier modifierMember size] at member
      cases member
    · exact each modifier modifierMember size link member
  cases source with
  | frame frame children =>
      obtain ⟨-, layout, found, rfl⟩ := place?_frame_eq_some.mp placed
      exact List.forall_mem_append.mpr ⟨modified fun _ => supplies_frameModifiers found,
        supplies_kind found _⟩
  | text run =>
      obtain ⟨-, text, found, rfl⟩ := place?_text_eq_some.mp placed
      exact List.forall_mem_append.mpr ⟨modified fun _ => supplies_textModifiers,
        supplies_text found⟩
  | unsupported =>
      rw [place?] at placed
      cases placed

end nodes

variable {root : Layout}

/-- Each link of a laid out node is one for which its source asks, and with
which the document answers.  Sizes are the node's own. -/
theorem supplied_layout? (laidOut : document.layout? = some root) :
    ∀ node ∈ root.preorder, ∃ origin ∈ document.root.preorder,
      (∃ scope, document.place? scope origin = some node) ∧
      (∀ link ∈ node.links, document.Supplies origin link) ∧
      ∀ extent length, .size extent length ∈ node.modifiers → ∃ own, length = .own own := by
  intro node member
  obtain ⟨origin, originMember, scope, placed⟩ := exists_source laidOut node member
  have wellFormed := place?_wellFormed laidOut node member
  refine ⟨origin, originMember, ⟨scope, placed⟩, supplies_place? placed ?_, ?_⟩
  · exact fun _ => wellFormed.links_of_size
  · exact fun _ _ => wellFormed.size_own

/-- A frame filled by a style, with a border and a padding from variables, over
a text with a style. -/
def linkedSample : Document :=
  ⟨.frame {
      mode := .horizontal, fillStyle := .same "ground", strokeWidth := some (.same 2.0)
      strokes := [⟨.solid, some .black, none, true, some "line"⟩]
      bindings := {
        padding := { Edges.uniform none with left := some "edge" }
        strokeWidth := some "edge" } }
    [.text { style := .same "body" }],
    .ofList [("ground", .paint "Ground" [⟨.solid, some .white, none, true, none⟩]),
      ("body", .text ⟨"Body", 16.0, ⟨"Inter", "Regular"⟩, .none, ⟨.pixels, 0.0⟩, .auto,
        .asWritten⟩)],
    .ofList [("edge", ⟨"Edge", .number, some (.number 4.0)⟩),
      ("line", ⟨"Line", .color, none⟩)]⟩

theorem supplied_layout?_linkedSample : ∃ root, linkedSample.layout? = some root ∧
    root.preorder.map Layout.links =
      [[.color ⟨"ground", "Ground", .white⟩, .color ⟨"line", "Line", .black⟩,
          .length .strokeWidth ⟨"edge", "Edge", 4.0⟩, .length .leftPadding ⟨"edge", "Edge", 4.0⟩],
        [.font ⟨"body", "Body", {
          size := 16.0, weight := 400.0, decoration := .none, face := ⟨"Inter", "Regular"⟩
          letterSpacing := ⟨.pixels, 0.0⟩, lineHeight := .auto, letterCase := .asWritten }⟩]] ∧
    ∀ node ∈ root.preorder, ∃ origin ∈ linkedSample.root.preorder,
      (∃ scope, linkedSample.place? scope origin = some node) ∧
      (∀ link ∈ node.links, linkedSample.Supplies origin link) ∧
      ∀ extent length, .size extent length ∈ node.modifiers → ∃ own, length = .own own := by
  have shown : linkedSample.layout?.map (fun root => root.preorder.map Layout.links) = some
      [[.color ⟨"ground", "Ground", .white⟩, .color ⟨"line", "Line", .black⟩,
          .length .strokeWidth ⟨"edge", "Edge", 4.0⟩, .length .leftPadding ⟨"edge", "Edge", 4.0⟩],
        [.font ⟨"body", "Body", {
          size := 16.0, weight := 400.0, decoration := .none, face := ⟨"Inter", "Regular"⟩
          letterSpacing := ⟨.pixels, 0.0⟩, lineHeight := .auto, letterCase := .asWritten }⟩]] := by
    decide
  obtain ⟨root, laidOut, links⟩ := Option.map_eq_some_iff.mp shown
  exact ⟨root, laidOut, links, supplied_layout? laidOut⟩

end Document

end DesignLayout
