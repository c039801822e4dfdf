import DesignLayout.Scene.Appearance

/-!
# The layout of a scene

Each frame becomes a row, a flow row, a column or a box, by its direction and
the number of its children in the scene, and each text becomes text.  A node
that is hidden or that cannot be laid out is left out with all that it holds.
A child sees of its parent only what the parent became.
-/

namespace DesignLayout

/-- What a child may ask of the node that holds it.  A row and a column let
their children grow, and a row can line them up by their baselines. -/
inductive Scope where
  | free
  | row (baseline : Bool)
  | column
  deriving DecidableEq, Repr

/-- What a node of a kind offers to its children. -/
def LayoutKind.scope : LayoutKind → Scope
  | .row _ alignment => .row (alignment == some .baseline)
  | .column _ _ => .column
  | .flowRow _ _ => .free
  | .box _ => .free
  | .text _ => .free

namespace Alignment

def horizontalPlacement? : Alignment → Option HorizontalPlacement
  | .min => some .start
  | .center => some .center
  | .max => some .finish
  | .spaceBetween => some .spaceBetween
  | .baseline => none

def verticalPlacement? : Alignment → Option VerticalPlacement
  | .min => some .top
  | .center => some .center
  | .max => some .bottom
  | .spaceBetween => some .spaceBetween
  | .baseline => none

def rowAlignment? : Alignment → Option RowAlignment
  | .min => some .top
  | .center => some .center
  | .max => some .bottom
  | .baseline => some .baseline
  | .spaceBetween => none

def columnAlignment? : Alignment → Option ColumnAlignment
  | .min => some .start
  | .center => some .center
  | .max => some .finish
  | .baseline => none
  | .spaceBetween => none

end Alignment

/-- Space between goes before a spacing, and a spacing above zero before any
other placement. -/
def arrangement? {α : Type} [DecidableEq α] (placement : Option α) (spacing : Option Dimension)
    (spaceBetween : α) : Option (Arrangement α) :=
  if placement = some spaceBetween then some (.placed spaceBetween)
  else
    match spacing.filter fun spacing => spacing.value > 0.0 with
    | some spacing => some (.spaced spacing)
    | none => placement.map .placed

namespace AutoLayout

/-- The kind of a frame with this layout.  One child needs no row or column. -/
def kind (layout : AutoLayout) (frame : Frame) (childCount : Nat) : LayoutKind :=
  let primary := frame.primaryAlign
  let counter := frame.counterAlign
  if childCount > 1 ∧ layout.direction = .horizontal then
    let horizontal :=
      arrangement? primary.horizontalPlacement? (some layout.spacing) .spaceBetween
    if layout.wraps then
      .flowRow horizontal
        (arrangement? primary.verticalPlacement? layout.lineSpacing .spaceBetween)
    else .row horizontal counter.rowAlignment?
  else if childCount > 1 ∧ layout.direction = .vertical then
    .column (arrangement? primary.verticalPlacement? (some layout.spacing) .spaceBetween)
      counter.columnAlignment?
  else .box (primary == .center && counter == .center && childCount != 0)

/-- The padding, unless every edge is blank. -/
def padding? (layout : AutoLayout) : Option Padding :=
  let padding : Padding := layout.padding.map fun edge => if edge.isBlank then none else some edge
  if padding.toList.all Option.isNone then none else some padding

end AutoLayout

/-- A node fills the main axis of its scope by weight, and else its other
axis. -/
def stretch? (scope : Scope) (horizontal vertical : Sizing) : Option Modifier :=
  match scope with
  | .free => none
  | .row _ =>
    if horizontal = .fill then some (.weight 1.0)
    else if vertical = .fill then some (.fillMax .height)
    else none
  | .column =>
    if vertical = .fill then some (.weight 1.0)
    else if horizontal = .fill then some (.fillMax .width)
    else none

/-- The length of an axis of fixed size, unless it is zero. -/
def fixedLength? (sizing : Sizing) (length : Float) : Option Float :=
  if sizing = .fixed && length != 0.0 then some length else none

/-- The sizes that are fixed; two equal ones in one. -/
def sizeModifiers (horizontal vertical : Sizing) (width height : Float) : List Modifier :=
  match fixedLength? horizontal width, fixedLength? vertical height with
  | some width, some height =>
    if width == height then [.size .both (.own width)]
    else [.size .width (.own width), .size .height (.own height)]
  | some width, none => [.size .width (.own width)]
  | none, some height => [.size .height (.own height)]
  | none, none => []

def TextSide.textAlign? : TextSide → Option TextPlacement
  | .left => none
  | .center => some .center
  | .right => some .finish
  | .justified => some .justify

def TextAppearance.content (text : TextAppearance) : TextBlock :=
  { text := text.text, style := text.style, color := text.color
    align := text.align.textAlign?, lineLimit := text.lineLimit
    ellipsis := text.truncation == .ending }

/-- Whether texts in a scope are lined up by their baselines. -/
def Scope.isBaseline : Scope → Bool
  | .row baseline => baseline
  | _ => false

/-- The modifiers of a text in a scope. -/
def TextRun.modifiers (run : TextRun) (scope : Scope) : List Modifier :=
  (stretch? scope run.horizontalSizing run.verticalSizing).toList ++
    (if scope.isBaseline then [.baseline] else []) ++
    sizeModifiers run.horizontalSizing run.verticalSizing run.width run.height

namespace Document

variable (document : Document)

/-- The modifiers of a frame in a scope.  A border follows the shape of the
background, and is square where there is none. -/
def frameModifiers (scope : Scope) (frame : Frame) (layout : AutoLayout) : List Modifier :=
  let shape := (document.radii frame).shape?
  let background := document.background? frame
  (stretch? scope frame.horizontalSizing frame.verticalSizing).toList ++
    (background.map fun color => Modifier.background color shape).toList ++
    ((document.border? frame).map fun border =>
      Modifier.border border.color (background.bind fun _ => shape) border.width).toList ++
    (layout.padding?.map Modifier.padding).toList ++
    sizeModifiers frame.horizontalSizing frame.verticalSizing frame.width frame.height

mutual

/-- The layout of a scene node in a scope, if it has one. -/
def place? (scope : Scope) : Scene → Option Layout
  | .frame frame children =>
    if frame.visible then do
      let layout ← document.autoLayout? frame
      let kind := layout.kind frame children.length
      return ⟨frame.name, document.frameModifiers scope frame layout,
        placeAll kind.scope children, kind⟩
    else none
  | .text run =>
    if run.visible then do
      let text ← document.text? run
      return ⟨run.name, run.modifiers scope, [], .text text.content⟩
    else none
  | .unsupported => none

/-- The layouts of those scene nodes that have one. -/
def placeAll (scope : Scope) : List Scene → List Layout
  | [] => []
  | node :: rest =>
    match place? scope node with
    | some laidOut => laidOut :: placeAll scope rest
    | none => placeAll scope rest

end

theorem placeAll_eq_filterMap (scope : Scope) (nodes : List Scene) :
    document.placeAll scope nodes = nodes.filterMap (document.place? scope) := by
  induction nodes with
  | nil => simp [placeAll]
  | cons node rest ih =>
      cases found : document.place? scope node <;> simp [placeAll, found, ih]

/-- The layout tree of a document. -/
def layout? : Option Layout :=
  document.place? .free document.root

end Document

end DesignLayout
