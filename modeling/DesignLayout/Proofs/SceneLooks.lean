import DesignLayout.Scene.Layout

/-!
# What a layout asks of a scene

A frame is placed by its look and by the number of its children, and a text by
its look alone.  So nodes that look alike are placed alike, and a document
places its nodes by its styles and variables, whatever its root.
-/

namespace DesignLayout

/-- Frames that a document lays out and paints alike.  What they have of their
own is the same. -/
structure Frame.LooksLike (document : Document) (frame other : Frame) : Prop where
  name : frame.name = other.name := by rfl
  visible : frame.visible = other.visible := by rfl
  width : frame.width = other.width := by rfl
  height : frame.height = other.height := by rfl
  horizontalSizing : frame.horizontalSizing = other.horizontalSizing := by rfl
  verticalSizing : frame.verticalSizing = other.verticalSizing := by rfl
  primaryAlign : frame.primaryAlign = other.primaryAlign := by rfl
  counterAlign : frame.counterAlign = other.counterAlign := by rfl
  layout : document.autoLayout? frame = document.autoLayout? other := by rfl
  radii : document.radii frame = document.radii other := by rfl
  background : document.background? frame = document.background? other
  border : document.border? frame = document.border? other

/-- Texts that a document shows alike, of one size. -/
structure TextRun.LooksLike (document : Document) (run other : TextRun) : Prop where
  name : run.name = other.name := by rfl
  visible : run.visible = other.visible := by rfl
  width : run.width = other.width := by rfl
  height : run.height = other.height := by rfl
  horizontalSizing : run.horizontalSizing = other.horizontalSizing := by rfl
  verticalSizing : run.verticalSizing = other.verticalSizing := by rfl
  text : document.text? run = document.text? other

namespace Document

variable {document : Document}

theorem colorOf?_congr {paints others : Option (List Paint)}
    (same : paints.bind document.soleColor? = others.bind document.soleColor?)
    (style : Option String) :
    document.colorOf? paints style = document.colorOf? others style := by
  simp only [colorOf?, same]

theorem frameModifiers_congr {frame other : Frame} (looks : frame.LooksLike document other)
    (scope : Scope) (layout : AutoLayout) :
    document.frameModifiers scope frame layout = document.frameModifiers scope other layout := by
  simp only [frameModifiers, looks.horizontalSizing, looks.verticalSizing, looks.width,
    looks.height, looks.radii, looks.background, looks.border]

/-- Frames that look alike are placed alike, if they hold as many children and
these are placed alike. -/
theorem place?_frame_congr {frame other : Frame} {children others : List Scene}
    (looks : frame.LooksLike document other) (count : children.length = others.length)
    (below : ∀ inner, document.placeAll inner children = document.placeAll inner others)
    (scope : Scope) :
    document.place? scope (.frame frame children) =
      document.place? scope (.frame other others) := by
  have kind : ∀ layout : AutoLayout,
      layout.kind frame children.length = layout.kind other others.length := by
    intro layout
    simp only [AutoLayout.kind, looks.primaryAlign, looks.counterAlign, count]
  simp only [place?, looks.visible, looks.layout, looks.name, kind, below,
    frameModifiers_congr looks]

theorem place?_text_congr {run other : TextRun} (looks : run.LooksLike document other)
    (scope : Scope) : document.place? scope (.text run) = document.place? scope (.text other) := by
  have modifiers : run.modifiers scope = other.modifiers scope := by
    simp only [TextRun.modifiers, looks.horizontalSizing, looks.verticalSizing, looks.width,
      looks.height]
  simp only [place?, looks.visible, looks.text, looks.name, modifiers]

mutual

/-- The root of a document is not asked for when nodes are placed. -/
theorem place?_with_root (document : Document) (root : Scene) : ∀ (scope : Scope) (node : Scene),
    place? { document with root } scope node = document.place? scope node
  | scope, .frame frame children => by
      simp only [place?, placeAll_with_root document root]
      rfl
  | scope, .text run => by
      simp only [place?]
      rfl
  | scope, .unsupported => by simp only [place?]

/-- List counterpart of place?_with_root. -/
theorem placeAll_with_root (document : Document) (root : Scene) :
    ∀ (scope : Scope) (nodes : List Scene),
    placeAll { document with root } scope nodes = document.placeAll scope nodes
  | scope, [] => by simp only [placeAll]
  | scope, node :: rest => by
      simp only [placeAll, place?_with_root document root, placeAll_with_root document root]

end

theorem layout?_with_root (document : Document) (root : Scene) :
    layout? { document with root } = document.place? .free root :=
  document.place?_with_root root .free root

end Document

end DesignLayout
