import DesignLayout.Proofs.Placement

/-!
# What a layout keeps of a scene

A layout has the nodes of the scene that can be placed, and nothing below a
node that cannot.  Whether a node can be placed is said by the node and the
document alone.  Those that are left stand as they stood in the scene, in the
same order and one within another; a frame becomes what its mode, its wrapping
and the number of its children in the scene make of it, however many of them
are left.
-/

namespace DesignLayout

/-- A tree of labels. -/
inductive Outline (α : Type) where
  | node (label : α) (branches : List (Outline α))
  deriving Repr

namespace Outline

variable {α β : Type}

mutual

def map (relabel : α → β) : Outline α → Outline β
  | .node label branches => .node (relabel label) (mapList relabel branches)

def mapList (relabel : α → β) : List (Outline α) → List (Outline β)
  | [] => []
  | first :: rest => map relabel first :: mapList relabel rest

end

mutual

/-- The tree without the nodes that fail a test, each taken away with all that
is below it. -/
def prune? (keeps : α → Bool) : Outline α → Option (Outline α)
  | .node label branches =>
    if keeps label then some (.node label (pruneList keeps branches)) else none

def pruneList (keeps : α → Bool) : List (Outline α) → List (Outline α)
  | [] => []
  | first :: rest =>
    match prune? keeps first with
    | some kept => kept :: pruneList keeps rest
    | none => pruneList keeps rest

end

theorem mapList_pruneList_cons (relabel : α → β) (keeps : α → Bool) (first : Outline α)
    (rest : List (Outline α)) :
    mapList relabel (pruneList keeps (first :: rest)) =
      ((prune? keeps first).map (map relabel)).toList ++
        mapList relabel (pruneList keeps rest) := by
  rw [pruneList]
  cases prune? keeps first <;> rfl

end Outline

mutual

/-- The scene as a tree of its nodes.  Each label is a node with all that the
scene has below it. -/
def Scene.outline : Scene → Outline Scene
  | .frame properties children =>
    .node (.frame properties children) (Scene.outlineList children)
  | .text run => .node (.text run) []
  | .unsupported => .node .unsupported []

def Scene.outlineList : List Scene → List (Outline Scene)
  | [] => []
  | node :: rest => node.outline :: Scene.outlineList rest

end

/-- What a frame becomes, by its number of children. -/
def Frame.kindName (frame : Frame) (childCount : Nat) : String :=
  if childCount ≤ 1 then "box"
  else
    match frame.mode with
    | .horizontal => if frame.wrap = .wraps then "flowRow" else "row"
    | .vertical => "column"
    | _ => "box"

/-- The name of a scene node, and what it becomes. -/
def Scene.heading : Scene → String × String
  | .frame properties children => (properties.name, properties.kindName children.length)
  | .text run => (run.name, "text")
  | .unsupported => ("", "")

/-- Only a text becomes a text. -/
theorem Scene.heading_eq_text {node : Scene} :
    node.heading.2 = "text" ↔ ∃ run, node = .text run := by
  cases node with
  | frame frame children =>
      have container : frame.kindName children.length ≠ "text" := by
        unfold Frame.kindName
        split
        · decide
        · split <;> [split <;> decide; decide; decide]
      exact ⟨fun same => absurd same container, fun ⟨_, same⟩ => nomatch same⟩
  | text run => exact ⟨fun _ => ⟨run, rfl⟩, fun _ => rfl⟩
  | unsupported => exact ⟨fun same => absurd same (by decide), fun ⟨_, same⟩ => nomatch same⟩

mutual

/-- The names and kinds of the nodes in a layout tree. -/
def Layout.headings : Layout → Outline (String × String)
  | ⟨name, _, children, kind⟩ => .node (name, kind.name) (Layout.headingsList children)

def Layout.headingsList : List Layout → List (Outline (String × String))
  | [] => []
  | node :: rest => node.headings :: Layout.headingsList rest

end

/-- Whether the mode and the wrapping of a frame are supported. -/
def Frame.isSupported (frame : Frame) : Bool :=
  frame.mode != .unsupported && frame.wrap != .unsupported

/-- Whether the typography of a text is the same throughout. -/
def TextRun.isUniform (run : TextRun) : Bool :=
  !run.size.isMixed && !run.weight.isMixed && !run.decoration.isMixed && !run.face.isMixed &&
    !run.letterSpacing.isMixed && !run.lineHeight.isMixed && !run.letterCase.isMixed

namespace Document

variable (document : Document)

/-- Whether a text takes its typography from a text style: one style of the
document and one weight go for all of it. -/
def usesTextStyle (run : TextRun) : Bool :=
  match run.style, run.weight with
  | .same id, .same _ =>
    match document.styleById.get? id with
    | some (.text _) => id != ""
    | _ => false
  | _, _ => false

/-- Whether a node can be placed by itself: a visible frame whose mode and
wrapping are supported, or a visible text with the same fills throughout whose
typography is that of a style or the same throughout. -/
def canPlace : Scene → Bool
  | .frame frame _ => frame.visible && frame.isSupported
  | .text run =>
    run.visible && ((document.usesTextStyle run || run.isUniform) && !run.fills.isMixed)
  | .unsupported => false

end Document

namespace Uniform

variable {α β : Type}

theorem isSome_value?_bind (property : Uniform α) {rest : α → Option β} {known : Bool}
    (given : ∀ value, (rest value).isSome = known) :
    (property.value? >>= rest).isSome = (!property.isMixed && known) := by
  cases property with
  | mixed => rfl
  | same value => exact given value

end Uniform

theorem TextRun.isSome_ownFont? (run : TextRun) : run.ownFont?.isSome = run.isUniform := by
  simp only [isUniform, Bool.and_assoc]
  apply run.size.isSome_value?_bind
  intro size
  apply run.weight.isSome_value?_bind
  intro weight
  apply run.decoration.isSome_value?_bind
  intro decoration
  apply run.face.isSome_value?_bind
  intro face
  apply run.letterSpacing.isSome_value?_bind
  intro letterSpacing
  apply run.lineHeight.isSome_value?_bind
  intro lineHeight
  rw [← Bool.and_true (!run.letterCase.isMixed)]
  exact run.letterCase.isSome_value?_bind fun _ => rfl

namespace AutoLayout

variable {document : Document} {frame : Frame} {layout : AutoLayout}

theorem name_kind (supported : document.autoLayout? frame = some layout) (childCount : Nat) :
    (layout.kind frame childCount).name = frame.kindName childCount := by
  unfold Document.autoLayout? at supported
  unfold kind Frame.kindName
  by_cases few : childCount ≤ 1
  · have notMany : ¬ childCount > 1 := Nat.not_lt.mpr few
    simp [few, notMany, LayoutKind.name]
  · have many : childCount > 1 := Nat.lt_of_not_le few
    cases mode : frame.mode <;> cases wrap : frame.wrap <;> rw [mode, wrap] at supported <;>
      cases supported <;> simp [few, many, LayoutKind.name]

end AutoLayout

namespace Document

variable {document : Document}

theorem isSome_autoLayout? (document : Document) (frame : Frame) :
    (document.autoLayout? frame).isSome = frame.isSupported := by
  unfold autoLayout? Frame.isSupported
  cases frame.mode <;> cases frame.wrap <;> rfl

theorem isSome_font? (document : Document) (run : TextRun) :
    (document.font? run).isSome = (document.usesTextStyle run || run.isUniform) := by
  have own : (run.ownFont?.map Property.own).isSome = run.isUniform := by
    rw [Option.isSome_map, run.isSome_ownFont?]
  unfold font? usesTextStyle
  cases run.style with
  | mixed => exact own
  | same id =>
      cases run.weight with
      | mixed => exact own
      | same weight =>
          by_cases blank : id = ""
          · have unused : (id != "") = false := by simp [blank]
            simp only [if_pos blank, own, unused]
            split <;> rfl
          · have used : (id != "") = true := by simp [blank]
            simp only [if_neg blank, used]
            rcases document.styleById.get? id with _ | ⟨_, _⟩ | style | _
            case some.text => rfl
            all_goals exact own

theorem isSome_text? (document : Document) (run : TextRun) :
    (document.text? run).isSome =
      ((document.usesTextStyle run || run.isUniform) && !run.fills.isMixed) := by
  rw [← isSome_font?, text?]
  cases document.font? run with
  | none => rfl
  | some style =>
      rw [← Bool.and_true (!run.fills.isMixed)]
      exact run.fills.isSome_value?_bind fun _ => rfl

theorem isSome_place? (document : Document) (scope : Scope) (node : Scene) :
    (document.place? scope node).isSome = document.canPlace node := by
  cases node with
  | frame frame children =>
      rw [place?, canPlace, ← document.isSome_autoLayout?]
      cases frame.visible
      · rfl
      · cases document.autoLayout? frame <;> rfl
  | text run =>
      rw [place?, canPlace, ← isSome_text?]
      cases run.visible
      · rfl
      · cases document.text? run <;> rfl
  | unsupported => rw [place?]; rfl

theorem exists_place? {node : Scene} (scope : Scope) (can : document.canPlace node = true) :
    ∃ laidOut, document.place? scope node = some laidOut :=
  Option.isSome_iff_exists.mp ((document.isSome_place? scope node).trans can)

theorem headings_place?_of_not {node : Scene} (scope : Scope)
    (fails : document.canPlace node = false) :
    (document.place? scope node).map Layout.headings =
      (node.outline.prune? document.canPlace).map (Outline.map Scene.heading) := by
  have missing : (document.place? scope node).isSome = false :=
    (document.isSome_place? scope node).trans fails
  have pruned : node.outline.prune? document.canPlace = none := by
    cases node <;> rw [Scene.outline, Outline.prune?, fails] <;> rfl
  rw [Option.isSome_eq_false_iff, Option.isNone_iff_eq_none] at missing
  rw [missing, pruned]
  rfl

mutual

/-- A node is placed just where it can be, and then with what is left of all
that is below it. -/
theorem headings_place? : ∀ (scope : Scope) (node : Scene),
    (document.place? scope node).map Layout.headings =
      (node.outline.prune? document.canPlace).map (Outline.map Scene.heading)
  | scope, .frame frame children => by
      cases can : document.canPlace (.frame frame children) with
      | false => exact headings_place?_of_not scope can
      | true =>
          obtain ⟨laidOut, placed⟩ := exists_place? scope can
          rw [placed, Scene.outline, Outline.prune?, if_pos can]
          obtain ⟨-, layout, supported, rfl⟩ := place?_frame_eq_some.mp placed
          -- The kind is made of all children, before any of them is dropped.
          have below := headingsList_placeAll (layout.kind frame children.length).scope children
          rw [Option.map_some, Layout.headings, below, AutoLayout.name_kind supported]
          rfl
  | scope, .text run => by
      cases can : document.canPlace (.text run) with
      | false => exact headings_place?_of_not scope can
      | true =>
          obtain ⟨laidOut, placed⟩ := exists_place? scope can
          rw [placed, Scene.outline, Outline.prune?, if_pos can]
          obtain ⟨-, text, -, rfl⟩ := place?_text_eq_some.mp placed
          rfl
  | scope, .unsupported => headings_place?_of_not scope rfl

/-- List counterpart of headings_place?. -/
theorem headingsList_placeAll : ∀ (scope : Scope) (nodes : List Scene),
    Layout.headingsList (document.placeAll scope nodes) =
      Outline.mapList Scene.heading
        (Outline.pruneList document.canPlace (Scene.outlineList nodes))
  | scope, [] => by
      rw [placeAll]
      rfl
  | scope, node :: rest => by
      have first := headings_place? scope node
      have later := headingsList_placeAll scope rest
      rw [Scene.outlineList, Outline.mapList_pruneList_cons, ← first, ← later, placeAll]
      cases document.place? scope node <;> rfl

end

/-- A document has a layout just where its root can be placed.  The layout is
the scene without the nodes that cannot be placed and all that is below them:
the nodes that are left stand in the same order and one within another as in the
scene, each with its own name and with the kind that its children in the scene
make of it, and only texts are texts. -/
theorem headings_layout? (document : Document) :
    (document.layout? = none ↔ document.canPlace document.root = false) ∧
      document.layout?.map Layout.headings =
        (document.root.outline.prune? document.canPlace).map (Outline.map Scene.heading) ∧
      ∀ node : Scene, node.heading.2 = "text" ↔ ∃ run, node = .text run := by
  refine ⟨?_, headings_place? .free document.root, fun _ => Scene.heading_eq_text⟩
  rw [← document.isSome_place? .free, Option.isSome_eq_false_iff, Option.isNone_iff_eq_none]
  rfl

/-- A frame with two children stays a row with the one that is shown. -/
example : (Document.layout? ⟨.frame { name := "card", mode := .horizontal }
      [.text { visible := false }, .text { name := "title" }], .empty, .empty⟩).map
        Layout.headings = some (.node ("card", "row") [.node ("title", "text") []]) := by
  rfl

end Document

end DesignLayout
