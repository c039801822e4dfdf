import DesignLayout.Proofs.Placement
import DesignLayout.Proofs.SceneLooks
import DesignLayout.Proofs.ScopeSafety

/-!
# How far a scope reaches

What a container became is felt by its children and by nothing below them.  A
child is the layout that it has as the root of a document, with what it asks of
its parent put in front of its modifiers.  Whether it is left out, its kind and
all that it holds do not depend on where it stands.
-/

namespace DesignLayout

/-- Whether a node of this kind lines up its texts by their baselines. -/
def LayoutKind.linesUpTexts : LayoutKind → Bool
  | .row _ (some .baseline) => true
  | _ => false

theorem LayoutKind.isBaseline_scope (kind : LayoutKind) :
    kind.scope.isBaseline = kind.linesUpTexts := by
  cases kind with
  | row arrangement alignment => rcases alignment with _ | _ | _ | _ | _ <;> rfl
  | flowRow horizontal vertical => rfl
  | column arrangement alignment => rfl
  | box centered => rfl
  | text content => rfl

/-- A node under a parent is the node alone behind at most one modifier by which
it grows and, for a text that is lined up, its baseline. -/
def Layout.Joins (parent : LayoutKind) (alone joined : Layout) : Prop :=
  ∃ growth : Option Modifier, (∀ modifier ∈ growth, modifier.isGrowth = true) ∧
    joined = { alone with modifiers :=
      growth.toList ++ (if alone.holdsText ∧ parent.linesUpTexts then [.baseline] else []) ++
        alone.modifiers }

theorem isGrowth_of_mem_stretch? (scope : Scope) (horizontal vertical : Sizing) :
    ∀ modifier ∈ stretch? scope horizontal vertical, modifier.isGrowth = true := by
  intro modifier asked
  have kept : (stretch? scope horizontal vertical).toList.filter Modifier.isGrowth =
      (stretch? scope horizontal vertical).toList := filter_isGrowth_stretch? scope
  exact List.filter_eq_self.mp kept modifier (Option.mem_toList.mpr asked)

namespace TextRun

theorem modifiers_eq (run : TextRun) (scope : Scope) :
    run.modifiers scope =
      (stretch? scope run.horizontalSizing run.verticalSizing).toList ++
        (if scope.isBaseline then [.baseline] else []) ++ run.modifiers .free := by
  simp [modifiers, stretch?, Scope.isBaseline]

end TextRun

namespace Document

variable {document : Document} {scope : Scope} {frame : Frame} {children : List Scene}
variable {laidOut : Layout}

theorem frameModifiers_eq (document : Document) (scope : Scope) (frame : Frame)
    (layout : AutoLayout) :
    document.frameModifiers scope frame layout =
      (stretch? scope frame.horizontalSizing frame.verticalSizing).toList ++
        document.frameModifiers .free frame layout := by
  simp [frameModifiers, stretch?]

/-- A node has a layout under a parent just where it has one alone, and the one
comes from the other. -/
theorem place?_joins (document : Document) (parent : LayoutKind) : ∀ node : Scene,
    Option.Rel (Layout.Joins parent) (document.place? .free node)
      (document.place? parent.scope node)
  | .frame frame children => by
      rw [place?, place?]
      split
      case isFalse => exact .none
      case isTrue =>
        cases document.autoLayout? frame with
        | none => exact .none
        | some layout =>
            have growth := isGrowth_of_mem_stretch? parent.scope frame.horizontalSizing
              frame.verticalSizing
            refine .some ⟨_, growth, ?_⟩
            rw [document.frameModifiers_eq parent.scope]
            simp [Layout.holdsText, holdsText_kind]
  | .text run => by
      rw [place?, place?]
      split
      case isFalse => exact .none
      case isTrue =>
        cases document.text? run with
        | none => exact .none
        | some text =>
            have growth := isGrowth_of_mem_stretch? parent.scope run.horizontalSizing
              run.verticalSizing
            refine .some ⟨_, growth, ?_⟩
            rw [run.modifiers_eq parent.scope, parent.isBaseline_scope]
            simp [Layout.holdsText, LayoutKind.holdsText]
  | .unsupported => by
      rw [place?, place?]
      exact .none

/-- The children of a container are the layouts of its scene nodes, each as it is
alone at the root, behind what it asks of the container. -/
theorem place?_children (placed : document.place? scope (.frame frame children) = some laidOut) :
    laidOut.children = children.filterMap (document.place? laidOut.kind.scope) ∧
      ∀ child ∈ children, Option.Rel (Layout.Joins laidOut.kind)
        (layout? { document with root := child }) (document.place? laidOut.kind.scope child) := by
  obtain ⟨-, layout, -, rfl⟩ := place?_frame_eq_some.mp placed
  refine ⟨document.placeAll_eq_filterMap _ children, ?_⟩
  intro child _
  rw [document.layout?_with_root]
  exact document.place?_joins _ child

/-- A row on a baseline that fills the column it stands in, with a text that grows
and has a height, a node that is left out, and a box that fills its height. -/
theorem place?_children_baseline : ∃ children laidOut,
    place? ⟨.unsupported, .empty, .empty⟩ .column (.frame
      { mode := .horizontal, counterAlign := .baseline, horizontalSizing := .fill } children) =
      some laidOut ∧
    children.length = 3 ∧ laidOut.modifiers = [.fillMax .width] ∧
    laidOut.children.map Layout.modifiers =
      [[.weight 1.0, .baseline, .size .height (.own 12.0)], [.fillMax .height]] ∧
    laidOut.children =
      children.filterMap (place? ⟨.unsupported, .empty, .empty⟩ laidOut.kind.scope) ∧
    ∀ child ∈ children, Option.Rel (Layout.Joins laidOut.kind)
      (layout? ⟨child, .empty, .empty⟩)
      (place? ⟨.unsupported, .empty, .empty⟩ laidOut.kind.scope child) := by
  have shown : (place? ⟨.unsupported, .empty, .empty⟩ .column (.frame
      { mode := .horizontal, counterAlign := .baseline, horizontalSizing := .fill }
      [.text { horizontalSizing := .fill, verticalSizing := .fixed, height := 12.0 },
        .unsupported, .frame { verticalSizing := .fill } [.text {}]])).map
        (fun laidOut => (laidOut.modifiers, laidOut.children.map Layout.modifiers)) =
      some ([.fillMax .width],
        [[.weight 1.0, .baseline, .size .height (.own 12.0)], [.fillMax .height]]) := by
    decide
  obtain ⟨laidOut, placed, modifiers⟩ := Option.map_eq_some_iff.mp shown
  obtain ⟨own, below⟩ := Prod.mk.inj modifiers
  obtain ⟨children, joins⟩ := place?_children placed
  exact ⟨_, laidOut, placed, rfl, own, below, children, joins⟩

end Document

end DesignLayout
