import Mathlib
import DesignLayout.Scene.Layout

/-!
# Children ask only for what their parents offer

A weight and a filled axis mean something in a row or a column, and a baseline
in a row that lines its texts up.  In the layout of a scene every node keeps
to what the kind of its parent offers, at any depth and whatever was left out
in between.
-/

namespace DesignLayout

/-- Whether a modifier makes a node grow in its parent. -/
def Modifier.isGrowth : Modifier → Bool
  | .weight _ => true
  | .fillMax _ => true
  | _ => false

namespace Layout

/-- The modifiers by which a node grows in its parent. -/
def growth (node : Layout) : List Modifier :=
  node.modifiers.filter Modifier.isGrowth

/-- How often a node asks to be lined up by its baseline. -/
def baselines (node : Layout) : Nat :=
  node.modifiers.count .baseline

/-- What a node may ask for under a parent.  Of growth it may ask at most
once. -/
def FitsUnder (node : Layout) : LayoutKind → Prop
  | .row _ alignment =>
    node.growth ∈ [[], [.weight 1.0], [.fillMax .height]] ∧
      node.baselines = if node.holdsText ∧ alignment = some .baseline then 1 else 0
  | .column _ _ =>
    node.growth ∈ [[], [.weight 1.0], [.fillMax .width]] ∧ node.baselines = 0
  | .flowRow _ _ => node.growth = [] ∧ node.baselines = 0
  | .box _ => node.growth = [] ∧ node.baselines = 0
  | .text _ => node.growth = [] ∧ node.baselines = 0

/-- Every node of a tree that has a parent in it fits under the parent. -/
def Scoped (root : Layout) : Prop :=
  ∀ node ∈ root.preorder, ∀ child ∈ node.children, child.FitsUnder node.kind

end Layout

section modifiers

variable {horizontal vertical : Sizing}

@[simp] theorem filter_isGrowth_sizeModifiers (width height : Float) :
    (sizeModifiers horizontal vertical width height).filter Modifier.isGrowth = [] := by
  unfold sizeModifiers
  split
  · split <;> rfl
  · rfl
  · rfl
  · rfl

@[simp] theorem count_baseline_sizeModifiers (width height : Float) :
    (sizeModifiers horizontal vertical width height).count .baseline = 0 := by
  unfold sizeModifiers
  split
  · split <;> simp
  · simp
  · simp
  · simp

@[simp] theorem filter_isGrowth_stretch? (scope : Scope) :
    (stretch? scope horizontal vertical).toList.filter Modifier.isGrowth =
      (stretch? scope horizontal vertical).toList := by
  cases scope <;> simp only [stretch?] <;> repeat' split
  all_goals rfl

@[simp] theorem count_baseline_stretch? (scope : Scope) :
    (stretch? scope horizontal vertical).toList.count .baseline = 0 := by
  cases scope <;> simp only [stretch?] <;> repeat' split
  all_goals simp

/-- What a node takes from its scope to grow fits under the parent. -/
theorem stretch?_fits (parent : LayoutKind) (horizontal vertical : Sizing) :
    match parent with
    | .row _ _ => (stretch? parent.scope horizontal vertical).toList ∈
        [[], [.weight 1.0], [.fillMax .height]]
    | .column _ _ => (stretch? parent.scope horizontal vertical).toList ∈
        [[], [.weight 1.0], [.fillMax .width]]
    | _ => (stretch? parent.scope horizontal vertical).toList = [] := by
  cases parent with
  | row arrangement alignment =>
      simp only [LayoutKind.scope, stretch?]
      split
      · simp
      · split <;> simp
  | column arrangement alignment =>
      simp only [LayoutKind.scope, stretch?]
      split
      · simp
      · split <;> simp
  | flowRow across down => rfl
  | box centered => rfl
  | text content => rfl

/-- A node fits under a parent if it takes its growth from the scope, and a
baseline where it is a text in a scope that has one. -/
theorem Layout.fitsUnder_of_stretch {node : Layout} {parent : LayoutKind}
    (growth : node.growth = (stretch? parent.scope horizontal vertical).toList)
    (baselines : node.baselines =
      if node.holdsText = true ∧ parent.scope.isBaseline = true then 1 else 0) :
    node.FitsUnder parent := by
  have stretched := stretch?_fits parent horizontal vertical
  rw [← growth] at stretched
  cases parent with
  | row arrangement alignment =>
      exact ⟨stretched, by simpa [LayoutKind.scope, Scope.isBaseline] using baselines⟩
  | column arrangement alignment =>
      exact ⟨stretched, by simpa [LayoutKind.scope, Scope.isBaseline] using baselines⟩
  | flowRow across down =>
      exact ⟨stretched, by simpa [LayoutKind.scope, Scope.isBaseline] using baselines⟩
  | box centered =>
      exact ⟨stretched, by simpa [LayoutKind.scope, Scope.isBaseline] using baselines⟩
  | text content =>
      exact ⟨stretched, by simpa [LayoutKind.scope, Scope.isBaseline] using baselines⟩

end modifiers

namespace Document

variable {document : Document}

theorem filter_isGrowth_frameModifiers (document : Document) (scope : Scope) (frame : Frame)
    (layout : AutoLayout) :
    (document.frameModifiers scope frame layout).filter Modifier.isGrowth =
      (stretch? scope frame.horizontalSizing frame.verticalSizing).toList := by
  cases background : document.background? frame <;> cases border : document.border? frame <;>
    cases padding : layout.padding? <;>
      simp [frameModifiers, background, border, padding, Modifier.isGrowth]

theorem count_baseline_frameModifiers (document : Document) (scope : Scope) (frame : Frame)
    (layout : AutoLayout) :
    (document.frameModifiers scope frame layout).count .baseline = 0 := by
  cases background : document.background? frame <;> cases border : document.border? frame <;>
    cases padding : layout.padding? <;>
      simp [frameModifiers, background, border, padding]

/-- A frame fits where it is placed: it asks for no baseline. -/
theorem frame_fitsUnder {parent : LayoutKind} {frame : Frame} {layout : AutoLayout}
    {children : List Layout} {kind : LayoutKind} (container : kind.holdsText = false) :
    Layout.FitsUnder ⟨frame.name, document.frameModifiers parent.scope frame layout, children,
      kind⟩ parent := by
  apply Layout.fitsUnder_of_stretch
  · exact document.filter_isGrowth_frameModifiers parent.scope frame layout
  · have baselines := document.count_baseline_frameModifiers parent.scope frame layout
    simpa [Layout.baselines, Layout.holdsText, container] using baselines

/-- A text fits where it is placed: it asks for its baseline just where the
scope has one. -/
theorem text_fitsUnder {parent : LayoutKind} {run : TextRun} {content : TextBlock} :
    Layout.FitsUnder ⟨run.name, run.modifiers parent.scope, [], .text content⟩ parent := by
  have growth : (run.modifiers parent.scope).filter Modifier.isGrowth =
      (stretch? parent.scope run.horizontalSizing run.verticalSizing).toList := by
    cases parent.scope.isBaseline <;> simp [TextRun.modifiers, Modifier.isGrowth]
  have baselines : (run.modifiers parent.scope).count .baseline =
      if parent.scope.isBaseline then 1 else 0 := by
    cases baseline : parent.scope.isBaseline <;> simp [TextRun.modifiers, baseline]
  apply Layout.fitsUnder_of_stretch
  · exact growth
  · simpa [Layout.baselines, Layout.holdsText, LayoutKind.holdsText] using baselines

theorem holdsText_kind (layout : AutoLayout) (frame : Frame) (childCount : Nat) :
    (layout.kind frame childCount).holdsText = false := by
  simp only [AutoLayout.kind]
  repeat' split
  all_goals rfl

mutual

/-- A node that is placed under a parent fits there, and its tree is
scoped. -/
theorem place?_scoped : ∀ {node : Scene} {parent : LayoutKind} {laidOut : Layout},
    document.place? parent.scope node = some laidOut →
      laidOut.FitsUnder parent ∧ laidOut.Scoped
  | .frame frame children, parent, laidOut, placed => by
      rw [place?] at placed
      split at placed
      case isFalse => cases placed
      case isTrue =>
        obtain ⟨layout, -, placed⟩ := Option.bind_eq_some_iff.mp placed
        obtain rfl := Option.some.inj placed
        refine ⟨frame_fitsUnder (holdsText_kind _ _ _), ?_⟩
        let kind := layout.kind frame children.length
        have below : ∀ laidOut ∈ document.placeAll kind.scope children,
            laidOut.FitsUnder kind ∧ laidOut.Scoped := placeAll_scoped
        intro node member child childMember
        rw [Layout.preorder, Layout.preorderList_eq_flatMap] at member
        rcases List.mem_cons.mp member with rfl | inside
        · exact (below child childMember).1
        · obtain ⟨top, topMember, inside⟩ := List.mem_flatMap.mp inside
          exact (below top topMember).2 node inside child childMember
  | .text run, parent, laidOut, placed => by
      rw [place?] at placed
      split at placed
      case isFalse => cases placed
      case isTrue =>
        obtain ⟨text, -, placed⟩ := Option.bind_eq_some_iff.mp placed
        obtain rfl := Option.some.inj placed
        refine ⟨text_fitsUnder, ?_⟩
        intro node member child childMember
        rw [Layout.preorder, Layout.preorderList, List.mem_singleton] at member
        subst member
        cases childMember
  | .unsupported, parent, laidOut, placed => by
      rw [place?] at placed
      cases placed

/-- List counterpart of place?_scoped. -/
theorem placeAll_scoped : ∀ {nodes : List Scene} {parent : LayoutKind},
    ∀ laidOut ∈ document.placeAll parent.scope nodes,
      laidOut.FitsUnder parent ∧ laidOut.Scoped
  | [], parent, laidOut, member => by
      rw [placeAll] at member
      cases member
  | node :: rest, parent, laidOut, member => by
      rw [placeAll] at member
      split at member
      case h_1 first placed =>
        rcases List.mem_cons.mp member with rfl | later
        · exact place?_scoped placed
        · exact placeAll_scoped laidOut later
      case h_2 => exact placeAll_scoped laidOut member

end

variable {root : Layout}

/-- The root asks for nothing, and each other node for what its parent offers:
weight or a filled height in a row, weight or a filled width in a column, and
its baseline just where it is a text in a row that lines its texts up. -/
theorem layout?_scoped (laidOut : document.layout? = some root) :
    root.growth = [] ∧ root.baselines = 0 ∧
      ∀ node ∈ root.preorder, ∀ child ∈ node.children, child.FitsUnder node.kind := by
  have placed : root.FitsUnder (.box false) ∧ root.Scoped := place?_scoped laidOut
  obtain ⟨fits, below⟩ := placed
  exact ⟨fits.1, fits.2, below⟩

/-- A row on a baseline, with a text that fills both axes, a node that is left
out, and a column that fills its height with a text that fills its width. -/
theorem layout?_scoped_baseline : ∃ root,
    layout? ⟨.frame { mode := .horizontal, counterAlign := .baseline }
      [.text { horizontalSizing := .fill, verticalSizing := .fill }, .unsupported,
        .frame { mode := .vertical, verticalSizing := .fill }
          [.text { horizontalSizing := .fill }, .text {}]], .empty, .empty⟩ = some root ∧
    root.preorder.map Layout.modifiers =
      [[], [.weight 1.0, .baseline], [.fillMax .height], [.fillMax .width], []] ∧
    root.growth = [] ∧ root.baselines = 0 ∧
      ∀ node ∈ root.preorder, ∀ child ∈ node.children, child.FitsUnder node.kind := by
  have shown : (layout? ⟨.frame { mode := .horizontal, counterAlign := .baseline }
      [.text { horizontalSizing := .fill, verticalSizing := .fill }, .unsupported,
        .frame { mode := .vertical, verticalSizing := .fill }
          [.text { horizontalSizing := .fill }, .text {}]], .empty, .empty⟩).map
        (fun root => root.preorder.map Layout.modifiers) =
      some [[], [.weight 1.0, .baseline], [.fillMax .height], [.fillMax .width], []] := by
    decide
  obtain ⟨root, laidOut, modifiers⟩ := Option.map_eq_some_iff.mp shown
  exact ⟨root, laidOut, modifiers, layout?_scoped laidOut⟩

end Document

end DesignLayout
