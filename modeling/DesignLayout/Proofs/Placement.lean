import Mathlib
import DesignLayout.Scene.Layout

/-!
# Where the nodes of a layout come from

Every node in the layout of a scene node was itself placed from a node of that
scene.  So what holds of each frame and each text that is placed holds at any
depth of a layout.
-/

namespace DesignLayout.Document

variable {document : Document}

theorem place?_frame_eq_some {scope : Scope} {frame : Frame} {children : List Scene}
    {laidOut : Layout} :
    document.place? scope (.frame frame children) = some laidOut ↔
      frame.visible = true ∧ ∃ layout, document.autoLayout? frame = some layout ∧
        laidOut = ⟨frame.name, document.frameModifiers scope frame layout,
          document.placeAll (layout.kind frame children.length).scope children,
          layout.kind frame children.length⟩ := by
  rw [place?]
  constructor
  · intro placed
    split at placed
    case isFalse => cases placed
    case isTrue visible =>
      obtain ⟨layout, supported, placed⟩ := Option.bind_eq_some_iff.mp placed
      exact ⟨visible, layout, supported, (Option.some.inj placed).symm⟩
  · intro given
    obtain ⟨visible, layout, supported, rfl⟩ := given
    rw [if_pos visible, supported]
    rfl

theorem place?_text_eq_some {scope : Scope} {run : TextRun} {laidOut : Layout} :
    document.place? scope (.text run) = some laidOut ↔
      run.visible = true ∧ ∃ text, document.text? run = some text ∧
        laidOut = ⟨run.name, run.modifiers scope, [], .text text.content⟩ := by
  rw [place?]
  constructor
  · intro placed
    split at placed
    case isFalse => cases placed
    case isTrue visible =>
      obtain ⟨text, known, placed⟩ := Option.bind_eq_some_iff.mp placed
      exact ⟨visible, text, known, (Option.some.inj placed).symm⟩
  · intro given
    obtain ⟨visible, text, known, rfl⟩ := given
    rw [if_pos visible, known]
    rfl

mutual

theorem exists_source : ∀ {source : Scene} {scope : Scope} {laidOut : Layout},
    document.place? scope source = some laidOut → ∀ node ∈ laidOut.preorder,
      ∃ origin ∈ source.preorder, ∃ inner, document.place? inner origin = some node
  | .frame frame children, scope, laidOut, placed, node, member => by
      obtain ⟨-, layout, -, rfl⟩ := place?_frame_eq_some.mp placed
      rw [Layout.preorder] at member
      rw [Scene.preorder]
      rcases List.mem_cons.mp member with rfl | below
      · exact ⟨.frame frame children, List.mem_cons_self, scope, placed⟩
      · obtain ⟨origin, originMember, inner, originPlaced⟩ :=
          exists_source_placeAll node below
        exact ⟨origin, List.mem_cons_of_mem _ originMember, inner, originPlaced⟩
  | .text run, scope, laidOut, placed, node, member => by
      obtain ⟨-, text, -, rfl⟩ := place?_text_eq_some.mp placed
      rw [Layout.preorder, Layout.preorderList, List.mem_singleton] at member
      subst member
      exact ⟨.text run, List.mem_singleton.mpr rfl, scope, placed⟩
  | .unsupported, scope, laidOut, placed, node, member => by
      rw [place?] at placed
      cases placed

/-- List counterpart of exists_source. -/
theorem exists_source_placeAll : ∀ {sources : List Scene} {scope : Scope},
    ∀ node ∈ Layout.preorderList (document.placeAll scope sources),
      ∃ origin ∈ Scene.preorderList sources, ∃ inner, document.place? inner origin = some node
  | [], scope, node, member => by
      rw [placeAll] at member
      cases member
  | source :: rest, scope, node, member => by
      have later : node ∈ Layout.preorderList (document.placeAll scope rest) →
          ∃ origin ∈ Scene.preorderList (source :: rest), ∃ inner,
            document.place? inner origin = some node := by
        intro below
        obtain ⟨origin, originMember, inner, originPlaced⟩ := exists_source_placeAll node below
        exact ⟨origin, List.mem_append_right _ originMember, inner, originPlaced⟩
      rw [placeAll] at member
      split at member
      case h_1 laidOut placed =>
        rw [Layout.preorderList] at member
        rcases List.mem_append.mp member with first | below
        · obtain ⟨origin, originMember, inner, originPlaced⟩ :=
            exists_source placed node first
          exact ⟨origin, List.mem_append_left _ originMember, inner, originPlaced⟩
        · exact later below
      case h_2 => exact later member

end

end DesignLayout.Document
