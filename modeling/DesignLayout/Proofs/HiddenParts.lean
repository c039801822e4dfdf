import DesignLayout.Proofs.KeptNodes
import DesignLayout.Proofs.SceneLooks

/-!
# What a layout does not show of a scene

A node that cannot be placed counts as one child of its frame and for nothing
else, whatever it is and whatever it holds.  A paint that is not visible counts
for nothing at all.  So a scene can be stripped of both, and its layout stays as
it is.
-/

namespace DesignLayout

/-- Paints of which some that are not visible are taken away. -/
inductive Paint.Stripped : List Paint → List Paint → Prop where
  | nil : Stripped [] []
  | keep (paint : Paint) {paints others : List Paint} :
      Stripped paints others → Stripped (paint :: paints) (paint :: others)
  | drop {paint : Paint} {paints others : List Paint} :
      paint.visible = false → Stripped paints others → Stripped (paint :: paints) others

/-- The same for the fills of a node, which may be mixed. -/
inductive Paint.StrippedFills : Uniform (List Paint) → Uniform (List Paint) → Prop where
  | mixed : StrippedFills .mixed .mixed
  | same {paints others : List Paint} :
      Stripped paints others → StrippedFills (.same paints) (.same others)

/-- A scene in which some of the nodes that cannot be placed are bare nodes of
an unsupported type, and some paints that are not visible are taken away. -/
inductive Scene.Stripped (document : Document) : Scene → Scene → Prop where
  | bare {node : Scene} : document.canPlace node = false → Stripped document node .unsupported
  | frame {frame : Frame} {fills : Uniform (List Paint)} {strokes : List Paint}
      {children others : List Scene} :
      Paint.StrippedFills frame.fills fills → Paint.Stripped frame.strokes strokes →
      List.Forall₂ (Stripped document) children others →
      Stripped document (.frame frame children) (.frame { frame with fills, strokes } others)
  | text {run : TextRun} {fills : Uniform (List Paint)} :
      Paint.StrippedFills run.fills fills →
      Stripped document (.text run) (.text { run with fills })

theorem Paint.Stripped.filter_visible {paints others : List Paint}
    (stripped : Stripped paints others) :
    paints.filter Paint.visible = others.filter Paint.visible := by
  induction stripped with
  | nil => rfl
  | keep paint _ ih => rw [List.filter_cons, List.filter_cons, ih]
  | drop hidden _ ih => rw [List.filter_cons_of_neg (by simp [hidden]), ih]

/-- What is made of fills alike, stripped or not, is made of stripped fills. -/
theorem Paint.StrippedFills.bind_value? {α : Type} {fills others : Uniform (List Paint)}
    (stripped : StrippedFills fills others) {rest : List Paint → Option α}
    (same : ∀ paints layers, Stripped paints layers → rest paints = rest layers) :
    (fills.value? >>= rest) = (others.value? >>= rest) := by
  cases stripped with
  | mixed => rfl
  | same paints => exact same _ _ paints

namespace Document

variable {document : Document}

theorem soleColor?_stripped (document : Document) {paints others : List Paint}
    (stripped : Paint.Stripped paints others) :
    document.soleColor? paints = document.soleColor? others := by
  rw [soleColor?, soleColor?, stripped.filter_visible]

theorem colorOf?_stripped (document : Document) {paints others : List Paint}
    (stripped : Paint.Stripped paints others) (style : Option String) :
    document.colorOf? (some paints) style = document.colorOf? (some others) style := by
  apply colorOf?_congr
  exact document.soleColor?_stripped stripped

theorem frame_looksLike_stripped (document : Document) {frame : Frame}
    {fills : Uniform (List Paint)} {strokes : List Paint}
    (fillsStripped : Paint.StrippedFills frame.fills fills)
    (strokesStripped : Paint.Stripped frame.strokes strokes) :
    frame.LooksLike document { frame with fills, strokes } where
  background := by
    apply colorOf?_congr
    exact fillsStripped.bind_value? fun _ _ => document.soleColor?_stripped
  border := by
    have color := document.colorOf?_stripped strokesStripped (some frame.strokeStyle)
    rw [border?, border?, color]

theorem text_looksLike_stripped (document : Document) {run : TextRun}
    {fills : Uniform (List Paint)} (stripped : Paint.StrippedFills run.fills fills) :
    run.LooksLike document { run with fills } where
  text := by
    apply congrArg (document.font? run >>= ·)
    funext style
    apply stripped.bind_value?
    intro paints layers same
    rw [document.colorOf?_stripped same run.fillStyle.value?]

/-- What cannot be placed is placed as a bare node is. -/
theorem place?_of_not {node : Scene} (fails : document.canPlace node = false) (scope : Scope) :
    document.place? scope node = document.place? scope .unsupported := by
  have missing := (document.isSome_place? scope node).trans fails
  rw [Option.isSome_eq_false_iff, Option.isNone_iff_eq_none] at missing
  rw [missing, place?]

mutual

theorem place?_stripped : ∀ {node other : Scene}, node.Stripped document other →
    ∀ scope, document.place? scope node = document.place? scope other
  | .frame frame children, _, stripped, scope => by
      cases stripped with
      | bare fails => exact place?_of_not fails scope
      | frame fills strokes below =>
          have looks := document.frame_looksLike_stripped fills strokes
          exact place?_frame_congr looks below.length_eq (placeAll_stripped below) scope
  | .text run, _, stripped, scope => by
      cases stripped with
      | bare fails => exact place?_of_not fails scope
      | text fills => exact place?_text_congr (document.text_looksLike_stripped fills) scope
  | .unsupported, _, stripped, scope => by
      cases stripped with
      | bare => rfl

/-- List counterpart of place?_stripped. -/
theorem placeAll_stripped : ∀ {nodes others : List Scene},
    List.Forall₂ (Scene.Stripped document) nodes others →
    ∀ scope, document.placeAll scope nodes = document.placeAll scope others
  | [], _, stripped, scope => by
      cases stripped
      rfl
  | node :: rest, _, stripped, scope => by
      cases stripped with
      | cons first later =>
          rw [placeAll, placeAll, place?_stripped first scope, placeAll_stripped later scope]

end

/-- A scene and what is left when it is stripped have one layout, and so have all
scenes of which the same is left.  What such scenes hold in nodes that cannot be
placed, and in paints that are not visible, makes no difference. -/
theorem layout?_stripped (document : Document) (root : Scene)
    (stripped : document.root.Stripped document root) :
    layout? { document with root } = document.layout? ∧
      ∀ other : Scene, other.Stripped document root →
        layout? { document with root := other } = document.layout? := by
  have left : document.layout? = document.place? .free root := place?_stripped stripped .free
  constructor
  · rw [layout?_with_root, left]
  · intro other otherStripped
    rw [layout?_with_root, left, place?_stripped otherStripped .free]

/-- A frame that is not visible still makes a row of its parent, and a paint that
is not visible keeps no background away. -/
theorem layout?_stripped_hiddenFrame :
    let paint : Paint := ⟨.solid, some ⟨1.0, 0.0, 0.0, 1.0⟩, none, true, none⟩
    let hidden : Paint := { paint with visible := false, colorVariable := some "V:red" }
    let title : Scene := .text { name := "title" }
    let secret : Scene := .frame { name := "secret", visible := false } [title, title]
    let document : Document :=
      ⟨.frame { name := "card", mode := .horizontal, fills := .same [hidden, paint] }
        [secret, title], .empty, .empty⟩
    let root : Scene := .frame { name := "card", mode := .horizontal, fills := .same [paint] }
      [.unsupported, title]
    document.root.Stripped document root ∧
      document.layout?.map Layout.headings =
        some (.node ("card", "row") [.node ("title", "text") []]) ∧
      layout? { document with root } = document.layout? := by
  intro paint hidden title secret document root
  have visible : Paint.Stripped [hidden, paint] [paint] := .drop rfl (.keep paint .nil)
  have children : List.Forall₂ (Scene.Stripped document) [secret, title] [.unsupported, title] :=
    .cons (.bare rfl) (.cons (.text (.same .nil)) .nil)
  have stripped : document.root.Stripped document root := .frame (.same visible) .nil children
  exact ⟨stripped, rfl, (layout?_stripped document root stripped).1⟩

end Document

end DesignLayout
