import DesignLayout.Layout.Json
import DesignLayout.Proofs.PropertyRecord

/-!
# Layout trees are read back

A layout tree is read as the tree that it was written from, as long as its
numbers are finite.  Its parts come in forms that a reader has to tell apart: a
link or a value, a space or a word, a value or null, and the fields of a kind
among those of the node.
-/

namespace DesignLayout

open Json

section words

variable (loose : Bool)

theorem HorizontalPlacement.ofWord?_word (placement : HorizontalPlacement) :
    ofWord? loose words (.str placement.word) = some placement := by
  cases placement <;> rfl

theorem VerticalPlacement.ofWord?_word (placement : VerticalPlacement) :
    ofWord? loose words (.str placement.word) = some placement := by
  cases placement <;> rfl

theorem RowAlignment.ofWord?_word (alignment : RowAlignment) :
    ofWord? loose words (.str alignment.word) = some alignment := by
  cases alignment <;> rfl

theorem ColumnAlignment.ofWord?_word (alignment : ColumnAlignment) :
    ofWord? loose words (.str alignment.word) = some alignment := by
  cases alignment <;> rfl

theorem TextPlacement.ofWord?_word (placement : TextPlacement) :
    ofWord? loose words (.str placement.word) = some placement := by
  cases placement <;> rfl

theorem Axis.ofWord?_word (axis : Axis) : ofWord? loose words (.str axis.word) = some axis := by
  cases axis <;> rfl

theorem Extent.ofWord?_word (extent : Extent) :
    ofWord? loose words (.str extent.word) = some extent := by
  cases extent <;> rfl

end words

/-- What may be null is read back, since its reader refuses null. -/
theorem Json.ReadAs.orNull {α : Type} {read : Json → Option α} {write : α → Json}
    {option : Option α} (refuses : read .null = none)
    (readAs : ∀ given ∈ option, ReadAs read (write given) given) :
    ReadAs (nullable read) (Json.orNull write option) option := by
  cases option with
  | none => exact ⟨rfl, rfl⟩
  | some given =>
      obtain ⟨readable, reads⟩ := readAs given rfl
      refine ⟨readable, ?_⟩
      rw [Json.orNull, nullable.eq_def]
      split
      case h_1 isNull =>
        rw [isNull, refuses] at reads
        cases reads
      case h_2 => rw [reads, Option.map_some]

namespace Arrangement

variable {α : Type} {arrangement : Arrangement α} {word : α → String} {words : List (String × α)}

def numbers : Arrangement α → List Float
  | .spaced spacing => [spacing.value]
  | .placed _ => []

theorem readAs (named : ∀ placement, ofWord? false words (.str (word placement)) = some placement)
    (finite : ∀ number ∈ arrangement.numbers, finiteNumber number = true) :
    ReadAs (ofJson? words) (arrangement.toJson word) arrangement := by
  apply ReadAs.whole
  cases arrangement with
  | spaced spacing =>
      have written := Dimension.readAs (finite spacing.value List.mem_cons_self)
      exact ⟨written.readable, by rw [toJson, written.reads]⟩
  | placed placement =>
      have noDimension : Dimension.ofJson? (.str (word placement)) = none := rfl
      exact ⟨rfl, by rw [toJson, noDimension, named, Option.map_some]⟩

end Arrangement

namespace Shape

def numbers (shape : Shape) : List Float :=
  shape.toList.map Property.value

theorem readAs {shape : Shape} (finite : ∀ number ∈ numbers shape, finiteNumber number = true) :
    ReadAs ofJson? (toJson shape) shape := by
  have corner : ∀ length ∈ shape.toList, ReadAs Dimension.ofJson? length.toJson length :=
    fun length member => Dimension.readAs (finite _ (List.mem_map_of_mem member))
  have topLeft := corner shape.topLeft (by simp [Corners.toList])
  have topRight := corner shape.topRight (by simp [Corners.toList])
  have bottomRight := corner shape.bottomRight (by simp [Corners.toList])
  have bottomLeft := corner shape.bottomLeft (by simp [Corners.toList])
  constructor
  · simp [toJson, isReadable, readableFields, topLeft.readable, topRight.readable,
      bottomRight.readable, bottomLeft.readable]
  · apply record?_obj
    rw [run_requiredField_bind rfl topLeft.reads, run_requiredField_bind rfl topRight.reads,
      run_requiredField_bind rfl bottomRight.reads, run_requiredField_bind rfl bottomLeft.reads]
    rfl

end Shape

namespace Padding

def numbers (padding : Padding) : List Float :=
  padding.toList.flatMap fun side => side.toList.map Property.value

theorem readAs {padding : Padding}
    (finite : ∀ number ∈ numbers padding, finiteNumber number = true) :
    ReadAs ofJson? (toJson padding) padding := by
  have edge : ∀ side ∈ padding.toList,
      ReadAs (nullable Dimension.ofJson?) (orNull Dimension.toJson side) side := by
    intro side member
    apply ReadAs.orNull rfl
    intro length given
    apply Dimension.readAs
    apply finite
    exact List.mem_flatMap.mpr
      ⟨side, member, List.mem_map_of_mem (Option.mem_toList.mpr given)⟩
  have left := edge padding.left (by simp [Edges.toList])
  have top := edge padding.top (by simp [Edges.toList])
  have right := edge padding.right (by simp [Edges.toList])
  have bottom := edge padding.bottom (by simp [Edges.toList])
  constructor
  · simp [toJson, fields, isReadable, readableFields, left.readable, top.readable,
      right.readable, bottom.readable]
  · apply record?_obj
    rw [run_optionalField_bind rfl left.reads, run_optionalField_bind rfl top.reads,
      run_optionalField_bind rfl right.reads, run_optionalField_bind rfl bottom.reads]
    rfl

end Padding

namespace Modifier

def numbers : Modifier → List Float
  | .background color shape => color.value.channels ++ shape.toList.flatMap Shape.numbers
  | .border color shape width =>
    color.value.channels ++ shape.toList.flatMap Shape.numbers ++ width.toList.map Property.value
  | .padding sides => Padding.numbers sides
  | .weight share => [share]
  | .fillMax _ => []
  | .baseline => []
  | .size _ length => [length.value]

theorem readAs_shape {shape : Option Shape}
    (finite : ∀ number ∈ shape.toList.flatMap Shape.numbers, finiteNumber number = true) :
    ReadAs (nullable Shape.ofJson?) (orNull Shape.toJson shape) shape := by
  apply ReadAs.orNull rfl
  intro given said
  apply Shape.readAs
  intro number member
  exact finite number (List.mem_flatMap.mpr ⟨given, Option.mem_toList.mpr said, member⟩)

theorem readAs_width {width : Option Dimension}
    (finite : ∀ number ∈ width.toList.map Property.value, finiteNumber number = true) :
    ReadAs (nullable Dimension.ofJson?) (orNull Dimension.toJson width) width := by
  apply ReadAs.orNull rfl
  intro given said
  exact Dimension.readAs (finite _ (List.mem_map_of_mem (Option.mem_toList.mpr said)))

theorem readAs {modifier : Modifier}
    (finite : ∀ number ∈ modifier.numbers, finiteNumber number = true) :
    ReadAs ofJson? modifier.toJson modifier := by
  apply ReadAs.whole
  cases modifier with
  | background color shape =>
      obtain ⟨colorFinite, shapeFinite⟩ := List.forall_mem_append.mp finite
      have colorReadAs := Property.readAs_color colorFinite
      have shapeReadAs := readAs_shape shapeFinite
      constructor
      · simp [toJson, isReadable, readableFields, colorReadAs.readable, shapeReadAs.readable]
      · rw [toJson, tagged?_obj rfl, Option.bind_eq_bind, Option.bind_some]
        apply record?_obj
        rw [run_requiredField_bind rfl colorReadAs.reads,
          run_optionalField_bind rfl shapeReadAs.reads]
        rfl
  | border color shape width =>
      obtain ⟨restFinite, widthFinite⟩ := List.forall_mem_append.mp finite
      obtain ⟨colorFinite, shapeFinite⟩ := List.forall_mem_append.mp restFinite
      have colorReadAs := Property.readAs_color colorFinite
      have shapeReadAs := readAs_shape shapeFinite
      have widthReadAs := readAs_width widthFinite
      constructor
      · simp [toJson, isReadable, readableFields, colorReadAs.readable, shapeReadAs.readable,
          widthReadAs.readable]
      · rw [toJson, tagged?_obj rfl, Option.bind_eq_bind, Option.bind_some]
        apply record?_obj
        rw [run_requiredField_bind rfl colorReadAs.reads,
          run_optionalField_bind rfl shapeReadAs.reads,
          run_optionalField_bind rfl widthReadAs.reads]
        rfl
  | padding sides =>
      have sidesReadAs := Padding.readAs finite
      constructor
      · simpa [toJson, Padding.toJson, isReadable, readableFields] using sidesReadAs.readable
      · rw [toJson, tagged?_obj rfl, Option.bind_eq_bind, Option.bind_some]
        show (Padding.ofJson? (Padding.toJson sides)).map Modifier.padding = _
        rw [sidesReadAs.reads, Option.map_some]
  | weight share =>
      refine ⟨rfl, ?_⟩
      rw [toJson, tagged?_obj rfl, Option.bind_eq_bind, Option.bind_some]
      apply record?_obj
      rw [run_requiredField_bind rfl (float?_float (finite share List.mem_cons_self))]
      rfl
  | fillMax axis =>
      refine ⟨rfl, ?_⟩
      rw [toJson, tagged?_obj rfl, Option.bind_eq_bind, Option.bind_some]
      apply record?_obj
      rw [run_requiredField_bind rfl (axis.ofWord?_word true)]
      rfl
  | baseline => exact ⟨rfl, rfl⟩
  | size extent length =>
      have lengthReadAs := Dimension.readAs (finite length.value List.mem_cons_self)
      constructor
      · simp [toJson, isReadable, readableFields, lengthReadAs.readable]
      · rw [toJson, tagged?_obj rfl, Option.bind_eq_bind, Option.bind_some]
        apply record?_obj
        rw [run_requiredField_bind rfl (extent.ofWord?_word true),
          run_requiredField_bind rfl lengthReadAs.reads]
        rfl

end Modifier

namespace TextBlock

def numbers (content : TextBlock) : List Float :=
  content.style.value.numbers ++ content.color.toList.flatMap (·.value.channels)

theorem readAs {content : TextBlock}
    (finite : ∀ number ∈ content.numbers, finiteNumber number = true) :
    ReadAs ofJson? (.obj content.fields) content := by
  obtain ⟨styleFinite, colorFinite⟩ := List.forall_mem_append.mp finite
  have style := Property.readAs_typography true styleFinite
  have color : ReadAs (nullable (Property.ofJson? Color.ofJson?))
      (orNull (Property.toJson Color.toJson) content.color) content.color := by
    apply ReadAs.orNull rfl
    intro given said
    apply Property.readAs_color
    intro number member
    exact colorFinite number (List.mem_flatMap.mpr ⟨given, Option.mem_toList.mpr said, member⟩)
  have align : ReadAs (nullable (ofWord? true TextPlacement.words))
      (orNull (fun align => .str align.word) content.align) content.align :=
    ReadAs.orNull rfl fun align _ => ⟨rfl, align.ofWord?_word true⟩
  have lines : ReadAs (nullable uint32?) (orNull (fun lines => .int lines.toNat) content.lineLimit)
      content.lineLimit :=
    ReadAs.orNull rfl fun lines _ => ⟨rfl, uint32?_toNat lines⟩
  have overflow : ReadAs (nullable (ofWord? true [("ellipsis", ())]))
      (if content.ellipsis then .str "ellipsis" else .null)
      (if content.ellipsis then some () else none) := by
    cases content.ellipsis <;> exact ⟨rfl, rfl⟩
  constructor
  · simp [fields, isReadable, readableFields, style.readable, color.readable, align.readable,
      lines.readable, overflow.readable]
  · apply record?_obj
    rw [run_requiredField_bind rfl (rfl : string? (.str content.text) = some content.text),
      run_requiredField_bind rfl style.reads, run_optionalField_bind rfl color.reads,
      run_optionalField_bind rfl align.reads, run_optionalField_bind rfl lines.reads,
      run_optionalField_bind rfl overflow.reads]
    have ended : (if content.ellipsis then some () else none).isSome = content.ellipsis := by
      cases content.ellipsis <;> rfl
    rw [ended]
    rfl

end TextBlock

namespace LayoutKind

def numbers : LayoutKind → List Float
  | .row arrangement _ => arrangement.toList.flatMap Arrangement.numbers
  | .flowRow horizontal vertical =>
    horizontal.toList.flatMap Arrangement.numbers ++ vertical.toList.flatMap Arrangement.numbers
  | .column arrangement _ => arrangement.toList.flatMap Arrangement.numbers
  | .box _ => []
  | .text content => content.numbers

theorem readAs_arrangement {α : Type} {arrangement : Option (Arrangement α)} {word : α → String}
    {words : List (String × α)} (refuses : Arrangement.ofJson? words .null = none)
    (named : ∀ placement, ofWord? false words (.str (word placement)) = some placement)
    (finite : ∀ number ∈ arrangement.toList.flatMap Arrangement.numbers,
      finiteNumber number = true) :
    ReadAs (nullable (Arrangement.ofJson? words)) (orNull (Arrangement.toJson word) arrangement)
      arrangement := by
  apply ReadAs.orNull refuses
  intro given said
  apply Arrangement.readAs named
  intro number member
  exact finite number (List.mem_flatMap.mpr ⟨given, Option.mem_toList.mpr said, member⟩)

theorem readAs {kind : LayoutKind}
    (finite : ∀ number ∈ kind.numbers, finiteNumber number = true) :
    ReadAs ofJson? (.obj kind.fields) kind := by
  apply ReadAs.whole
  cases kind with
  | row arrangement alignment =>
      have arranged := readAs_arrangement rfl (HorizontalPlacement.ofWord?_word false) finite
      have aligned : ReadAs (nullable (ofWord? true RowAlignment.words))
          (orNull (fun alignment => .str alignment.word) alignment) alignment :=
        ReadAs.orNull rfl fun alignment _ => ⟨rfl, alignment.ofWord?_word true⟩
      constructor
      · simp [fields, isReadable, readableFields, arranged.readable, aligned.readable]
      · rw [fields, tagged?_obj rfl, Option.bind_eq_bind, Option.bind_some]
        apply record?_obj
        rw [run_optionalField_bind rfl arranged.reads, run_optionalField_bind rfl aligned.reads]
        rfl
  | flowRow horizontal vertical =>
      obtain ⟨acrossFinite, downFinite⟩ := List.forall_mem_append.mp finite
      have across := readAs_arrangement rfl (HorizontalPlacement.ofWord?_word false) acrossFinite
      have down := readAs_arrangement rfl (VerticalPlacement.ofWord?_word false) downFinite
      constructor
      · simp [fields, isReadable, readableFields, across.readable, down.readable]
      · rw [fields, tagged?_obj rfl, Option.bind_eq_bind, Option.bind_some]
        apply record?_obj
        rw [run_optionalField_bind rfl across.reads, run_optionalField_bind rfl down.reads]
        rfl
  | column arrangement alignment =>
      have arranged := readAs_arrangement rfl (VerticalPlacement.ofWord?_word false) finite
      have aligned : ReadAs (nullable (ofWord? true ColumnAlignment.words))
          (orNull (fun alignment => .str alignment.word) alignment) alignment :=
        ReadAs.orNull rfl fun alignment _ => ⟨rfl, alignment.ofWord?_word true⟩
      constructor
      · simp [fields, isReadable, readableFields, arranged.readable, aligned.readable]
      · rw [fields, tagged?_obj rfl, Option.bind_eq_bind, Option.bind_some]
        apply record?_obj
        rw [run_optionalField_bind rfl arranged.reads, run_optionalField_bind rfl aligned.reads]
        rfl
  | box centered => cases centered <;> exact ⟨rfl, rfl⟩
  | text content =>
      have shown := TextBlock.readAs finite
      constructor
      · simpa [fields, isReadable, readableFields] using shown.readable
      · rw [fields, tagged?_obj rfl, Option.bind_eq_bind, Option.bind_some]
        show (TextBlock.ofJson? (.obj content.fields)).map LayoutKind.text = _
        rw [shown.reads, Option.map_some]

/-- The fields of a kind have other names than those that every node has. -/
theorem filter_fields (kind : LayoutKind) :
    kind.fields.filter (fun field => !Layout.ownFields.contains field.1) = kind.fields := by
  cases kind <;> rfl

theorem filter_ownField (kind : LayoutKind) {name : String} (own : name ∈ Layout.ownFields) :
    kind.fields.filter (fun field => field.1 == name) = [] := by
  simp only [Layout.ownFields, List.mem_cons, List.not_mem_nil, or_false] at own
  rcases own with rfl | rfl | rfl <;> cases kind <;> rfl

end LayoutKind

namespace Json

theorem depth_le_depthItems {item : Json} {items : List Json} (member : item ∈ items) :
    item.depth ≤ depthItems items := by
  induction items with
  | nil => cases member
  | cons first rest ih =>
      rw [depthItems]
      rcases List.mem_cons.mp member with rfl | later
      · exact le_max_left _ _
      · exact (ih later).trans (le_max_right _ _)

theorem depth_le_depthFields {name : String} {value : Json} {fields : List (String × Json)}
    (member : (name, value) ∈ fields) : value.depth ≤ depthFields fields := by
  induction fields with
  | nil => cases member
  | cons first rest ih =>
      rcases first with ⟨other, given⟩
      rw [depthFields]
      rcases List.mem_cons.mp member with same | later
      · cases same
        exact le_max_left _ _
      · exact (ih later).trans (le_max_right _ _)

end Json

namespace Layout

mutual

/-- The numbers of a tree. -/
def numbers : Layout → List Float
  | ⟨_, modifiers, children, kind⟩ =>
    modifiers.flatMap Modifier.numbers ++ kind.numbers ++ numbersList children

def numbersList : List Layout → List Float
  | [] => []
  | node :: rest => node.numbers ++ numbersList rest

end

theorem depth_child_lt {name : String} {modifiers : List Modifier} {children : List Layout}
    {kind : LayoutKind} {child : Layout} (member : child ∈ children) :
    child.toJson.depth < (toJson ⟨name, modifiers, children, kind⟩).depth := by
  have item : child.toJson.depth ≤ depthItems (toJsonList children) := by
    rw [toJsonList_eq_map]
    exact depth_le_depthItems (List.mem_map_of_mem member)
  have present : ("children", Json.arr (toJsonList children)) ∈
      [("nodeName", .str name), ("modifiers", .arr (modifiers.map Modifier.toJson)),
        ("children", .arr (toJsonList children))] ++ kind.fields := by
    simp
  have field := depth_le_depthFields present
  rw [depth] at field
  rw [toJson, depth]
  omega

/-- A node is read back if its children are. -/
theorem ofJsonAt?_node {depth : Nat} {name : String} {modifiers : List Modifier}
    {children : List Layout} {kind : LayoutKind}
    (modifiersFinite : ∀ number ∈ modifiers.flatMap Modifier.numbers, finiteNumber number = true)
    (kindFinite : ∀ number ∈ kind.numbers, finiteNumber number = true)
    (below : (toJsonList children).mapM (ofJsonAt? depth) = some children) :
    ofJsonAt? (depth + 1) (toJson ⟨name, modifiers, children, kind⟩) =
      some ⟨name, modifiers, children, kind⟩ := by
  have modifiersReadAs : ReadAs (list? Modifier.ofJson?) (.arr (modifiers.map Modifier.toJson))
      modifiers := by
    apply ReadAs.list
    intro modifier member
    apply Modifier.readAs
    intro number inside
    exact modifiersFinite number (List.mem_flatMap.mpr ⟨modifier, member, inside⟩)
  have once : ∀ {own : List (String × Json)} {name : String}, name ∈ ownFields →
      (own ++ kind.fields).filter (fun field => field.1 == name) =
        own.filter fun field => field.1 == name := by
    intro own name member
    rw [List.filter_append, kind.filter_ownField member, List.append_nil]
  rw [toJson, ofJsonAt?, List.filter_append, kind.filter_fields]
  rw [run_requiredField_bind (once (by decide)) (rfl : string? (.str name) = some name),
    run_requiredField_bind (once (by decide)) modifiersReadAs.reads,
    run_requiredField_bind (once (by decide)) below]
  rw [StateT.run_pure, Option.pure_def, Option.bind_eq_bind, Option.bind_some]
  show ((LayoutKind.ofJson? (.obj kind.fields)).bind fun kind =>
    some (⟨name, modifiers, children, kind⟩ : Layout)) = _
  rw [(LayoutKind.readAs kindFinite).reads, Option.bind_some]

mutual

theorem ofJsonAt?_toJson : ∀ {node : Layout} {depth : Nat},
    (∀ number ∈ node.numbers, finiteNumber number = true) → node.toJson.depth ≤ depth →
    ofJsonAt? depth node.toJson = some node
  | ⟨name, modifiers, children, kind⟩, 0, finite, deep => by
      rw [toJson, Json.depth] at deep
      omega
  | ⟨name, modifiers, children, kind⟩, depth + 1, finite, deep => by
      rw [numbers] at finite
      obtain ⟨ownFinite, childrenFinite⟩ := List.forall_mem_append.mp finite
      obtain ⟨modifiersFinite, kindFinite⟩ := List.forall_mem_append.mp ownFinite
      apply ofJsonAt?_node modifiersFinite kindFinite
      apply mapM_ofJsonAt?_toJsonList childrenFinite
      intro child member
      have shallower := (depth_child_lt member).trans_le deep
      omega

/-- List counterpart of ofJsonAt?_toJson. -/
theorem mapM_ofJsonAt?_toJsonList : ∀ {nodes : List Layout} {depth : Nat},
    (∀ number ∈ numbersList nodes, finiteNumber number = true) →
    (∀ node ∈ nodes, node.toJson.depth ≤ depth) →
    (toJsonList nodes).mapM (ofJsonAt? depth) = some nodes
  | [], depth, finite, deep => by rw [toJsonList, List.mapM_nil]; rfl
  | node :: rest, depth, finite, deep => by
      rw [numbersList] at finite
      obtain ⟨firstFinite, restFinite⟩ := List.forall_mem_append.mp finite
      obtain ⟨firstDeep, restDeep⟩ := List.forall_mem_cons.mp deep
      rw [toJsonList, List.mapM_cons, ofJsonAt?_toJson firstFinite firstDeep,
        mapM_ofJsonAt?_toJsonList restFinite restDeep]
      rfl

end

/-- A layout tree whose numbers are finite is read back. -/
theorem ofJson?_toJson_of_finite {root : Layout}
    (finite : ∀ number ∈ root.numbers, finiteNumber number = true) :
    ofJson? root.toJson = some root :=
  ofJsonAt?_toJson finite le_rfl

/-- A row with a link to a color, a padding that is a link at one side and
missing at another, and a text that holds a node. -/
theorem ofJson?_toJson_of_finite_links :
    let root : Layout := ⟨"card",
      [.weight 0.5, .background (.linked ⟨"S:1", "brand", .black⟩) (some (.uniform (.own 8.0))),
        .border (.own .white) none none,
        .padding ⟨some (.linked ⟨"V:1", "null", -0.0⟩), none, some (.own 4.0), none⟩,
        .size .both (.own 24.0)],
      [⟨"text", [.baseline], [leaf "inner" (.box true)],
        .text ⟨"row", .own ⟨12.0, 400.0, .none, ⟨"Inter", "Regular"⟩, ⟨.percent, 2.0⟩, .auto,
          .asWritten⟩, some (.own .white), some .justify, some 3, true⟩⟩],
      .row (some (.placed .spaceBetween)) (some .baseline)⟩
    (∀ number ∈ root.numbers, finiteNumber number = true) ∧ ofJson? root.toJson = some root := by
  intro root
  have finite : ∀ number ∈ root.numbers, finiteNumber number = true := by decide
  exact ⟨finite, ofJson?_toJson_of_finite finite⟩

end Layout

end DesignLayout
