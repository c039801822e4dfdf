import DesignLayout.Proofs.SceneLooks

/-!
# Links that lead nowhere

A node of a scene may name a variable or a style that its document does not
have, or that is of another kind than the property asks for.  Such a link dangles.  A
dangling link counts for nothing: a document without its dangling links has the
same layout, at every node and for every property that can be linked.
-/

namespace DesignLayout

/-- Changes the value, if it is the same throughout. -/
def Uniform.map {α β : Type} (change : α → β) : Uniform α → Uniform β
  | .mixed => .mixed
  | .same value => .same (change value)

theorem Uniform.value?_map {α β : Type} (change : α → β) (property : Uniform α) :
    (property.map change).value? = property.value?.map change := by
  cases property <;> rfl

/-- Changes each of the ids. -/
def FrameVariables.map (change : Option String → Option String) (bindings : FrameVariables) :
    FrameVariables where
  spacing := change bindings.spacing
  lineSpacing := change bindings.lineSpacing
  padding := bindings.padding.map change
  radii := bindings.radii.map change
  strokeWidth := change bindings.strokeWidth

namespace Document

variable (document : Document)

def hasVariable (type : VariableKind) (id : String) : Bool :=
  match document.variableById.get? id with
  | some entry => entry.type = type
  | none => false

def hasPaintStyle (id : String) : Bool :=
  match document.styleById.get? id with
  | some (.paint _ _) => true
  | _ => false

def hasTextStyle (id : String) : Bool :=
  match document.styleById.get? id with
  | some (.text _) => true
  | _ => false

/-- The id of a variable of a type, unless the document has none. -/
def known (type : VariableKind) (binding : Option String) : Option String :=
  binding.filter (document.hasVariable type)

end Document

/-- The id of a style, or the empty id where there is no such style. -/
def knownStyle (isKnown : String → Bool) (id : String) : String :=
  if isKnown id then id else ""

def Paint.dropDangling (document : Document) (paint : Paint) : Paint :=
  { paint with colorVariable := document.known .color paint.colorVariable }

def Frame.dropDangling (document : Document) (frame : Frame) : Frame :=
  { frame with
    fills := frame.fills.map (List.map (Paint.dropDangling document))
    fillStyle := frame.fillStyle.map (knownStyle document.hasPaintStyle)
    strokes := frame.strokes.map (Paint.dropDangling document)
    strokeStyle := knownStyle document.hasPaintStyle frame.strokeStyle
    bindings := frame.bindings.map (document.known .number) }

def TextRun.dropDangling (document : Document) (run : TextRun) : TextRun :=
  { run with
    style := run.style.map (knownStyle document.hasTextStyle)
    fills := run.fills.map (List.map (Paint.dropDangling document))
    fillStyle := run.fillStyle.map (knownStyle document.hasPaintStyle) }

mutual

/-- A scene without the links that dangle in a document. -/
def Scene.dropDangling (document : Document) : Scene → Scene
  | .frame properties children =>
    .frame (properties.dropDangling document) (Scene.dropDanglingList document children)
  | .text run => .text (run.dropDangling document)
  | .unsupported => .unsupported

def Scene.dropDanglingList (document : Document) : List Scene → List Scene
  | [] => []
  | node :: rest => node.dropDangling document :: Scene.dropDanglingList document rest

end

/-- A document without its dangling links. -/
def Document.dropDangling (document : Document) : Document :=
  { document with root := document.root.dropDangling document }

/-- The id of a style is left as it is, unless there is no such style. -/
theorem knownStyle_cases (isKnown : String → Bool) (id : String) :
    knownStyle isKnown id = id ∨ knownStyle isKnown id = "" ∧ isKnown id = false := by
  unfold knownStyle
  split
  case isTrue => exact .inl rfl
  case isFalse lacks => exact .inr ⟨rfl, eq_false_of_ne_true lacks⟩

theorem Scene.dropDanglingList_eq_map (document : Document) (nodes : List Scene) :
    Scene.dropDanglingList document nodes = nodes.map (Scene.dropDangling document) := by
  induction nodes with
  | nil => rw [dropDanglingList, List.map_nil]
  | cons node rest ih => rw [dropDanglingList, ih, List.map_cons]

namespace Document

variable (document : Document)

theorem noVariable_of_not {type : VariableKind} {id : String}
    (lacks : document.hasVariable type id = false) : document.variable? id type = none := by
  unfold hasVariable at lacks
  unfold Document.variable?
  cases found : document.variableById.get? id with
  | none => rfl
  | some entry =>
      rw [found] at lacks
      exact Option.filter_eq_none_iff.mpr (by simpa using lacks)

/-- A binding is left as it is, unless it leads to no variable. -/
theorem known_cases (type : VariableKind) (binding : Option String) :
    document.known type binding = binding ∨
      ∃ id, binding = some id ∧ document.known type binding = none ∧
        document.variable? id type = none := by
  cases binding with
  | none => exact .inl rfl
  | some id =>
      cases has : document.hasVariable type id with
      | true => exact .inl (Option.filter_some_pos has)
      | false =>
          have dropped : document.known type (some id) = none :=
            Option.filter_some_neg (by simp [has])
          exact .inr ⟨id, rfl, dropped, document.noVariable_of_not has⟩

/-- What is made of a binding is made of none, where it dangles. -/
theorem dimension_known (own : Float) (binding : Option String) :
    document.dimension own (document.known .number binding) = document.dimension own binding := by
  rcases document.known_cases .number binding with same | ⟨id, rfl, dropped, missing⟩
  · rw [same]
  · rw [dropped]
    simp only [dimension, missing]

/-- A link to a color changes neither whether a paint is visible nor whether it
is solid, so it does not decide which paint is chosen. -/
theorem soleColor?_dropDangling (paints : List Paint) :
    document.soleColor? (paints.map (Paint.dropDangling document)) =
      document.soleColor? paints := by
  have visible : (paints.map (Paint.dropDangling document)).filter Paint.visible =
      (paints.filter Paint.visible).map (Paint.dropDangling document) := by
    rw [List.filter_map]
    rfl
  rw [soleColor?, soleColor?, visible]
  rcases paints.filter Paint.visible with _ | ⟨paint, _ | ⟨next, rest⟩⟩
  · rfl
  · have solid : (paint.dropDangling document).solid? = paint.solid? := rfl
    have strength : (paint.dropDangling document).strength = paint.strength := rfl
    have link : (paint.dropDangling document).colorVariable =
        document.known .color paint.colorVariable := rfl
    simp only [List.map_cons, List.map_nil, solid, strength, link]
    rcases document.known_cases .color paint.colorVariable with same | ⟨id, bound, dropped, missing⟩
    · rw [same]
    · rw [dropped, bound]
      simp only [missing]
  · rfl

/-- The style of a blank id, or of the id of no paint style, does not take the
place of a paint. -/
theorem colorOf?_of_not {id : String} (lacks : id = "" ∨ document.hasPaintStyle id = false)
    (paints : Option (List Paint)) :
    document.colorOf? paints (some id) = paints.bind document.soleColor? := by
  rcases lacks with rfl | lacks
  · rfl
  · unfold hasPaintStyle at lacks
    by_cases blank : id = ""
    · rw [blank]
      rfl
    · rw [colorOf?, Option.filter_some_pos (by simpa using blank)]
      cases found : document.styleById.get? id with
      | none => simp only [found]
      | some style => cases style <;> simp_all

theorem colorOf?_dropDangling (paints : Option (List Paint)) (style : Option String) :
    document.colorOf? (paints.map (List.map (Paint.dropDangling document)))
        (style.map (knownStyle document.hasPaintStyle)) =
      document.colorOf? paints style := by
  have own : (paints.map (List.map (Paint.dropDangling document))).bind document.soleColor? =
      paints.bind document.soleColor? := by
    rw [Option.bind_map]
    exact congrArg paints.bind (funext document.soleColor?_dropDangling)
  rw [colorOf?_congr own]
  cases style with
  | none => rfl
  | some id =>
      rcases knownStyle_cases document.hasPaintStyle id with same | ⟨dropped, lacks⟩
      · rw [Option.map_some, same]
      · rw [Option.map_some, dropped, document.colorOf?_of_not (.inl rfl),
          document.colorOf?_of_not (.inr lacks)]

/-- A text whose style has a blank id, or the id of no text style, has its own
typography. -/
theorem font?_of_not {run : TextRun} {id : String} (style : run.style = .same id)
    (lacks : id = "" ∨ document.hasTextStyle id = false) :
    document.font? run = run.ownFont?.map .own := by
  rw [font?, style]
  cases run.weight with
  | mixed => rfl
  | same weight =>
      dsimp only
      split
      case isTrue => rfl
      case isFalse named =>
        have lacks := lacks.resolve_left named
        unfold hasTextStyle at lacks
        cases found : document.styleById.get? id with
        | none => rfl
        | some style => cases style <;> simp_all

theorem font?_dropDangling (run : TextRun) :
    document.font? (run.dropDangling document) = document.font? run := by
  have own : (run.dropDangling document).ownFont? = run.ownFont? := rfl
  have link : (run.dropDangling document).style =
      run.style.map (knownStyle document.hasTextStyle) := rfl
  cases style : run.style with
  | mixed =>
      rw [font?, font?, link, style, own]
      rfl
  | same id =>
      rw [style, Uniform.map] at link
      rcases knownStyle_cases document.hasTextStyle id with same | ⟨dropped, lacks⟩
      · rw [same] at link
        rw [font?, font?, link, style, own]
        rfl
      · rw [dropped] at link
        rw [document.font?_of_not link (.inl rfl), own, document.font?_of_not style (.inr lacks)]

theorem radii_dropDangling (frame : Frame) :
    document.radii (frame.dropDangling document) = document.radii frame := by
  simp only [radii, Frame.dropDangling, FrameVariables.map, Corners.map, Corners.zipWith,
    dimension_known]

theorem autoLayout?_dropDangling (frame : Frame) :
    document.autoLayout? (frame.dropDangling document) = document.autoLayout? frame := by
  simp only [autoLayout?, Frame.dropDangling, FrameVariables.map, Edges.map, Edges.zipWith,
    dimension_known]

theorem background?_dropDangling (frame : Frame) :
    document.background? (frame.dropDangling document) = document.background? frame := by
  simp only [background?, Frame.dropDangling, Uniform.value?_map, colorOf?_dropDangling]

theorem border?_dropDangling (frame : Frame) :
    document.border? (frame.dropDangling document) = document.border? frame := by
  have color := document.colorOf?_dropDangling (some frame.strokes) (some frame.strokeStyle)
  simp only [Option.map_some] at color
  simp only [border?, Frame.dropDangling, FrameVariables.map, color, dimension_known]

theorem text?_dropDangling (run : TextRun) :
    document.text? (run.dropDangling document) = document.text? run := by
  have fills : (run.dropDangling document).fills.value? =
      run.fills.value?.map (List.map (Paint.dropDangling document)) := Uniform.value?_map ..
  have fillStyle : (run.dropDangling document).fillStyle.value? =
      run.fillStyle.value?.map (knownStyle document.hasPaintStyle) := Uniform.value?_map ..
  rw [text?, text?, font?_dropDangling, fills, fillStyle]
  cases run.fills.value? with
  | none => rfl
  | some paints =>
      have color := document.colorOf?_dropDangling (some paints) run.fillStyle.value?
      simp only [Option.map_some, Option.bind_eq_bind, Option.bind_some] at color ⊢
      rw [color]
      rfl

theorem frame_looksLike_dropDangling (frame : Frame) :
    (frame.dropDangling document).LooksLike document frame where
  layout := document.autoLayout?_dropDangling frame
  radii := document.radii_dropDangling frame
  background := document.background?_dropDangling frame
  border := document.border?_dropDangling frame

theorem text_looksLike_dropDangling (run : TextRun) :
    (run.dropDangling document).LooksLike document run where
  text := document.text?_dropDangling run

mutual

theorem place?_dropDangling : ∀ (scope : Scope) (node : Scene),
    document.place? scope (node.dropDangling document) = document.place? scope node
  | scope, .frame frame children => by
      have count : (Scene.dropDanglingList document children).length = children.length := by
        rw [Scene.dropDanglingList_eq_map, List.length_map]
      rw [Scene.dropDangling]
      exact place?_frame_congr (document.frame_looksLike_dropDangling frame) count
        (fun inner => placeAll_dropDangling inner children) scope
  | scope, .text run => by
      rw [Scene.dropDangling]
      exact place?_text_congr (document.text_looksLike_dropDangling run) scope
  | scope, .unsupported => by rw [Scene.dropDangling]

/-- List counterpart of place?_dropDangling. -/
theorem placeAll_dropDangling : ∀ (scope : Scope) (nodes : List Scene),
    document.placeAll scope (Scene.dropDanglingList document nodes) = document.placeAll scope nodes
  | scope, [] => by rw [Scene.dropDanglingList]
  | scope, node :: rest => by
      rw [Scene.dropDanglingList, placeAll, placeAll, place?_dropDangling scope node,
        placeAll_dropDangling scope rest]

end

/-- A document has the layout that it has without its dangling links.  A number
or a color that is bound to no variable of its type is the node's own, and a
style that is not there, or of another kind, takes the place of nothing. -/
theorem layout?_dropDangling : document.dropDangling.layout? = document.layout? :=
  (document.layout?_with_root _).trans (document.place?_dropDangling .free document.root)

/-- A fill that is bound to a number and to a style that is not there keeps its
color only. -/
example :
    let paint : Paint := ⟨.solid, some ⟨1.0, 0.0, 0.0, 1.0⟩, none, true, some "V:gap"⟩
    let gap : Variable := ⟨"spacing/md", .number, some (.number 16.0)⟩
    let document : Document :=
      ⟨.frame { fills := .same [paint], fillStyle := .same "S:missing" } [], .empty,
        OrderedMap.ofList [("V:gap", gap)]⟩
    document.dropDangling.root =
      .frame { fills := .same [{ paint with colorVariable := none }] } [] := by
  rfl

end Document

end DesignLayout
