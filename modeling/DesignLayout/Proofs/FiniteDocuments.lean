import DesignLayout.Proofs.DistinctKeys
import DesignLayout.Proofs.Json.Readers
import DesignLayout.Proofs.PropertyRecord
import DesignLayout.Scene.Json

/-!
# The numbers of a document

Every number in a document that is read from a text is finite: those that the
text says, and those that stand for what it leaves out.
-/

namespace DesignLayout

open Json
open Json.FieldReader (reads_any reads_bind reads_pure reads_requiredField reads_defaultedField)

/-- All channels of a color are finite. -/
def Color.IsFinite (color : Color) : Prop :=
  ∀ number ∈ color.channels, finiteNumber number = true

structure Paint.IsFinite (paint : Paint) : Prop where
  color : ∀ color ∈ paint.color, color.IsFinite
  opacity : ∀ opacity ∈ paint.opacity, finiteNumber opacity = true

structure Frame.IsFinite (frame : Frame) : Prop where
  width : finiteNumber frame.width = true
  height : finiteNumber frame.height = true
  spacing : finiteNumber frame.spacing = true
  lineSpacing : ∀ spacing ∈ frame.lineSpacing, finiteNumber spacing = true
  padding : ∀ edge ∈ frame.padding.toList, finiteNumber edge = true
  fills : ∀ paints ∈ frame.fills.value?, ∀ paint ∈ paints, paint.IsFinite
  strokes : ∀ paint ∈ frame.strokes, paint.IsFinite
  strokeWidth : ∀ width ∈ frame.strokeWidth, ∀ number ∈ width.value?, finiteNumber number = true
  radii : ∀ radius ∈ frame.radii.toList, finiteNumber radius = true

structure TextRun.IsFinite (run : TextRun) : Prop where
  width : finiteNumber run.width = true
  height : finiteNumber run.height = true
  size : ∀ size ∈ run.size.value?, finiteNumber size = true
  weight : ∀ weight ∈ run.weight.value?, finiteNumber weight = true
  letterSpacing : ∀ spacing ∈ run.letterSpacing.value?, finiteNumber spacing.value = true
  lineHeight : ∀ height ∈ run.lineHeight.value?, ∀ number ∈ height.numbers,
    finiteNumber number = true
  fills : ∀ paints ∈ run.fills.value?, ∀ paint ∈ paints, paint.IsFinite

structure TypeStyle.IsFinite (style : TypeStyle) : Prop where
  size : finiteNumber style.size = true
  letterSpacing : finiteNumber style.letterSpacing.value = true
  lineHeight : ∀ number ∈ style.lineHeight.numbers, finiteNumber number = true

def SharedStyle.IsFinite : SharedStyle → Prop
  | .paint _ paints => ∀ paint ∈ paints, paint.IsFinite
  | .text style => style.IsFinite
  | .other => True

def VariableContent.IsFinite : VariableContent → Prop
  | .number value => finiteNumber value = true
  | .color value => value.IsFinite
  | _ => True

def Variable.IsFinite (entry : Variable) : Prop :=
  ∀ content ∈ entry.value, content.IsFinite

/-- The numbers of a node by itself. -/
def Scene.IsFinite : Scene → Prop
  | .frame properties _ => properties.IsFinite
  | .text run => run.IsFinite
  | .unsupported => True

structure Document.IsFinite (document : Document) : Prop where
  nodes : ∀ node ∈ document.root.preorder, node.IsFinite
  styles : ∀ entry ∈ document.styleById.entries, entry.2.IsFinite
  values : ∀ entry ∈ document.variableById.entries, entry.2.IsFinite

theorem finiteNumber_zero : finiteNumber 0.0 = true := by
  decide

section parts

variable {α : Type} {read : Json → Option α} {property : α → Prop}

theorem Uniform.reads_ofJson? (reads : Reads read property) :
    Reads (ofJson? read) fun result => ∀ value ∈ result.value?, property value := by
  intro json result given
  unfold ofJson? at given
  split at given
  · cases given
    simp [value?]
  · obtain ⟨value, found, rfl⟩ := Option.map_eq_some_iff.mp given
    intro other same
    cases same
    exact reads json value found

theorem OrderedMap.reads_ofJson? (reads : Reads read property) :
    Reads (ofJson? read) fun map => ∀ entry ∈ map.entries, property entry.2 := by
  have inserted : ∀ (pairs : List (String × α)) (map : OrderedMap String α),
      (∀ pair ∈ pairs, property pair.2) → (∀ entry ∈ map.entries, property entry.2) →
      ∀ entry ∈ (pairs.foldl (fun map pair => map.insert pair.1 pair.2) map).entries,
        property entry.2 := by
    intro pairs
    induction pairs with
    | nil => exact fun map _ before => before
    | cons pair rest ih =>
        intro map each before
        apply ih _ fun other member => each other (List.mem_cons_of_mem _ member)
        intro entry member
        rcases mem_put member with rfl | old
        · exact each pair List.mem_cons_self
        · exact before entry old
  intro json map given
  cases json with
  | obj fields =>
      obtain ⟨pairs, found, given⟩ := Option.bind_eq_some_iff.mp given
      cases given
      apply inserted pairs .empty
      · intro pair member
        obtain ⟨field, -, read⟩ := exists_of_mem_mapM found pair member
        obtain ⟨value, found, rfl⟩ := Option.map_eq_some_iff.mp read
        exact reads field.2 value found
      · intro entry member
        cases member
  | _ => cases given

theorem Color.reads_ofJson? : Reads ofJson? Color.IsFinite := by
  refine Reads.record ?_
  refine reads_bind (reads_requiredField reads_float?) fun red redFinite => ?_
  refine reads_bind (reads_requiredField reads_float?) fun green greenFinite => ?_
  refine reads_bind (reads_requiredField reads_float?) fun blue blueFinite => ?_
  refine reads_bind (reads_defaultedField (by decide) reads_float?)
    fun alpha alphaFinite => ?_
  refine reads_pure ?_
  simp [IsFinite, channels, redFinite, greenFinite, blueFinite, alphaFinite]

theorem LetterSpacing.reads_ofJson? (loose : Bool) :
    Reads (ofJson? loose) fun spacing => finiteNumber spacing.value = true := by
  refine Reads.record ?_
  refine reads_bind reads_any fun unit _ => ?_
  refine reads_bind (reads_requiredField reads_float?) fun value valueFinite => ?_
  exact reads_pure valueFinite

theorem LineHeight.reads_ofJson? (numbered : Bool) :
    Reads (ofJson? numbered) fun height =>
      ∀ number ∈ height.numbers, finiteNumber number = true := by
  have said : Reads (record? (requiredField "value" float?)) fun number =>
      finiteNumber number = true := .record (reads_requiredField reads_float?)
  intro json height given
  obtain ⟨⟨kind, rest⟩, -, given⟩ := Option.bind_eq_some_iff.mp given
  simp only at given
  split at given
  · obtain ⟨_, -, rfl⟩ := Option.map_eq_some_iff.mp given
    simp [numbers]
  · obtain ⟨value, found, rfl⟩ := Option.map_eq_some_iff.mp given
    simpa [numbers] using said rest value found
  · obtain ⟨value, found, rfl⟩ := Option.map_eq_some_iff.mp given
    simpa [numbers] using said rest value found
  · cases given

theorem Paint.reads_ofJson? (loose : Bool) : Reads (ofJson? loose) Paint.IsFinite := by
  refine Reads.record ?_
  refine reads_bind reads_any fun kind _ => ?_
  refine reads_bind (Color.reads_ofJson?).optionalField fun color colorFinite => ?_
  refine reads_bind reads_float?.optionalField fun opacity opacityFinite => ?_
  refine reads_bind reads_any fun visible _ => ?_
  refine reads_bind reads_any fun colorVariable _ => ?_
  exact reads_pure ⟨colorFinite, opacityFinite⟩

theorem reads_paints (loose : Bool) : Reads (list? (Paint.ofJson? loose)) fun paints =>
    ∀ paint ∈ paints, paint.IsFinite :=
  (Paint.reads_ofJson? loose).list

theorem Frame.reads_ofJson? {readChild : Json → Option α} (reads : Reads readChild property) :
    Reads (ofJson? readChild) fun result =>
      result.1.IsFinite ∧ ∀ child ∈ result.2, property child := by
  have length (name : String) : FieldReader.Reads (defaultedField name 0.0 float?) fun number =>
      finiteNumber number = true := reads_defaultedField finiteNumber_zero reads_float?
  refine Reads.record ?_
  refine reads_bind reads_any fun _ _ => ?_
  refine reads_bind reads_any fun name _ => ?_
  refine reads_bind reads_any fun visible _ => ?_
  refine reads_bind (reads_defaultedField (by simp) reads.list) fun children childrenHold => ?_
  refine reads_bind (length _) fun width widthFinite => ?_
  refine reads_bind (length _) fun height heightFinite => ?_
  refine reads_bind reads_any fun horizontalSizing _ => ?_
  refine reads_bind reads_any fun verticalSizing _ => ?_
  refine reads_bind reads_any fun mode _ => ?_
  refine reads_bind reads_any fun wrap _ => ?_
  refine reads_bind reads_any fun primaryAlign _ => ?_
  refine reads_bind reads_any fun counterAlign _ => ?_
  refine reads_bind (length _) fun spacing spacingFinite => ?_
  refine reads_bind (reads_defaultedField (by simp) reads_float?.nullable)
    fun lineSpacing lineSpacingFinite => ?_
  refine reads_bind (length _) fun left leftFinite => ?_
  refine reads_bind (length _) fun top topFinite => ?_
  refine reads_bind (length _) fun right rightFinite => ?_
  refine reads_bind (length _) fun bottom bottomFinite => ?_
  refine reads_bind (reads_defaultedField (by simp [Uniform.value?])
    (Uniform.reads_ofJson? (reads_paints false))) fun fills fillsFinite => ?_
  refine reads_bind reads_any fun fillStyle _ => ?_
  refine reads_bind (reads_defaultedField (by simp) (reads_paints true))
    fun strokes strokesFinite => ?_
  refine reads_bind reads_any fun strokeStyle _ => ?_
  refine reads_bind (reads_defaultedField (by simp) (Uniform.reads_ofJson? reads_float?).nullable)
    fun strokeWidth strokeWidthFinite => ?_
  refine reads_bind (length _) fun topLeft topLeftFinite => ?_
  refine reads_bind (length _) fun topRight topRightFinite => ?_
  refine reads_bind (length _) fun bottomRight bottomRightFinite => ?_
  refine reads_bind (length _) fun bottomLeft bottomLeftFinite => ?_
  refine reads_bind reads_any fun bindings _ => ?_
  refine reads_pure ⟨?_, childrenHold⟩
  constructor
  case padding => simp [Edges.toList, leftFinite, topFinite, rightFinite, bottomFinite]
  case radii =>
    simp [Corners.toList, topLeftFinite, topRightFinite, bottomRightFinite, bottomLeftFinite]
  all_goals assumption

theorem TextRun.reads_ofJson? : Reads ofJson? TextRun.IsFinite := by
  have uniform {name : String} {size : Float} (finite : finiteNumber size = true) :
      FieldReader.Reads (defaultedField name (.same size) (Uniform.ofJson? float?)) fun size =>
        ∀ number ∈ size.value?, finiteNumber number = true :=
    reads_defaultedField (by simpa [Uniform.value?] using finite)
      (Uniform.reads_ofJson? reads_float?)
  refine Reads.record ?_
  refine reads_bind reads_any fun _ _ => ?_
  refine reads_bind reads_any fun name _ => ?_
  refine reads_bind reads_any fun visible _ => ?_
  refine reads_bind reads_any fun characters _ => ?_
  refine reads_bind (reads_defaultedField finiteNumber_zero reads_float?)
    fun width widthFinite => ?_
  refine reads_bind (reads_defaultedField finiteNumber_zero reads_float?)
    fun height heightFinite => ?_
  refine reads_bind reads_any fun horizontalSizing _ => ?_
  refine reads_bind reads_any fun verticalSizing _ => ?_
  refine reads_bind reads_any fun style _ => ?_
  refine reads_bind (uniform (by decide)) fun size sizeFinite => ?_
  refine reads_bind (uniform (by decide)) fun weight weightFinite => ?_
  refine reads_bind reads_any fun face _ => ?_
  refine reads_bind reads_any fun decoration _ => ?_
  refine reads_bind (reads_defaultedField (by simp [Uniform.value?, finiteNumber_zero])
    (Uniform.reads_ofJson? (LetterSpacing.reads_ofJson? false)))
    fun letterSpacing letterSpacingFinite => ?_
  refine reads_bind (reads_defaultedField (by simp [Uniform.value?, LineHeight.numbers])
    (Uniform.reads_ofJson? (LineHeight.reads_ofJson? true)))
    fun lineHeight lineHeightFinite => ?_
  refine reads_bind reads_any fun letterCase _ => ?_
  refine reads_bind (reads_defaultedField (by simp [Uniform.value?])
    (Uniform.reads_ofJson? (reads_paints false))) fun fills fillsFinite => ?_
  refine reads_bind reads_any fun fillStyle _ => ?_
  refine reads_bind reads_any fun align _ => ?_
  refine reads_bind reads_any fun truncation _ => ?_
  refine reads_bind reads_any fun lineLimit _ => ?_
  refine reads_pure ?_
  constructor <;> assumption

theorem TypeStyle.reads_ofJson? : Reads ofJson? TypeStyle.IsFinite := by
  refine Reads.record ?_
  refine reads_bind reads_any fun name _ => ?_
  refine reads_bind (reads_requiredField reads_float?) fun size sizeFinite => ?_
  refine reads_bind reads_any fun face _ => ?_
  refine reads_bind reads_any fun decoration _ => ?_
  refine reads_bind (reads_defaultedField finiteNumber_zero (LetterSpacing.reads_ofJson? true))
    fun letterSpacing letterSpacingFinite => ?_
  refine reads_bind (reads_defaultedField (by simp [LineHeight.numbers])
    (LineHeight.reads_ofJson? true)) fun lineHeight lineHeightFinite => ?_
  refine reads_bind reads_any fun letterCase _ => ?_
  exact reads_pure ⟨sizeFinite, letterSpacingFinite, lineHeightFinite⟩

theorem SharedStyle.reads_ofJson? : Reads ofJson? SharedStyle.IsFinite := by
  refine Reads.whole fun json result given => ?_
  obtain ⟨⟨kind, rest⟩, -, given⟩ := Option.bind_eq_some_iff.mp given
  simp only at given
  split at given
  · refine Reads.record ?_ rest result given
    refine reads_bind reads_any fun name _ => ?_
    refine reads_bind (reads_defaultedField (by simp) (reads_paints true))
      fun paints paintsFinite => ?_
    exact reads_pure paintsFinite
  · obtain ⟨style, found, rfl⟩ := Option.map_eq_some_iff.mp given
    exact TypeStyle.reads_ofJson? rest style found
  · obtain ⟨_, -, rfl⟩ := Option.map_eq_some_iff.mp given
    trivial

theorem VariableContent.reads_ofJson? : Reads ofJson? VariableContent.IsFinite := by
  refine Reads.whole fun json result given => ?_
  split at given
  · cases given
    trivial
  · cases given
    trivial
  · split at given
    case h_1 number found =>
      cases given
      exact reads_float? json number found
    case h_2 =>
      obtain ⟨color, found, rfl⟩ := Option.map_eq_some_iff.mp given
      exact Color.reads_ofJson? json color found

theorem Variable.reads_ofJson? : Reads ofJson? Variable.IsFinite := by
  refine Reads.record ?_
  refine reads_bind reads_any fun name _ => ?_
  refine reads_bind reads_any fun type _ => ?_
  refine reads_bind (VariableContent.reads_ofJson?).optionalField fun value valueFinite => ?_
  exact reads_pure valueFinite

theorem Scene.reads_ofJsonAt? (depth : Nat) : ∀ numbered : Bool,
    Reads (ofJsonAt? depth numbered) fun scene => ∀ node ∈ scene.preorder, node.IsFinite := by
  -- A frame reads its children one level further down.
  induction depth with
  | zero =>
      intro numbered json scene given
      cases given
  | succ depth ih =>
      intro numbered json scene given
      obtain ⟨⟨kind, rest⟩, -, given⟩ := Option.bind_eq_some_iff.mp given
      simp only at given
      split at given
      · obtain ⟨⟨frame, children⟩, found, given⟩ := Option.bind_eq_some_iff.mp given
        cases given
        obtain ⟨finite, below⟩ := Frame.reads_ofJson? (ih true) rest _ found
        intro node member
        rw [preorder, preorderList_eq_flatMap] at member
        rcases List.mem_cons.mp member with rfl | inside
        · exact finite
        · obtain ⟨child, childMember, inside⟩ := List.mem_flatMap.mp inside
          exact below child childMember node inside
      · split at given
        · obtain ⟨run, found, given⟩ := Option.bind_eq_some_iff.mp given
          cases given
          intro node member
          rw [preorder, List.mem_singleton] at member
          subst member
          exact TextRun.reads_ofJson? rest run found
        · obtain ⟨_, -, given⟩ := Option.bind_eq_some_iff.mp given
          cases given
          intro node member
          rw [preorder, List.mem_singleton] at member
          subst member
          trivial

end parts

theorem Document.reads_ofJson? : Reads ofJson? Document.IsFinite := by
  have scene : Reads Scene.ofJson? fun scene => ∀ node ∈ scene.preorder, node.IsFinite :=
    Reads.whole fun json => Scene.reads_ofJsonAt? json.depth false json
  refine Reads.record ?_
  refine reads_bind (reads_requiredField scene) fun root rootFinite => ?_
  refine reads_bind (reads_defaultedField (by simp [OrderedMap.empty])
    (OrderedMap.reads_ofJson? SharedStyle.reads_ofJson?)) fun styleById stylesFinite => ?_
  refine reads_bind (reads_defaultedField (by simp [OrderedMap.empty])
    (OrderedMap.reads_ofJson? Variable.reads_ofJson?)) fun variableById valuesFinite => ?_
  exact reads_pure ⟨rootFinite, stylesFinite, valuesFinite⟩

/-- The numbers of a document that is read from a text are finite. -/
theorem Document.finite_of_parse? {text : String} {document : Document}
    (parsed : parse? text = some document) : document.IsFinite := by
  obtain ⟨json, -, read⟩ := Option.bind_eq_some_iff.mp parsed
  exact Document.reads_ofJson? json document read

end DesignLayout
