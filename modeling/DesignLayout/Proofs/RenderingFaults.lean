import DesignLayout.Proofs.PlacedValues
import DesignLayout.Proofs.Quantities
import DesignLayout.Proofs.ValueTokens

/-!
# Where a rendering fails

A rendering fails only at a value that has no source text.  In the layout of a
document that was read from a text that can only be a color: one whose alpha is
the product of the alpha of a variable and the opacity of a paint, and too
large.  Every other document is rendered.
-/

namespace DesignLayout

open Quantity (firstFault? firstFault?_append firstFault?_eq_none_iff)

namespace Registering

/-- Wherever a run starts, it fails only as expected. -/
def StopsOnly {ε α : Type} (action : Registering ε α) (expected : ε → Prop) : Prop :=
  ∀ registry fault, action.Stops registry fault → expected fault

end Registering

theorem Property.toPrimitive_eq (property : Property Primitive) :
    property.toPrimitive = property.value := by
  cases property <;> rfl

namespace Source

variable {expected : Unwritable → Prop}

/-- If a value has no source text, its fault is expected. -/
def Expects (expected : Unwritable → Prop) (value : DesignValue) : Prop :=
  ∀ fault, value.property.toPrimitive.source = .error fault → expected fault

section quantities

variable {fault : Unwritable}

theorem expected_of_value {value : DesignValue} (expects : Expects expected value)
    (first : firstFault? value.quantities = some fault) : expected fault := by
  rw [DesignValue.quantities] at first
  split at first
  case isTrue => cases first
  case isFalse =>
    rw [← Property.toPrimitive_eq, ← Primitive.faultOf?_source] at first
    apply expects
    cases source : value.property.toPrimitive.source with
    | ok text =>
        rw [source] at first
        cases first
    | error other =>
        rw [source] at first
        exact congrArg Except.error (Option.some.inj first)

theorem expected_of_flatMap {α : Type} {items : List α} {view : α → List Quantity}
    (each : ∀ item ∈ items, ∀ fault, firstFault? (view item) = some fault → expected fault)
    (first : firstFault? (items.flatMap view) = some fault) : expected fault := by
  induction items with
  | nil => cases first
  | cons item rest ih =>
      rw [List.forall_mem_cons] at each
      rw [List.flatMap_cons, firstFault?_append, Option.or_eq_some_iff] at first
      rcases first with here | ⟨-, later⟩
      · exact each.1 fault here
      · exact ih each.2 later

theorem expected_of_values {values : List DesignValue}
    (expects : ∀ value ∈ values, Expects expected value)
    (first : firstFault? (values.flatMap DesignValue.quantities) = some fault) :
    expected fault :=
  expected_of_flatMap (fun value member _ => expected_of_value (expects value member)) first

theorem expected_of_modifier {modifier : Modifier}
    (expects : ∀ value ∈ modifier.values, Expects expected value)
    (weights : ∀ weight, modifier = .weight weight → finiteNumber weight = true)
    (first : firstFault? modifier.quantities = some fault) : expected fault := by
  cases modifier with
  | weight weight =>
      have finite : firstFault? [.number weight] = none :=
        firstFault?_eq_none_iff.mpr (by simpa [Quantity.isFinite] using weights weight rfl)
      rw [Modifier.quantities, finite] at first
      cases first
  | _ => exact expected_of_values expects first

mutual

/-- The first fault of a tree whose weights are finite is that of a value. -/
theorem expected_of_quantities : ∀ {node : Layout} {fault : Unwritable},
    (∀ value ∈ node.values, Expects expected value) →
    (∀ inner ∈ node.preorder, ∀ weight, .weight weight ∈ inner.modifiers →
      finiteNumber weight = true) →
    firstFault? node.quantities = some fault → expected fault
  | ⟨name, modifiers, children, kind⟩, fault, expects, weights, first => by
      rw [Layout.values, List.forall_mem_append, List.forall_mem_append] at expects
      rw [Layout.preorder, List.forall_mem_cons] at weights
      obtain ⟨⟨modifiersExpect, kindExpects⟩, childrenExpect⟩ := expects
      obtain ⟨ownWeights, childrenWeights⟩ := weights
      rw [Layout.quantities, firstFault?_append, firstFault?_append, Option.or_eq_some_iff,
        Option.or_eq_some_iff] at first
      rcases first with (ofModifiers | ⟨-, ofKind⟩) | ⟨-, ofChildren⟩
      · refine expected_of_flatMap (fun modifier member _ => ?_) ofModifiers
        refine expected_of_modifier (fun value inside => modifiersExpect value ?_) ?_
        · exact List.mem_flatMap.mpr ⟨modifier, member, inside⟩
        · rintro weight rfl
          exact ownWeights weight member
      · exact expected_of_values kindExpects ofKind
      · split at ofChildren
        case isTrue => cases ofChildren
        case isFalse container =>
          rw [if_neg container] at childrenExpect
          exact expected_of_quantitiesList childrenExpect childrenWeights ofChildren

/-- List counterpart of expected_of_quantities. -/
theorem expected_of_quantitiesList : ∀ {nodes : List Layout} {fault : Unwritable},
    (∀ value ∈ Layout.valuesList nodes, Expects expected value) →
    (∀ inner ∈ Layout.preorderList nodes, ∀ weight, .weight weight ∈ inner.modifiers →
      finiteNumber weight = true) →
    firstFault? (Layout.quantitiesList nodes) = some fault → expected fault
  | [], fault, expects, weights, first => by cases first
  | node :: rest, fault, expects, weights, first => by
      rw [Layout.valuesList, List.forall_mem_append] at expects
      rw [Layout.preorderList, List.forall_mem_append] at weights
      rw [Layout.quantitiesList, firstFault?_append, Option.or_eq_some_iff] at first
      rcases first with here | ⟨-, later⟩
      · exact expected_of_quantities expects.1 weights.1 here
      · exact expected_of_quantitiesList expects.2 weights.2 later

end

end quantities

/-- A tree whose weights are finite fails only at its values. -/
theorem stopsOnly_statement {options : SourceOptions} {node : Layout} {depth : Nat}
    (expects : ∀ value ∈ node.values, Expects expected value)
    (weights : ∀ inner ∈ node.preorder, ∀ weight, .weight weight ∈ inner.modifiers →
      finiteNumber weight = true) :
    (statement options depth node).StopsOnly expected := by
  intro registry fault stops
  exact expected_of_quantities expects weights ((faults_statement node depth).stops_iff.mp stops)

theorem isFinite_of_color {color : Color} {text : String}
    (written : Source.color color = .ok text) : color.IsFinite := by
  rw [Source.color] at written
  split at written
  case isTrue finite => exact List.all_eq_true.mp finite
  case isFalse => cases written

end Source

/-- The quantities of a value are among its numbers. -/
theorem Primitive.isFinite_quantities {primitive : Primitive}
    (finite : ∀ number ∈ primitive.numbers, finiteNumber number = true) :
    ∀ quantity ∈ primitive.quantities, quantity.isFinite = true := by
  cases primitive with
  | number value => simpa [quantities, numbers, Quantity.isFinite] using finite
  | text value => simp [quantities]
  | color value => simpa [quantities, numbers, Quantity.isFinite] using finite
  | font font =>
      simp only [numbers, Typography.numbers, List.forall_mem_append, List.forall_mem_cons]
        at finite
      obtain ⟨⟨size, weight, spacing, -⟩, height⟩ := finite
      simp only [quantities, Typography.quantities, List.forall_mem_cons, List.forall_mem_append]
      refine ⟨weight, size, ?_, ?_⟩
      · split
        · simpa [Quantity.isFinite] using spacing
        · simp
      · generalize font.lineHeight = lineHeight at height
        cases lineHeight with
        | pixels value =>
            simpa [LineHeight.inPixels?, LineHeight.numbers, Quantity.isFinite] using height
        | auto | percent _ => simp [LineHeight.inPixels?]

/-- A value with finite numbers has a source text. -/
theorem Primitive.exists_source {primitive : Primitive}
    (finite : ∀ number ∈ primitive.numbers, finiteNumber number = true) :
    ∃ text, primitive.source = .ok text := by
  have faultless : faultOf? primitive.source = none := by
    rw [faultOf?_source]
    exact firstFault?_eq_none_iff.mpr (isFinite_quantities finite)
  cases source : primitive.source with
  | ok text => exact ⟨text, rfl⟩
  | error fault =>
      rw [source] at faultless
      cases faultless

theorem DesignValue.isBlank_of_color {value : DesignValue} {color : Color}
    (colored : value.property.value = .color color) : value.isBlank = false := by
  rcases value with ⟨category, property⟩
  cases property with
  | linked link => rfl
  | own primitive =>
      obtain rfl : primitive = .color color := colored
      rfl

namespace Document

variable {document : Document} {root : Layout} {text : String}

theorem expects_of_allows {value : DesignValue} (allows : document.Allows value) :
    Source.Expects (fun fault => ∃ color, value.property.value = .color color ∧
      fault = .color color ∧ document.Overflows color) value := by
  intro fault failed
  rw [Property.toPrimitive_eq] at failed
  rcases allows with finite | ⟨color, colored, overflows⟩
  · obtain ⟨text, written⟩ := Primitive.exists_source finite
    rw [written] at failed
    cases failed
  · refine ⟨color, colored, ?_, overflows⟩
    rw [colored, Primitive.source, Source.color] at failed
    split at failed
    · cases failed
    · exact (Except.error.inj failed).symm

/-- A document that is read from a text and has a layout is rendered just where
no alpha of a color is too large.  Where it is not, that is the reason: the
failure shows a color whose alpha is the product of the alpha of a variable and
the opacity of a paint, which are finite, and the product is not. -/
theorem render_of_parse? (parsed : parse? text = some document)
    (laidOut : document.layout? = some root) (options : SourceOptions) (registry : Registry) :
    ((∃ code after, (root.render options).Gives registry code after) ↔
      ∀ value ∈ root.values, ∀ color, value.property.value = .color color →
        finiteNumber color.alpha = true) ∧
    ∀ fault, (root.render options).Stops registry fault →
      ∃ color, fault = .color color ∧ document.Overflows color := by
  have allows := allows_layout? (finite_of_parse? parsed) laidOut
  have weights : ∀ inner ∈ root.preorder, ∀ weight, .weight weight ∈ inner.modifiers →
      finiteNumber weight = true := by
    intro inner innerMember weight member
    rw [weight_of_layout? laidOut innerMember member]
    decide
  have fails : (root.render options).StopsOnly fun fault => ∃ value ∈ root.values,
      ∃ color, value.property.value = .color color ∧ fault = .color color ∧
        document.Overflows color := by
    refine Source.stopsOnly_statement (fun value member => ?_) weights
    exact fun fault failed => ⟨value, member, expects_of_allows (allows value member) fault failed⟩
  refine ⟨⟨?_, ?_⟩, ?_⟩
  · intro given value member color colored
    obtain ⟨code, after, gives⟩ := given
    obtain ⟨owns, asks, -⟩ := (Layout.shows_render gives).takes
    have shows : value.isBlank = false := DesignValue.isBlank_of_color colored
    obtain ⟨own, -, asked⟩ := DesignValue.mem_ownTokens asks member shows
    obtain ⟨source, written, -⟩ := exists_of_bind asked
    rw [Property.toPrimitive_eq, colored] at written
    exact Source.isFinite_of_color written color.alpha (by simp [Color.channels])
  · intro finite
    rcases Registering.gives_or_stops (root.render options) registry with gives | ⟨fault, stops⟩
    · exact gives
    · -- A fault would show an alpha that is not finite, and all are.
      obtain ⟨value, member, color, colored, -, _, _, _, _, -, -, -, -, -, infinite⟩ :=
        fails registry fault stops
      rw [finite value member color colored] at infinite
      cases infinite
  · intro fault stops
    obtain ⟨value, -, color, -, shown, overflows⟩ := fails registry fault stops
    exact ⟨color, shown, overflows⟩

/-- The text of a document with one frame, whose paint has an opacity and the
color of a variable with an alpha. -/
def glowText (opacity alpha : String) : String :=
  "\x7b\"root\":\x7b\"type\":\"FRAME\",\"fills\":[\x7b\"type\":\"SOLID\"," ++
    "\"color\":\x7b\"r\":1,\"g\":0,\"b\":0\x7d,\"opacity\":" ++ opacity ++
    ",\"boundVariables\":\x7b\"color\":\x7b\"id\":\"v\"\x7d\x7d\x7d]\x7d," ++
    "\"variables\":\x7b\"v\":\x7b\"name\":\"glow\",\"resolvedType\":\"COLOR\"," ++
    "\"value\":\x7b\"r\":1,\"g\":0,\"b\":0,\"a\":" ++ alpha ++ "\x7d\x7d\x7d\x7d"

/-- The characters are read faster from the parts than from the joined text. -/
private theorem toList_glowText (opacity alpha : String) : (glowText opacity alpha).toList =
    "\x7b\"root\":\x7b\"type\":\"FRAME\",\"fills\":[\x7b\"type\":\"SOLID\",".toList ++
      "\"color\":\x7b\"r\":1,\"g\":0,\"b\":0\x7d,\"opacity\":".toList ++ opacity.toList ++
      ",\"boundVariables\":\x7b\"color\":\x7b\"id\":\"v\"\x7d\x7d\x7d]\x7d,".toList ++
      "\"variables\":\x7b\"v\":\x7b\"name\":\"glow\",\"resolvedType\":\"COLOR\",".toList ++
      "\"value\":\x7b\"r\":1,\"g\":0,\"b\":0,\"a\":".toList ++ alpha.toList ++
      "\x7d\x7d\x7d\x7d".toList := by
  unfold glowText
  iterate 7 rw [String.toList_append]

theorem render_of_parse?_translucent : ∃ document root code after,
    parse? (glowText "0.5" "0.5") = some document ∧ document.layout? = some root ∧
    root.values = [⟨.color, .linked ⟨"v", "glow", .color ⟨1.0, 0.0, 0.0, 0.25⟩⟩⟩] ∧
    (root.render {}).Gives .empty code after := by
  have read : ((parse? (glowText "0.5" "0.5")).bind layout?).map Layout.values =
      some [⟨.color, .linked ⟨"v", "glow", .color ⟨1.0, 0.0, 0.0, 0.25⟩⟩⟩] := by
    rw [parse?, Json.parse?, toList_glowText]
    decide +kernel
  obtain ⟨root, found, values⟩ := Option.map_eq_some_iff.mp read
  obtain ⟨document, parsed, laidOut⟩ := Option.bind_eq_some_iff.mp found
  have finite : ∀ value ∈ root.values, ∀ color, value.property.value = .color color →
      finiteNumber color.alpha = true := by
    rw [values]
    intro value member color colored
    obtain rfl := List.mem_singleton.mp member
    cases colored
    decide
  obtain ⟨code, after, gives⟩ := (render_of_parse? parsed laidOut {} .empty).1.mpr finite
  exact ⟨document, root, code, after, parsed, laidOut, values, gives⟩

/-- An alpha of two under an opacity near the largest number is infinite. -/
theorem render_of_parse?_tooOpaque :
    ¬ ∀ (text : String) (document : Document) (root : Layout), parse? text = some document →
      document.layout? = some root → ∃ code after, (root.render {}).Gives .empty code after := by
  intro claim
  have read : ((parse? (glowText "1e308" "2")).bind layout?).map
        (fun root => (Id.run ((root.render {}).run.run .empty)).1.mapError Unwritable.message) =
      some (.error "Unsupported color value: Color \x7b r: 1.0, g: 0.0, b: 0.0, a: inf \x7d") := by
    rw [parse?, Json.parse?, toList_glowText]
    decide +kernel
  obtain ⟨root, found, failed⟩ := Option.map_eq_some_iff.mp read
  obtain ⟨document, parsed, laidOut⟩ := Option.bind_eq_some_iff.mp found
  obtain ⟨code, after, gives⟩ := claim _ document root parsed laidOut
  rw [gives] at failed
  cases failed

end Document

end DesignLayout
