import DesignLayout.Proofs.DesignValues
import DesignLayout.Proofs.FullRendering
import DesignLayout.Proofs.Outcomes

/-!
# Quantities in source text

Source text says numbers, and colors by their channels.  A quantity that is not
finite cannot be said, and it is all that keeps a tree from being rendered: a
rendering fails at the first such quantity, or else succeeds, whatever its
registry holds.
-/

namespace DesignLayout

/-- What source text says in figures. -/
inductive Quantity where
  | number (value : Float)
  | color (value : Color)
  deriving DecidableEq, Repr

namespace Quantity

def isFinite : Quantity → Bool
  | .number value => finiteNumber value
  | .color value => value.channels.all finiteNumber

/-- The failure that shows the quantity. -/
def fault : Quantity → Unwritable
  | .number value => .number value
  | .color value => .color value

/-- The first quantity that is not finite fails. -/
def firstFault? (quantities : List Quantity) : Option Unwritable :=
  (quantities.find? fun quantity => !quantity.isFinite).map fault

end Quantity

section quantities

/-- The weight of a font, its size, and the spaces that are given in pixels.
Letters without extra space say none. -/
def Typography.quantities (font : Typography) : List Quantity :=
  .number font.weight :: .number font.size ::
    ((if font.letterSpacing.unit == .pixels && font.letterSpacing.value != 0.0 then
        [.number font.letterSpacing.value]
      else []) ++
      font.lineHeight.inPixels?.toList.map .number)

def Primitive.quantities : Primitive → List Quantity
  | .number value => [.number value]
  | .text _ => []
  | .color value => [.color value]
  | .font value => value.quantities

/-- A value that stands for nothing to show says nothing. -/
def DesignValue.quantities (value : DesignValue) : List Quantity :=
  if value.isBlank then [] else value.property.value.quantities

/-- A weight is the one number that is no value. -/
def Modifier.quantities : Modifier → List Quantity
  | .weight value => [.number value]
  | modifier => modifier.values.flatMap DesignValue.quantities

def LayoutKind.quantities (kind : LayoutKind) : List Quantity :=
  kind.values.flatMap DesignValue.quantities

namespace Layout

mutual

/-- The quantities that a tree has to say: those of the modifiers of a node, of
its kind and of its children.  The children of a text are not rendered. -/
def quantities : Layout → List Quantity
  | ⟨_, modifiers, children, kind⟩ =>
    modifiers.flatMap Modifier.quantities ++ kind.quantities ++
      if kind.holdsText then [] else quantitiesList children

def quantitiesList : List Layout → List Quantity
  | [] => []
  | node :: rest => node.quantities ++ quantitiesList rest

end

end Layout

end quantities

namespace Quantity

@[simp] theorem firstFault?_nil : firstFault? [] = none := rfl

theorem firstFault?_append (left right : List Quantity) :
    firstFault? (left ++ right) = (firstFault? left).or (firstFault? right) := by
  rw [firstFault?, List.find?_append, Option.map_or]
  rfl

theorem firstFault?_cons (quantity : Quantity) (rest : List Quantity) :
    firstFault? (quantity :: rest) = (firstFault? [quantity]).or (firstFault? rest) :=
  firstFault?_append [quantity] rest

theorem firstFault?_eq_none_iff {quantities : List Quantity} :
    firstFault? quantities = none ↔ ∀ quantity ∈ quantities, quantity.isFinite = true := by
  simp [firstFault?]

end Quantity

open Quantity (firstFault? firstFault?_append firstFault?_cons)

section literals

theorem faultOf?_ite {α : Type} (quantity : Quantity) (result : α) :
    faultOf? (if quantity.isFinite then .ok result else .error quantity.fault) =
      firstFault? [quantity] := by
  cases finite : quantity.isFinite <;> simp [faultOf?, firstFault?, finite]

namespace Source

theorem faultOf?_number (value : Float) :
    faultOf? (number value) = firstFault? [.number value] :=
  faultOf?_ite (.number value) _

theorem faultOf?_wholeNumber (value : Float) :
    faultOf? (wholeNumber value) = firstFault? [.number value] :=
  faultOf?_ite (.number value) _

theorem faultOf?_color (value : Color) :
    faultOf? (color value) = firstFault? [.color value] :=
  faultOf?_ite (.color value) _

theorem faultOf?_typeSize (value : Float) :
    faultOf? (typeSize value) = firstFault? [.number value] := by
  rw [typeSize, faultOf?_bind_pure, faultOf?_number]

theorem faultOf?_letterSpacing? (spacing : LetterSpacing) :
    faultOf? (letterSpacing? spacing) =
      firstFault? (if spacing.unit == .pixels && spacing.value != 0.0 then
        [.number spacing.value] else []) := by
  unfold letterSpacing?
  split
  · rw [faultOf?_bind_pure, faultOf?_typeSize]
  · rfl

theorem faultOf?_lineHeight? (height : LineHeight) :
    faultOf? (lineHeight? height) = firstFault? (height.inPixels?.toList.map .number) := by
  unfold lineHeight?
  cases height.inPixels? with
  | none => rfl
  | some value => exact (faultOf?_bind_pure _ _).trans (faultOf?_typeSize value)

theorem faultOf?_fontStyle (font : Typography) :
    faultOf? (fontStyle font) = firstFault? font.quantities := by
  rw [Typography.quantities, firstFault?_cons, firstFault?_cons (.number font.size),
    firstFault?_append, ← faultOf?_wholeNumber, ← faultOf?_typeSize, ← faultOf?_letterSpacing?,
    ← faultOf?_lineHeight?, fontStyle]
  refine faultOf?_bind fun weight => faultOf?_bind fun size => faultOf?_bind fun spacing => ?_
  exact faultOf?_bind_pure _ _

end Source

theorem Primitive.faultOf?_source (primitive : Primitive) :
    faultOf? primitive.source = firstFault? primitive.quantities := by
  cases primitive with
  | number value =>
      rw [source, faultOf?_bind_pure, Source.faultOf?_number]
      rfl
  | text value => rfl
  | color value => exact Source.faultOf?_color value
  | font value => exact Source.faultOf?_fontStyle value

end literals

namespace Registering

variable {ε α β : Type} {fault later : Option ε}

/-- A run from a registry fails. -/
def Stops (action : Registering ε α) (registry : Registry) (fault : ε) : Prop :=
  ∃ after, Id.run (action.run.run registry) = (.error fault, after)

theorem gives_or_stops (action : Registering ε α) (registry : Registry) :
    (∃ result after, action.Gives registry result after) ∨
      ∃ fault, action.Stops registry fault := by
  rcases run : Id.run (action.run.run registry) with ⟨result, after⟩
  cases result with
  | ok value => exact .inl ⟨value, after, run⟩
  | error fault => exact .inr ⟨fault, after, run⟩

/-- Wherever a run starts, it fails as said, or succeeds if no fault is said. -/
def Faults (action : Registering ε α) (fault : Option ε) : Prop :=
  ∀ registry, faultOf? (Id.run (action.run.run registry)).1 = fault

theorem Faults.stops_iff {action : Registering ε α} (faults : action.Faults fault)
    {registry : Registry} {shown : ε} : action.Stops registry shown ↔ fault = some shown := by
  rw [Stops, ← faults registry]
  rcases Id.run (action.run.run registry) with ⟨result, after⟩
  cases result <;> simp [faultOf?]

theorem Faults.gives_iff {action : Registering ε α} (faults : action.Faults fault)
    {registry : Registry} :
    (∃ result after, action.Gives registry result after) ↔ fault = none := by
  simp only [Gives]
  rw [← faults registry]
  rcases Id.run (action.run.run registry) with ⟨result, after⟩
  cases result <;> simp [faultOf?]

theorem faults_pure (value : α) : (pure value : Registering ε α).Faults none :=
  fun _ => rfl

theorem faults_modifyGet (change : Registry → α × Registry) :
    (modifyGet change : Registering ε α).Faults none :=
  fun _ => rfl

theorem faults_ofExcept (outcome : Except ε α) : (ofExcept outcome).Faults (faultOf? outcome) :=
  fun _ => rfl

/-- The fault of what follows counts where the first part succeeds, and only
for what it can give. -/
theorem faults_bind_of_gives {action : Registering ε α} {next : α → Registering ε β}
    (first : action.Faults fault)
    (second : ∀ registry value after, action.Gives registry value after →
      (next value).Faults later) : (action >>= next).Faults (fault.or later) := by
  intro registry
  rw [run_bind, ← first registry]
  rcases run : Id.run (action.run.run registry) with ⟨result, between⟩
  cases result with
  | ok value => exact second registry value between run between
  | error earlier => rfl

theorem faults_bind {action : Registering ε α} {next : α → Registering ε β}
    (first : action.Faults fault) (second : ∀ value, (next value).Faults later) :
    (action >>= next).Faults (fault.or later) :=
  faults_bind_of_gives first fun _ value _ _ => second value

theorem faults_bind_pure {action : Registering ε α} (first : action.Faults fault)
    (result : α → β) : (action >>= fun value => pure (result value)).Faults fault := by
  have both := faults_bind first fun value => faults_pure (ε := ε) (result value)
  rwa [Option.or_none] at both

end Registering

namespace Source

open Registering

theorem faults_token? {α : Type} [ToPrimitive α] (category : Category) (property : Property α) :
    (token? category (some property)).Faults
      (firstFault? (DesignValue.of category property).quantities) := by
  have said : (DesignValue.of category property).quantities =
      if property.isBlank then [] else property.toPrimitive.quantities := by
    cases property <;> rfl
  rw [said, token?, register]
  split
  · exact faults_pure none
  · have stored : ∀ text, Registering.Faults (ε := Unwritable) (do
        let token ← modifyGet fun registry => registry.store (property.token category text)
        return some token) none := fun text => faults_bind_pure (faults_modifyGet _) some
    have both := faults_bind (faults_ofExcept property.toPrimitive.source) stored
    rwa [Option.or_none, Primitive.faultOf?_source] at both

theorem faults_optional? {α : Type} [ToPrimitive α] (category : Category)
    (property : Option (Property α)) :
    (token? category property).Faults
      (firstFault? ((property.toList.map (DesignValue.of category)).flatMap
        DesignValue.quantities)) := by
  cases property with
  | none => exact faults_pure none
  | some property => simpa using faults_token? category property

section modifiers

theorem faults_padding? (padding : Padding) :
    (padding? padding).Faults (firstFault? (Modifier.padding padding).quantities) := by
  have edge := fun side => faults_optional? .padding (side : Option Dimension)
  simp only [Modifier.quantities, Modifier.values, Edges.toList, List.flatMap_cons,
    List.flatMap_nil, List.append_nil, List.flatMap_append, firstFault?_append]
  refine faults_bind (edge padding.left) fun _ => ?_
  refine faults_bind (edge padding.top) fun _ => ?_
  refine faults_bind (edge padding.right) fun _ => ?_
  exact faults_bind_pure (edge padding.bottom) _

theorem faults_shapeArgument (label : Option String) (shape : Option Shape) :
    (shapeArgument label shape).Faults
      (firstFault? ((shapeValues shape).flatMap DesignValue.quantities)) := by
  cases shape with
  | none => exact faults_pure _
  | some shape =>
      have corner := fun radius => faults_token? .shape (radius : Dimension)
      simp only [shapeValues, Option.toList_some, Corners.toList, List.map_cons, List.map_nil,
        List.flatMap_cons, List.flatMap_nil, List.append_nil, firstFault?_append]
      refine faults_bind_pure ?_ _
      refine faults_bind (corner shape.topLeft) fun _ => ?_
      refine faults_bind (corner shape.topRight) fun _ => ?_
      refine faults_bind (corner shape.bottomRight) fun _ => ?_
      exact faults_bind_pure (corner shape.bottomLeft) _

theorem faults_modifier? (modifier : Modifier) :
    (modifier? modifier).Faults (firstFault? modifier.quantities) := by
  cases modifier with
  | weight weight =>
      rw [Modifier.quantities, ← faultOf?_number]
      exact faults_bind_pure (faults_ofExcept (Source.number weight)) _
  | fillMax axis => cases axis <;> exact faults_pure _
  | baseline => exact faults_pure _
  | background color shape =>
      simp only [Modifier.quantities, Modifier.values, List.flatMap_cons, firstFault?_append]
      -- A color always shows, so there is a token.
      refine faults_bind_of_gives (faults_token? .color color) fun _ token _ gives => ?_
      obtain ⟨token, rfl⟩ := exists_of_token? (isBlank_color color) gives
      exact faults_bind_pure (faults_shapeArgument none shape) _
  | border color shape width =>
      simp only [Modifier.quantities, Modifier.values, List.flatMap_cons, List.flatMap_append,
        firstFault?_append]
      refine faults_bind_of_gives (faults_token? .color color) fun _ token _ gives => ?_
      obtain ⟨token, rfl⟩ := exists_of_token? (isBlank_color color) gives
      refine faults_bind (faults_optional? .padding width) fun _ => ?_
      exact faults_bind_pure (faults_shapeArgument (some "shape") shape) _
  | padding padding => exact faults_padding? padding
  | size extent length =>
      simp only [Modifier.quantities, Modifier.values, List.flatMap_cons, List.flatMap_nil,
        List.append_nil]
      exact faults_bind_pure (faults_token? .padding length) _

end modifiers

section statements

variable {options : SourceOptions}

theorem faults_modifierCalls : ∀ modifiers : List Modifier,
    (modifierCalls modifiers).Faults (firstFault? (modifiers.flatMap Modifier.quantities))
  | [] => faults_pure _
  | modifier :: rest => by
      rw [List.flatMap_cons, firstFault?_append]
      refine faults_bind (faults_modifier? modifier) fun _ => ?_
      exact faults_bind_pure (faults_modifierCalls rest) _

theorem faults_arrangementParameter {α : Type} (name : String) (placementName : α → String) :
    ∀ arrangement : Option (Arrangement α),
    (arrangementParameter name placementName arrangement).Faults
      (firstFault? ((arrangementValues arrangement).flatMap DesignValue.quantities))
  | none => faults_pure _
  | some (.placed _) => faults_pure _
  | some (.spaced spacing) => by
      rw [arrangementValues, List.flatMap_singleton]
      exact faults_bind_pure (faults_bind_pure (faults_token? .padding spacing) _) _

theorem faults_kindParameters (kind : LayoutKind) :
    (kindParameters kind).Faults (firstFault? kind.quantities) := by
  cases kind with
  | row arrangement alignment => exact faults_bind_pure (faults_arrangementParameter _ _ _) _
  | flowRow horizontal vertical =>
      simp only [LayoutKind.quantities, LayoutKind.values, List.flatMap_append, firstFault?_append]
      refine faults_bind (faults_arrangementParameter _ _ horizontal) fun _ => ?_
      exact faults_bind_pure (faults_arrangementParameter _ _ vertical) _
  | column arrangement alignment => exact faults_bind_pure (faults_arrangementParameter _ _ _) _
  | box centered => exact faults_pure _
  | text content =>
      simp only [LayoutKind.quantities, LayoutKind.values, List.flatMap_cons, firstFault?_append]
      refine faults_bind (faults_token? .text content.style) fun _ => ?_
      exact faults_bind_pure (faults_optional? .color content.color) _

mutual

/-- A statement fails at its first quantity that is not finite. -/
theorem faults_statement : ∀ (node : Layout) (depth : Nat),
    (statement options depth node).Faults (firstFault? node.quantities)
  | ⟨name, modifiers, children, kind⟩, depth => by
      rw [Layout.quantities, firstFault?_append, firstFault?_append, Option.or_assoc, statement]
      refine faults_bind (faults_bind_pure (faults_modifierCalls modifiers) _) fun _ => ?_
      refine faults_bind (faults_kindParameters kind) fun _ => ?_
      split
      case isTrue => exact faults_pure _
      case isFalse => exact faults_bind_pure (faults_statements children (depth + 1)) _

/-- List counterpart of faults_statement. -/
theorem faults_statements : ∀ (nodes : List Layout) (depth : Nat),
    (statements options depth nodes).Faults (firstFault? (Layout.quantitiesList nodes))
  | [], depth => by
      rw [statements]
      exact faults_pure _
  | node :: rest, depth => by
      rw [Layout.quantitiesList, firstFault?_append, statements]
      refine faults_bind (faults_statement node depth) fun _ => ?_
      exact faults_bind_pure (faults_statements rest depth) _

end

end statements

end Source

namespace Layout

/-- A tree is rendered just where all quantities that it has to say are finite,
and otherwise fails at the first that is not.  What is registered before does
not matter. -/
theorem render_quantities (root : Layout) (options : SourceOptions) (registry : Registry) :
    ((∃ code after, (root.render options).Gives registry code after) ↔
      ∀ quantity ∈ root.quantities, quantity.isFinite = true) ∧
    ∀ fault, (root.render options).Stops registry fault ↔
      ∃ before quantity later, root.quantities = before ++ quantity :: later ∧
        (∀ earlier ∈ before, earlier.isFinite = true) ∧ quantity.isFinite = false ∧
        fault = quantity.fault := by
  have faults : (root.render options).Faults (firstFault? root.quantities) :=
    Source.faults_statement root 0
  refine ⟨faults.gives_iff.trans Quantity.firstFault?_eq_none_iff, fun fault => ?_⟩
  rw [faults.stops_iff, firstFault?, Option.map_eq_some_iff]
  simp only [List.find?_eq_some_iff_append]
  constructor
  · rintro ⟨quantity, ⟨infinite, before, later, split, finite⟩, rfl⟩
    exact ⟨before, quantity, later, split, by simpa using finite, by simpa using infinite, rfl⟩
  · rintro ⟨before, quantity, later, split, finite, infinite, rfl⟩
    exact ⟨quantity, ⟨by simpa using infinite, before, later, split, by simpa using finite⟩, rfl⟩

/-- A zero says nothing unless it is that of a link, and neither does a spacing
in percent. -/
example :
    let padding : Padding := ⟨some (.own 0.0), some (.linked ⟨"V:1", "gap", 0.0⟩), none,
      some (.own (0.0 / 0.0))⟩
    let font : Typography := ⟨14.0, 400.0, .none, ⟨"Inter", "Regular"⟩, ⟨.percent, 1.0 / 0.0⟩,
      .auto, .asWritten⟩
    quantities ⟨"card", [.padding padding, .weight 1.0],
      [.leaf "label" (.text (.plain "hi" (.own font)))], .box false⟩ =
      [.number 0.0, .number (0.0 / 0.0), .number 1.0, .number 400.0, .number 14.0] := by
  decide

end Layout

end DesignLayout
