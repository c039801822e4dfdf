import DesignLayout.Proofs.ValueTokens

/-!
# A link is its name

A link asks for the token of its name.  Its id is never looked at, and the value
that it last had counts only where it is the first to bring its name into the
registry.  So two trees that differ in nothing else are rendered to the same
code, and leave the same registry.
-/

namespace DesignLayout

section names

/-- A property with no more of its link than the name. -/
def Property.nameOnly {α : Type} [Inhabited α] : Property α → Property α
  | .linked link => .linked ⟨"", link.name, default⟩
  | .own value => .own value

def Modifier.nameOnly : Modifier → Modifier
  | .background color shape =>
    .background color.nameOnly (shape.map (Corners.map Property.nameOnly))
  | .border color shape width =>
    .border color.nameOnly (shape.map (Corners.map Property.nameOnly))
      (width.map Property.nameOnly)
  | .padding edges => .padding (edges.map (Option.map Property.nameOnly))
  | .weight factor => .weight factor
  | .fillMax axis => .fillMax axis
  | .baseline => .baseline
  | .size axis value => .size axis value.nameOnly

def Arrangement.nameOnly {α : Type} : Arrangement α → Arrangement α
  | .spaced spacing => .spaced spacing.nameOnly
  | .placed placement => .placed placement

def LayoutKind.nameOnly : LayoutKind → LayoutKind
  | .row arrangement alignment => .row (arrangement.map Arrangement.nameOnly) alignment
  | .flowRow horizontal vertical =>
    .flowRow (horizontal.map Arrangement.nameOnly) (vertical.map Arrangement.nameOnly)
  | .column arrangement alignment => .column (arrangement.map Arrangement.nameOnly) alignment
  | .box centered => .box centered
  | .text content =>
    .text { content with
      style := content.style.nameOnly, color := content.color.map Property.nameOnly }

namespace Layout

mutual

/-- A tree with no more of its links than their names. -/
def nameOnly : Layout → Layout
  | ⟨name, modifiers, children, kind⟩ =>
    ⟨name, modifiers.map Modifier.nameOnly, nameOnlyList children, kind.nameOnly⟩

def nameOnlyList : List Layout → List Layout
  | [] => []
  | node :: rest => node.nameOnly :: nameOnlyList rest

end

end Layout

namespace DesignValue

/-- The value of a link in a category by a name. -/
def linkedValue? (category : Category) (name : String) (value : DesignValue) :
    Option Primitive :=
  match value.property with
  | .linked link => if value.category = category ∧ link.name = name then some link.value else none
  | .own _ => none

/-- The value of the first link in a category by a name. -/
def firstLinked? (category : Category) (name : String) (values : List DesignValue) :
    Option Primitive :=
  values.findSome? (linkedValue? category name)

/-- One value of its own, or two links of one name. -/
inductive Namesake : DesignValue → DesignValue → Prop where
  | own {category : Category} {primitive : Primitive} :
      Namesake ⟨category, .own primitive⟩ ⟨category, .own primitive⟩
  | linked {category : Category} {link other : TokenLink Primitive} :
      link.name = other.name → Namesake ⟨category, .linked link⟩ ⟨category, .linked other⟩

end DesignValue

end names

open Registering DesignValue

namespace Registry

variable {registry after : Registry} {values others later othersLater : List DesignValue}

/-- Among two lists of values the first links of every name that is not
registered have one value. -/
def Agrees (registry : Registry) (values others : List DesignValue) : Prop :=
  ∀ category name, registry.get? category (tokenId name) = none →
    firstLinked? category name values = firstLinked? category name others

/-- Every link among the values has its token. -/
def Covers (registry : Registry) (values : List DesignValue) : Prop :=
  ∀ value ∈ values, ∀ link ∈ value.property.link?,
    registry.get? value.category (tokenId link.name) ≠ none

theorem Within.covers {values : List DesignValue} (within : registry.Within after)
    (covers : registry.Covers values) : after.Covers values := by
  intro value member link linked absent
  obtain ⟨token, found⟩ := Option.ne_none_iff_exists'.mp (covers value member link linked)
  rw [within _ _ _ found] at absent
  cases absent

end Registry

namespace DesignValue

variable {values others later othersLater : List DesignValue}

theorem firstLinked?_append (category : Category) (name : String)
    (values later : List DesignValue) :
    firstLinked? category name (values ++ later) =
      (firstLinked? category name values).or (firstLinked? category name later) := by
  rw [firstLinked?, List.findSome?_append]
  rfl

/-- Where one list has a link of a name, so has the other. -/
theorem firstLinked?_eq_none_iff (namesakes : List.Forall₂ Namesake values others)
    (category : Category) (name : String) :
    firstLinked? category name values = none ↔ firstLinked? category name others = none := by
  simp only [firstLinked?, List.findSome?_eq_none_iff]
  induction namesakes with
  | nil => rfl
  | @cons value other values others same _ ih =>
      have first : linkedValue? category name value = none ↔
          linkedValue? category name other = none := by
        cases same with
        | own => rfl
        | linked names => simp only [linkedValue?, names, ite_eq_right_iff, reduceCtorEq]
      rw [List.forall_mem_cons, List.forall_mem_cons, first, ih]

/-- Links of a name that has no token yet are not among values that have
theirs. -/
theorem firstLinked?_eq_none {registry : Registry} {category : Category} {name : String}
    (covers : registry.Covers values)
    (absent : registry.get? category (tokenId name) = none) :
    firstLinked? category name values = none := by
  rw [firstLinked?, List.findSome?_eq_none_iff]
  intro value member
  rcases value with ⟨own, property⟩
  cases property with
  | own primitive => rfl
  | linked link =>
      have covered := covers _ member link rfl
      refine if_neg ?_
      rintro ⟨rfl, rfl⟩
      exact covered absent

end DesignValue

namespace Registry

variable {registry between : Registry} {values others later othersLater : List DesignValue}

theorem Agrees.left (agrees : registry.Agrees (values ++ later) (others ++ othersLater))
    (namesakes : List.Forall₂ Namesake values others) : registry.Agrees values others := by
  intro category name absent
  have same := agrees category name absent
  have both := firstLinked?_eq_none_iff namesakes category name
  rw [firstLinked?_append, firstLinked?_append] at same
  cases first : firstLinked? category name values with
  | none => exact (both.mp first).symm
  | some value =>
      cases second : firstLinked? category name others with
      | none =>
          rw [both.mpr second] at first
          cases first
      | some other =>
          rw [first, second] at same
          exact same

/-- What comes later has the first link of a name only where nothing before it
has brought the name into the registry. -/
theorem Agrees.right (agrees : registry.Agrees (values ++ later) (others ++ othersLater))
    (namesakes : List.Forall₂ Namesake values others) (within : registry.Within between)
    (covers : between.Covers values) : between.Agrees later othersLater := by
  intro category name absent
  have before : registry.get? category (tokenId name) = none := by
    cases found : registry.get? category (tokenId name) with
    | none => rfl
    | some token =>
        rw [within _ _ _ found] at absent
        cases absent
  have first := firstLinked?_eq_none covers absent
  have second := (firstLinked?_eq_none_iff namesakes category name).mp first
  have same := agrees category name before
  rwa [firstLinked?_append, firstLinked?_append, first, second, Option.none_or,
    Option.none_or] at same

end Registry

namespace Registering

variable {α β : Type} {values others later othersLater : List DesignValue}

/-- Two runs that register values of the same names.  Where the first links
agree, runs from one registry that succeed end alike. -/
structure Coincide (values others : List DesignValue) (action other : Rendering α) : Prop where
  namesakes : List.Forall₂ Namesake values others
  same : ∀ ⦃registry result after otherResult otherAfter⦄, registry.Agrees values others →
    action.Gives registry result after → other.Gives registry otherResult otherAfter →
    result = otherResult ∧ after = otherAfter ∧ registry.Within after ∧ after.Covers values

theorem coincide_pure (value : α) : Coincide [] [] (pure value) (pure value) where
  namesakes := .nil
  same := by
    intro registry result after otherResult otherAfter _ gives otherGives
    obtain ⟨rfl, rfl⟩ := gives_pure.mp gives
    obtain ⟨rfl, rfl⟩ := gives_pure.mp otherGives
    exact ⟨rfl, rfl, fun _ _ _ found => found, fun _ member => by cases member⟩

theorem coincide_ofExcept (outcome : Except Unwritable α) :
    Coincide [] [] (ofExcept outcome) (ofExcept outcome) where
  namesakes := .nil
  same := by
    intro registry result after otherResult otherAfter _ gives otherGives
    obtain ⟨rfl, rfl⟩ := gives_ofExcept.mp gives
    obtain ⟨written, rfl⟩ := gives_ofExcept.mp otherGives
    exact ⟨Except.ok.inj written, rfl, fun _ _ _ found => found, fun _ member => by cases member⟩

/-- Two runs one after the other, where the second goes on from what the first
can end with. -/
theorem coincide_bind_of {possible : α → Prop} {action other : Rendering α}
    {next otherNext : α → Rendering β} (exists_possible : ∃ value, possible value)
    (ends : ∀ registry value after, action.Gives registry value after → possible value)
    (first : Coincide values others action other)
    (second : ∀ value, possible value →
      Coincide later othersLater (next value) (otherNext value)) :
    Coincide (values ++ later) (others ++ othersLater) (action >>= next)
      (other >>= otherNext) where
  namesakes :=
    let ⟨value, holds⟩ := exists_possible
    List.rel_append first.namesakes (second value holds).namesakes
  same := by
    intro registry result after otherResult otherAfter agrees gives otherGives
    obtain ⟨value, between, givesFirst, gives⟩ := gives_bind.mp gives
    obtain ⟨_, _, otherFirst, otherGives⟩ := gives_bind.mp otherGives
    obtain ⟨rfl, rfl, within, covers⟩ :=
      first.same (agrees.left first.namesakes) givesFirst otherFirst
    obtain ⟨rfl, rfl, further, coversLater⟩ := (second value (ends _ _ _ givesFirst)).same
      (agrees.right first.namesakes within covers) gives otherGives
    refine ⟨rfl, rfl, within.trans further, ?_⟩
    intro entry member
    rcases List.mem_append.mp member with earlier | late
    · exact further.covers covers entry earlier
    · exact coversLater entry late

theorem coincide_bind [Nonempty α] {action other : Rendering α}
    {next otherNext : α → Rendering β} (first : Coincide values others action other)
    (second : ∀ value, Coincide later othersLater (next value) (otherNext value)) :
    Coincide (values ++ later) (others ++ othersLater) (action >>= next) (other >>= otherNext) :=
  coincide_bind_of ⟨Classical.choice ‹_›, trivial⟩ (fun _ _ _ _ => trivial) first
    fun value _ => second value

theorem coincide_map [Nonempty α] {action other : Rendering α} (change : α → β)
    (coincide : Coincide values others action other) :
    Coincide values others (action >>= fun value => pure (change value))
      (other >>= fun value => pure (change value)) := by
  have mapped := coincide_bind coincide fun value => coincide_pure (change value)
  rwa [List.append_nil, List.append_nil] at mapped

end Registering

namespace Source

open Registry

variable {options : SourceOptions}

/-- A link stores a token by its name, whatever its id. -/
theorem gives_token?_linked {α : Type} [ToPrimitive α] {category : Category} {link : TokenLink α}
    {registry after : Registry} {token : Option Token} :
    (token? category (some (.linked link))).Gives registry token after ↔
      ∃ text, (toPrimitive link.value).source = .ok text ∧ ∃ entry,
        registry.store (.named category link.name text) = (entry, after) ∧ token = some entry := by
  rw [token?, register, Property.isBlank_linked, if_neg Bool.false_ne_true, gives_bind]
  constructor
  · rintro ⟨text, _, formats, gives⟩
    obtain ⟨written, rfl⟩ := gives_ofExcept.mp formats
    obtain ⟨entry, _, stores, gives⟩ := gives_bind.mp gives
    obtain ⟨rfl, rfl⟩ := gives_pure.mp gives
    exact ⟨text, written, entry, gives_modifyGet.mp stores, rfl⟩
  · rintro ⟨text, written, entry, stores, rfl⟩
    exact ⟨text, registry, gives_ofExcept.mpr ⟨written, rfl⟩,
      gives_bind.mpr ⟨entry, after, gives_modifyGet.mpr stores, gives_pure.mpr ⟨rfl, rfl⟩⟩⟩

theorem coincide_linked {α : Type} [ToPrimitive α] (category : Category)
    {link other : TokenLink α} (names : link.name = other.name) :
    Coincide [of category (.linked link)] [of category (.linked other)]
      (token? category (some (.linked link))) (token? category (some (.linked other))) where
  namesakes := .cons (.linked names) .nil
  same := by
    intro registry result after otherResult otherAfter agrees gives otherGives
    have within := (shows_token? gives).takes.within
    obtain ⟨text, written, entry, stores, rfl⟩ := gives_token?_linked.mp gives
    obtain ⟨otherText, otherWritten, otherEntry, otherStores, rfl⟩ :=
      gives_token?_linked.mp otherGives
    -- Either the name has its token already, or the links are the first ones.
    have stored : registry.store (.named category link.name text) = (otherEntry, otherAfter) := by
      cases found : registry.get? category (tokenId link.name) with
      | some present =>
          rw [← otherStores]
          simp only [store, Token.named, found, ← names]
      | none =>
          have firsts := agrees category link.name found
          have sameValue : toPrimitive link.value = toPrimitive other.value := by
            simpa [firstLinked?, linkedValue?, of, Property.map, names] using firsts
          rw [sameValue, otherWritten] at written
          cases written
          rw [names, otherStores]
    cases stores.symm.trans stored
    refine ⟨rfl, rfl, within, ?_⟩
    intro value member _ linked
    cases List.mem_singleton.mp member
    cases linked
    exact ne_of_eq_of_ne (store_eq stores).2 (Option.some_ne_none _)

theorem coincide_token? {α : Type} [Inhabited α] [ToPrimitive α] (category : Category)
    {property other : Property α} (names : property.nameOnly = other.nameOnly) :
    Coincide [of category property] [of category other] (token? category (some property))
      (token? category (some other)) := by
  cases property with
  | linked link =>
      cases other with
      | linked otherLink =>
          have linkNames := Option.some.inj (congrArg (·.link?.map TokenLink.name) names)
          exact coincide_linked category linkNames
      | own value => cases names
  | own value =>
      cases other with
      | linked link => cases names
      | own otherValue =>
          cases names
          refine ⟨.cons .own .nil, ?_⟩
          intro registry result after otherResult otherAfter _ gives otherGives
          cases gives.symm.trans otherGives
          refine ⟨rfl, rfl, (shows_token? gives).takes.within, ?_⟩
          intro entry member link linked
          cases List.mem_singleton.mp member
          cases linked

theorem coincide_optional? {α : Type} [Inhabited α] [ToPrimitive α] (category : Category)
    {property other : Option (Property α)}
    (names : property.map Property.nameOnly = other.map Property.nameOnly) :
    Coincide (property.toList.map (.of category)) (other.toList.map (.of category))
      (token? category property) (token? category other) := by
  cases property with
  | none =>
      cases other with
      | none => exact coincide_pure none
      | some property => cases names
  | some property =>
      cases other with
      | none => cases names
      | some other => exact coincide_token? category (Option.some.inj names)

section modifiers

variable {later othersLater : List DesignValue}

theorem coincide_padding? {padding other : Padding}
    (names : padding.map (Option.map Property.nameOnly) =
      other.map (Option.map Property.nameOnly)) :
    Coincide (padding.toList.flatMap dimensionValues) (other.toList.flatMap dimensionValues)
      (padding? padding) (padding? other) := by
  obtain ⟨left, top, right, bottom⟩ := Edges.mk.inj names
  exact coincide_bind (coincide_optional? _ left) fun _ =>
    coincide_bind (coincide_optional? _ top) fun _ =>
    coincide_bind (coincide_optional? _ right) fun _ =>
    coincide_bind (coincide_optional? _ bottom) fun _ => coincide_pure _

theorem coincide_shape? {shape other : Shape}
    (names : shape.map Property.nameOnly = other.map Property.nameOnly) :
    Coincide (shapeValues (some shape)) (shapeValues (some other)) (shape? shape)
      (shape? other) := by
  obtain ⟨topLeft, topRight, bottomRight, bottomLeft⟩ := Corners.mk.inj names
  have listed : ∀ shape : Shape, shapeValues (some shape) =
      [.of .shape shape.topLeft] ++ ([.of .shape shape.topRight] ++
        ([.of .shape shape.bottomRight] ++ ([.of .shape shape.bottomLeft] ++ []))) :=
    fun _ => rfl
  rw [listed, listed]
  exact coincide_bind (coincide_token? _ topLeft) fun _ =>
    coincide_bind (coincide_token? _ topRight) fun _ =>
    coincide_bind (coincide_token? _ bottomRight) fun _ =>
    coincide_bind (coincide_token? _ bottomLeft) fun _ => coincide_pure _

theorem coincide_shapeArgument (label : Option String) {shape other : Option Shape}
    (names : shape.map (Corners.map Property.nameOnly) =
      other.map (Corners.map Property.nameOnly)) :
    Coincide (shapeValues shape) (shapeValues other) (shapeArgument label shape)
      (shapeArgument label other) := by
  cases shape with
  | none =>
      cases other with
      | none => exact coincide_pure []
      | some shape => cases names
  | some shape =>
      cases other with
      | none => cases names
      | some other => exact coincide_map _ (coincide_shape? (Option.some.inj names))

/-- A color always has its token, so what comes behind it is registered. -/
theorem coincide_color {color other : Property Color} (names : color.nameOnly = other.nameOnly)
    {next otherNext : Option Token → Rendering (Option Code)}
    (second : ∀ token, Coincide later othersLater (next (some token)) (otherNext (some token))) :
    Coincide (.of .color color :: later) (.of .color other :: othersLater)
      (token? .color (some color) >>= next) (token? .color (some other) >>= otherNext) := by
  have shown : ∀ registry token after,
      (token? .color (some color)).Gives registry token after → token.isSome := by
    intro registry token after gives
    cases token with
    | none => exact absurd gives color_ne_none
    | some token => rfl
  have possible : ∃ token : Option Token, token.isSome := ⟨some (.named .color "" ""), rfl⟩
  refine coincide_bind_of possible shown (coincide_token? _ names) ?_
  intro token isSome
  obtain ⟨token, rfl⟩ := Option.isSome_iff_exists.mp isSome
  exact second token

theorem coincide_modifier? {modifier other : Modifier}
    (names : modifier.nameOnly = other.nameOnly) :
    Coincide modifier.values other.values (modifier? modifier) (modifier? other) := by
  cases modifier with
  | background color shape =>
      cases other with
      | background otherColor otherShape =>
          obtain ⟨colors, shapes⟩ := Modifier.background.inj names
          exact coincide_color colors fun _ => coincide_map _ (coincide_shapeArgument _ shapes)
      | _ => cases names
  | border color shape width =>
      cases other with
      | border otherColor otherShape otherWidth =>
          obtain ⟨colors, shapes, widths⟩ := Modifier.border.inj names
          exact coincide_color colors fun _ => coincide_bind (coincide_optional? _ widths)
            fun _ => coincide_map _ (coincide_shapeArgument _ shapes)
      | _ => cases names
  | padding padding =>
      cases other with
      | padding otherPadding => exact coincide_padding? (Modifier.padding.inj names)
      | _ => cases names
  | weight factor =>
      cases other with
      | weight otherFactor =>
          cases names
          exact coincide_map _ (coincide_ofExcept _)
      | _ => cases names
  | fillMax axis =>
      cases other with
      | fillMax otherAxis =>
          cases names
          cases axis <;> exact coincide_pure _
      | _ => cases names
  | baseline =>
      cases other with
      | baseline => exact coincide_pure _
      | _ => cases names
  | size axis value =>
      cases other with
      | size otherAxis otherValue =>
          obtain ⟨rfl, values⟩ := Modifier.size.inj names
          exact coincide_map _ (coincide_token? _ values)
      | _ => cases names

end modifiers

section statements

theorem coincide_modifierCalls {modifiers others : List Modifier}
    (names : modifiers.map Modifier.nameOnly = others.map Modifier.nameOnly) :
    Coincide (modifiers.flatMap Modifier.values) (others.flatMap Modifier.values)
      (modifierCalls modifiers) (modifierCalls others) := by
  induction modifiers generalizing others with
  | nil =>
      obtain rfl := List.map_eq_nil_iff.mp names.symm
      exact coincide_pure []
  | cons modifier rest ih =>
      cases others with
      | nil => cases names
      | cons other otherRest =>
          obtain ⟨first, later⟩ := List.cons.inj names
          exact coincide_bind (coincide_modifier? first) fun _ => coincide_map _ (ih later)

theorem coincide_modifierParameter (depth : Nat) {modifiers others : List Modifier}
    (names : modifiers.map Modifier.nameOnly = others.map Modifier.nameOnly) :
    Coincide (modifiers.flatMap Modifier.values) (others.flatMap Modifier.values)
      (modifierParameter options depth modifiers) (modifierParameter options depth others) :=
  coincide_map _ (coincide_modifierCalls names)

theorem coincide_arrangementParameter {α : Type} (name : String) (placementName : α → String)
    {arrangement other : Option (Arrangement α)}
    (names : arrangement.map Arrangement.nameOnly = other.map Arrangement.nameOnly) :
    Coincide (arrangementValues arrangement) (arrangementValues other)
      (arrangementParameter name placementName arrangement)
      (arrangementParameter name placementName other) := by
  match arrangement, other with
  | none, none => exact coincide_pure []
  | none, some _ => cases names
  | some _, none => cases names
  | some (.placed placement), some (.placed otherPlacement) =>
      cases names
      exact coincide_pure _
  | some (.placed _), some (.spaced _) => cases names
  | some (.spaced _), some (.placed _) => cases names
  | some (.spaced spacing), some (.spaced otherSpacing) =>
      have spacings := Arrangement.spaced.inj (Option.some.inj names)
      exact coincide_map _ (coincide_map _ (coincide_token? _ spacings))

theorem coincide_kindParameters {kind other : LayoutKind}
    (names : kind.nameOnly = other.nameOnly) :
    Coincide kind.values other.values (kindParameters kind) (kindParameters other) := by
  cases kind with
  | row arrangement alignment =>
      cases other with
      | row otherArrangement otherAlignment =>
          obtain ⟨arrangements, rfl⟩ := LayoutKind.row.inj names
          exact coincide_map _ (coincide_arrangementParameter _ _ arrangements)
      | _ => cases names
  | flowRow horizontal vertical =>
      cases other with
      | flowRow otherHorizontal otherVertical =>
          obtain ⟨across, down⟩ := LayoutKind.flowRow.inj names
          exact coincide_bind (coincide_arrangementParameter _ _ across) fun _ =>
            coincide_map _ (coincide_arrangementParameter _ _ down)
      | _ => cases names
  | column arrangement alignment =>
      cases other with
      | column otherArrangement otherAlignment =>
          obtain ⟨arrangements, rfl⟩ := LayoutKind.column.inj names
          exact coincide_map _ (coincide_arrangementParameter _ _ arrangements)
      | _ => cases names
  | box centered =>
      cases other with
      | box otherCentered =>
          cases names
          exact coincide_pure _
      | _ => cases names
  | text content =>
      cases other with
      | text otherContent =>
          rcases content with ⟨text, style, color, align, lineLimit, ellipsis⟩
          rcases otherContent with ⟨otherText, otherStyle, otherColor, _, _, _⟩
          obtain ⟨rfl, styles, colors, rfl, rfl, rfl⟩ :=
            TextBlock.mk.inj (LayoutKind.text.inj names)
          exact coincide_bind (coincide_token? _ styles) fun _ =>
            coincide_map _ (coincide_optional? _ colors)
      | _ => cases names

theorem holdsText_nameOnly (kind : LayoutKind) : kind.nameOnly.holdsText = kind.holdsText := by
  cases kind <;> rfl

theorem header_nameOnly (depth : Nat) (name : String) (kind : LayoutKind)
    (parameters : List Parameter) :
    header options depth name kind.nameOnly parameters =
      header options depth name kind parameters := by
  cases kind <;> rfl

theorem isEmpty_nameOnlyList (nodes : List Layout) :
    (Layout.nameOnlyList nodes).isEmpty = nodes.isEmpty := by
  cases nodes <;> rfl

mutual

theorem coincide_statement (depth : Nat) : ∀ {node other : Layout},
    node.nameOnly = other.nameOnly →
    Coincide node.values other.values (statement options depth node)
      (statement options depth other)
  | ⟨name, modifiers, children, kind⟩, ⟨otherName, others, otherChildren, otherKind⟩, names => by
      obtain ⟨rfl, sameModifiers, sameChildren, sameKind⟩ := Layout.mk.inj names
      have texts : kind.holdsText = otherKind.holdsText := by
        rw [← holdsText_nameOnly, sameKind, holdsText_nameOnly]
      have headers : ∀ parameters, header options depth name kind parameters =
          header options depth name otherKind parameters := by
        intro parameters
        rw [← header_nameOnly, sameKind, header_nameOnly]
      have childless : children.isEmpty = otherChildren.isEmpty := by
        rw [← isEmpty_nameOnlyList, sameChildren, isEmpty_nameOnlyList]
      rw [statement, statement, Layout.values, Layout.values, List.append_assoc,
        List.append_assoc]
      refine coincide_bind (coincide_modifierParameter depth sameModifiers) fun modifier => ?_
      refine coincide_bind (coincide_kindParameters sameKind) fun parameters => ?_
      rw [texts, headers, childless]
      split
      case isTrue => exact coincide_pure _
      case isFalse => exact coincide_map _ (coincide_statements (depth + 1) sameChildren)

/-- List counterpart of coincide_statement. -/
theorem coincide_statements (depth : Nat) : ∀ {nodes others : List Layout},
    Layout.nameOnlyList nodes = Layout.nameOnlyList others →
    Coincide (Layout.valuesList nodes) (Layout.valuesList others)
      (statements options depth nodes) (statements options depth others)
  | [], [], _ => by
      rw [statements]
      exact coincide_pure _
  | [], other :: rest, names => by cases names
  | node :: rest, [], names => by cases names
  | node :: rest, other :: otherRest, names => by
      obtain ⟨first, later⟩ := List.cons.inj names
      rw [statements, statements]
      exact coincide_bind (coincide_statement depth first) fun _ =>
        coincide_map _ (coincide_statements depth later)

end

end statements

end Source

namespace Layout

variable {root other : Layout} {options : SourceOptions} {registry after otherAfter : Registry}
variable {code otherCode : Code}

/-- Trees that are equal up to the ids and the values of links, and whose first
links of each name that has no token yet have one value, are rendered from one
registry to the same code and leave the same registry. -/
theorem render_linkNames (names : root.nameOnly = other.nameOnly)
    (agrees : registry.Agrees root.values other.values)
    (gives : (root.render options).Gives registry code after)
    (otherGives : (other.render options).Gives registry otherCode otherAfter) :
    code = otherCode ∧ after = otherAfter := by
  obtain ⟨sameCode, sameAfter, -, -⟩ :=
    (Source.coincide_statement 0 names).same agrees gives otherGives
  exact ⟨sameCode, sameAfter⟩

/-- A border whose token is there already, and a padding that takes the value
of the first link by its name. -/
theorem render_linkNames_repeated :
    let card (hair gap again : TokenLink Float) : Layout :=
      ⟨"card", [.border (.own .black) none (some (.linked hair)),
        .padding ⟨some (.linked gap), some (.linked again), none, none⟩], [], .box false⟩
    let root := card ⟨"V:1", "hair", 4.0⟩ ⟨"V:2", "gap", 8.0⟩ ⟨"V:2", "gap", 10.0⟩
    let other := card ⟨"V:7", "hair", 2.0⟩ ⟨"V:8", "gap", 8.0⟩ ⟨"V:9", "gap", 0.0⟩
    let registry : Registry := ⟨.ofList [Token.named .padding "hair" "1.dp"]⟩
    root.nameOnly = other.nameOnly ∧ registry.Agrees root.values other.values ∧
    ∃ code after otherCode otherAfter, (root.render {}).Gives registry code after ∧
      (other.render {}).Gives registry otherCode otherAfter ∧
      code = otherCode ∧ after = otherAfter := by
  intro card root other registry
  have names : root.nameOnly = other.nameOnly := rfl
  have agrees : registry.Agrees root.values other.values := by
    intro category name absent
    have values : ∀ hair gap again, (card hair gap again).values =
        [of .color (.own Color.black), of .padding (.linked hair), of .padding (.linked gap),
          of .padding (.linked again)] := fun _ _ _ => rfl
    by_cases isHair : .padding = category ∧ "hair" = name
    · obtain ⟨rfl, rfl⟩ := isHair
      exact absurd absent (by decide)
    · by_cases isGap : .padding = category ∧ "gap" = name
      · obtain ⟨rfl, rfl⟩ := isGap
        decide
      · have unlinked : ∀ hair gap again : TokenLink Float, hair.name = "hair" →
            gap.name = "gap" → again.name = "gap" →
            firstLinked? category name (card hair gap again).values = none := by
          intro hair gap again hairName gapName againName
          rw [values, firstLinked?, List.findSome?_eq_none_iff]
          simpa [linkedValue?, of, Property.map, hairName, gapName, againName] using
            And.intro (not_and.mp isHair) (not_and.mp isGap)
        rw [unlinked _ _ _ rfl rfl rfl, unlinked _ _ _ rfl rfl rfl]
  let code : Code :=
    ⟨[.text "// card\nBox(\n    modifier = Modifier\n        .border(width = ",
      .token (Token.named .padding "hair" "1.dp"), .text ", color = ",
      .token (Token.named .color "Color(0xFF000000)" "Color(0xFF000000)"),
      .text ")\n        .padding(start = ", .token (Token.named .padding "gap" "8.dp"),
      .text ", top = ", .token (Token.named .padding "gap" "8.dp"),
      .text "),\n) \x7b\n    // empty\n\x7d\n"]⟩
  let after : Registry := ⟨.ofList [Token.named .color "Color(0xFF000000)" "Color(0xFF000000)",
    Token.named .padding "hair" "1.dp", Token.named .padding "gap" "8.dp"]⟩
  have gives : (root.render {}).Gives registry code after := by decide +kernel
  have otherGives : (other.render {}).Gives registry code after := by decide +kernel
  exact ⟨names, agrees, code, after, code, after, gives, otherGives,
    render_linkNames names agrees gives otherGives⟩

end Layout

end DesignLayout
