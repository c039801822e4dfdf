import DesignLayout.Proofs.LiteralScanning
import DesignLayout.Proofs.TokenAgreement

/-!
# Printed characters of calls

The modifiers and the parameters of a statement are calls and names, whose
literal text has printed characters only.  The one exception is the literal of a
text, which holds what the design holds, but for escapes.
-/

namespace DesignLayout

/-- Whether a character is a blank or comes behind it. -/
def isPrinted (character : Char) : Bool :=
  ' '.toNat ≤ character.toNat

def Printed (text : List Char) : Prop :=
  ∀ character ∈ text, isPrinted character = true

instance (text : List Char) : Decidable (Printed text) :=
  decidable_of_iff (text.all isPrinted = true) List.all_eq_true

namespace Printed

variable {text other : List Char}

theorem append (printed : Printed text) (otherPrinted : Printed other) :
    Printed (text ++ other) :=
  List.forall_mem_append.mpr ⟨printed, otherPrinted⟩

theorem not_mem {control : Char} (printed : Printed text) (below : isPrinted control = false) :
    control ∉ text := by
  intro member
  rw [printed control member] at below
  cases below

end Printed

theorem Numeral.printed {text : List Char} (numeral : Numeral text) : Printed text := by
  intro character member
  rcases Bool.or_eq_true_iff.mp (numeral character member) with digit | mark
  · have above : '0'.toNat ≤ character.toNat := (Char.isDigit_iff_toNat.mp digit).1
    exact decide_eq_true (Nat.le_trans (by decide) above)
  · have marks : Printed ['-', '.', 'N', 'a', 'i', 'n', 'f'] := by decide
    exact marks character (of_decide_eq_true mark)

/-- Every literal text of a code is printed. -/
def Code.Printed (code : Code) : Prop :=
  ∀ content, .text content ∈ code.pieces → DesignLayout.Printed content.toList

def Argument.Printed (argument : Argument) : Prop :=
  (∀ label ∈ argument.label, DesignLayout.Printed label.toList) ∧ argument.value.Printed

def Parameter.Printed (parameter : Parameter) : Prop :=
  DesignLayout.Printed parameter.name.toList ∧ parameter.value.Printed

namespace Code

variable {code other : Code}

theorem printed_iff :
    code.Printed ↔ DesignLayout.Printed (code.displayWith fun _ => "").toList := by
  rw [toList_displayWith]
  constructor
  · intro printed character member
    obtain ⟨piece, pieceMember, inside⟩ := List.mem_flatMap.mp member
    cases piece with
    | text content => exact printed content pieceMember character inside
    | token entry => cases inside
  · intro printed content member character inside
    exact printed character (List.mem_flatMap.mpr ⟨.text content, member, inside⟩)

@[simp] theorem printed_empty : empty.Printed := by
  intro content member
  cases member

@[simp] theorem printed_ofToken (token : Token) : (ofToken token).Printed := by
  intro content member
  cases List.mem_singleton.mp member

@[simp] theorem printed_ofText (content : String) :
    (ofText content).Printed ↔ DesignLayout.Printed content.toList := by
  rw [printed_iff, toList_displayWith_ofText]

@[simp] theorem printed_append :
    (code ++ other).Printed ↔ code.Printed ∧ other.Printed := by
  simp only [printed_iff, toList_displayWith_append, DesignLayout.Printed, List.forall_mem_append]

end Code

namespace Source

open Registering Code

variable {registry after : Registry}

section calls

theorem printed_labelled {argument : Argument} (printed : argument.Printed) :
    (labelled argument).Printed := by
  rcases argument with ⟨label, value⟩
  cases label with
  | none => exact printed.2
  | some label =>
      have equals : Printed " = ".toList := by decide
      rw [labelled, printed_append, printed_ofText, String.toList_append]
      exact ⟨(printed.1 label rfl).append equals, printed.2⟩

theorem printed_argumentList {arguments : List Argument}
    (each : ∀ argument ∈ arguments, argument.Printed) : (argumentList arguments).Printed := by
  fun_induction argumentList arguments with
  | case1 => exact printed_empty
  | case2 argument => exact printed_labelled (each argument List.mem_cons_self)
  | case3 argument rest _ ih =>
      have comma : Printed ", ".toList := by decide
      obtain ⟨first, others⟩ := List.forall_mem_cons.mp each
      rw [printed_append, printed_append, printed_ofText]
      exact ⟨printed_labelled first, comma, ih others⟩

theorem printed_call {name : String} {arguments : List Argument} (named : Printed name.toList)
    (each : ∀ argument ∈ arguments, argument.Printed) : (call name arguments).Printed := by
  have opening : Printed "(".toList := by decide
  have closing : Printed ")".toList := by decide
  rw [call, printed_append, printed_append, printed_ofText, printed_ofText, String.toList_append]
  exact ⟨named.append opening, printed_argumentList each, closing⟩

theorem printed_tokenArguments {arguments : List (Option String × Option Token)}
    (labels : ∀ label ∈ arguments.filterMap Prod.fst, Printed label.toList) :
    ∀ argument ∈ tokenArguments arguments, argument.Printed := by
  intro argument member
  obtain ⟨entry, entryMember, found⟩ := List.mem_filterMap.mp member
  obtain ⟨token, -, rfl⟩ := Option.map_eq_some_iff.mp found
  refine ⟨?_, printed_ofToken token⟩
  intro label same
  exact labels label (List.mem_filterMap.mpr ⟨entry, entryMember, same⟩)

theorem printed_edgesCall? (tokens : Edges (Option Token)) :
    ∀ code ∈ edgesCall? tokens, code.Printed := by
  have pairs : ∀ label ∈ ["horizontal", "vertical"], Printed label.toList := by decide
  have sides : ∀ label ∈ ["start", "top", "end", "bottom"], Printed label.toList := by decide
  intro code shown
  unfold edgesCall? at shown
  split at shown
  · cases shown
  · cases shown
    apply printed_call (by decide)
    unfold paddingArguments
    split
    · exact printed_tokenArguments (List.forall_mem_nil _)
    · split
      · exact printed_tokenArguments pairs
      · exact printed_tokenArguments sides

theorem printed_cornersCall? (tokens : Corners (Option Token)) :
    ∀ code ∈ cornersCall? tokens, code.Printed := by
  have corners : ∀ label ∈ ["topStart", "topEnd", "bottomEnd", "bottomStart"],
      Printed label.toList := by decide
  intro code shown
  unfold cornersCall? at shown
  split at shown
  · cases shown
  · cases shown
    apply printed_call (by decide)
    unfold shapeArguments
    split
    · exact printed_tokenArguments (List.forall_mem_nil _)
    · exact printed_tokenArguments corners

end calls

section modifiers

theorem printed_padding? {padding : Padding} {call : Option Code}
    (gives : (padding? padding).Gives registry call after) : ∀ code ∈ call, code.Printed := by
  rw [padding?_eq] at gives
  obtain ⟨tokens, _, -, gives⟩ := gives_bind.mp gives
  obtain ⟨rfl, -⟩ := gives_pure.mp gives
  exact printed_edgesCall? tokens

theorem printed_shapeArgument {label : Option String} {shape : Option Shape}
    {arguments : List Argument} (labelled : ∀ text ∈ label, Printed text.toList)
    (gives : (shapeArgument label shape).Gives registry arguments after) :
    ∀ argument ∈ arguments, argument.Printed := by
  cases shape with
  | none =>
      obtain ⟨rfl, -⟩ := gives_pure.mp gives
      exact List.forall_mem_nil _
  | some shape =>
      obtain ⟨call, _, givesShape, gives⟩ := gives_bind.mp gives
      obtain ⟨rfl, -⟩ := gives_pure.mp gives
      rw [shape?_eq] at givesShape
      obtain ⟨tokens, _, -, givesShape⟩ := gives_bind.mp givesShape
      obtain ⟨rfl, -⟩ := gives_pure.mp givesShape
      intro argument member
      obtain ⟨code, shown, rfl⟩ := List.mem_map.mp member
      exact ⟨labelled, printed_cornersCall? tokens code (Option.mem_toList.mp shown)⟩

/-- A call with one token for its argument. -/
theorem printed_tokenCall {name : String} (named : Printed name.toList) (token : Option Token) :
    ∀ code ∈ token.map fun token => call name [⟨none, .ofToken token⟩], code.Printed := by
  intro code shown
  obtain ⟨token, -, rfl⟩ := Option.map_eq_some_iff.mp shown
  apply printed_call named
  simp [Argument.Printed]

theorem printed_modifier? {modifier : Modifier} {call : Option Code}
    (gives : (modifier? modifier).Gives registry call after) : ∀ code ∈ call, code.Printed := by
  have token : ∀ token, Argument.Printed ⟨none, .ofToken token⟩ := by
    simp [Argument.Printed]
  cases modifier with
  | weight weight =>
      obtain ⟨text, _, written, gives⟩ := gives_bind.mp gives
      obtain ⟨written, -⟩ := gives_ofExcept.mp written
      obtain ⟨rfl, -⟩ := gives_pure.mp gives
      intro code shown
      cases shown
      have opening : Printed "weight(".toList := by decide
      have closing : Printed "f)".toList := by decide
      rw [printed_ofText, String.toList_append, String.toList_append]
      exact (opening.append (numeral_number written).printed).append closing
  | fillMax axis =>
      cases axis <;>
      · obtain ⟨rfl, -⟩ := gives_pure.mp gives
        intro code shown
        cases shown
        rw [printed_ofText]
        decide
  | baseline =>
      obtain ⟨rfl, -⟩ := gives_pure.mp gives
      intro code shown
      cases shown
      rw [printed_ofText]
      decide
  | background color shape =>
      obtain ⟨color, _, -, gives⟩ := gives_bind.mp gives
      cases color with
      | none =>
          obtain ⟨rfl, -⟩ := gives_pure.mp gives
          intro code shown
          cases shown
      | some color =>
          obtain ⟨shape, _, givesShape, gives⟩ := gives_bind.mp gives
          obtain ⟨rfl, -⟩ := gives_pure.mp gives
          intro code shown
          cases shown
          apply printed_call (by decide)
          exact List.forall_mem_cons.mpr
            ⟨token color, printed_shapeArgument (by simp) givesShape⟩
  | border color shape width =>
      obtain ⟨color, _, -, gives⟩ := gives_bind.mp gives
      cases color with
      | none =>
          obtain ⟨rfl, -⟩ := gives_pure.mp gives
          intro code shown
          cases shown
      | some color =>
          obtain ⟨width, _, -, gives⟩ := gives_bind.mp gives
          obtain ⟨shape, _, givesShape, gives⟩ := gives_bind.mp gives
          obtain ⟨rfl, -⟩ := gives_pure.mp gives
          intro code shown
          cases shown
          have line : (width.elim (ofText "Dp.Hairline") ofToken).Printed := by
            cases width with
            | none =>
                rw [Option.elim_none, printed_ofText]
                decide
            | some width => exact printed_ofToken width
          have labels : ∀ label ∈ ["width", "color", "shape"], Printed label.toList := by decide
          apply printed_call (by decide)
          simp only [List.forall_mem_cons]
          refine ⟨⟨?_, line⟩, ⟨?_, printed_ofToken color⟩, printed_shapeArgument ?_ givesShape⟩
          all_goals
            intro label shown
            cases shown
            exact labels _ (by simp)
  | padding padding => exact printed_padding? gives
  | size axis value =>
      obtain ⟨token, _, -, gives⟩ := gives_bind.mp gives
      obtain ⟨rfl, -⟩ := gives_pure.mp gives
      apply printed_tokenCall
      cases axis <;> decide

theorem printed_modifierCalls {modifiers : List Modifier} {calls : List Code}
    (gives : (modifierCalls modifiers).Gives registry calls after) :
    ∀ code ∈ calls, code.Printed := by
  induction modifiers generalizing registry calls with
  | nil =>
      obtain ⟨rfl, -⟩ := gives_pure.mp gives
      exact List.forall_mem_nil _
  | cons modifier rest ih =>
      obtain ⟨call, _, givesCall, gives⟩ := gives_bind.mp gives
      obtain ⟨others, _, givesOthers, gives⟩ := gives_bind.mp gives
      obtain ⟨rfl, rfl⟩ := gives_pure.mp gives
      intro code member
      rcases List.mem_append.mp member with first | later
      · exact printed_modifier? givesCall code (Option.mem_toList.mp first)
      · exact ih givesOthers code later

end modifiers

section parameters

variable {parameters : List Parameter}

theorem printed_textParameter {name : String} {text : Option String}
    (named : Printed name.toList) (fixed : ∀ content ∈ text, Printed content.toList) :
    ∀ parameter ∈ textParameter name text, parameter.Printed := by
  intro parameter member
  obtain ⟨content, given, rfl⟩ := List.mem_map.mp member
  exact ⟨named, (printed_ofText content).mpr (fixed content (Option.mem_toList.mp given))⟩

theorem printed_tokenParameter {name : String} (named : Printed name.toList)
    (token : Option Token) : ∀ parameter ∈ tokenParameter name token, parameter.Printed := by
  intro parameter member
  obtain ⟨token, -, rfl⟩ := List.mem_map.mp member
  exact ⟨named, printed_ofToken token⟩

theorem printed_arrangementParameter {α : Type} {name : String}
    {placementName : α → String} {arrangement : Option (Arrangement α)}
    (named : Printed name.toList)
    (placed : ∀ placement, Printed (placementName placement).toList)
    (gives : (arrangementParameter name placementName arrangement).Gives
      registry parameters after) :
    ∀ parameter ∈ parameters, parameter.Printed := by
  match arrangement with
  | none =>
      obtain ⟨rfl, -⟩ := gives_pure.mp gives
      exact List.forall_mem_nil _
  | some (.placed placement) =>
      obtain ⟨rfl, -⟩ := gives_pure.mp gives
      exact List.forall_mem_singleton.mpr ⟨named, (printed_ofText _).mpr (placed placement)⟩
  | some (.spaced spacing) =>
      obtain ⟨call, _, givesCall, gives⟩ := gives_bind.mp gives
      obtain ⟨rfl, -⟩ := gives_pure.mp gives
      obtain ⟨token, _, -, givesCall⟩ := gives_bind.mp givesCall
      obtain ⟨rfl, -⟩ := gives_pure.mp givesCall
      intro parameter member
      obtain ⟨code, shown, rfl⟩ := List.mem_map.mp member
      exact ⟨named, printed_tokenCall (by decide) token code (Option.mem_toList.mp shown)⟩

theorem printed_horizontalName (placement : HorizontalPlacement) :
    Printed (horizontalName placement).toList := by
  cases placement <;> decide

theorem printed_verticalName (placement : VerticalPlacement) :
    Printed (verticalName placement).toList := by
  cases placement <;> decide

/-- The parameters of a text, but for its literal. -/
theorem printed_textParameters {content : TextBlock}
    (gives : (textParameters content).Gives registry parameters after) :
    ∀ parameter ∈ parameters, parameter.Printed ∨
      parameter = ⟨"text", .ofText (stringLiteral content.text)⟩ := by
  obtain ⟨style, _, -, gives⟩ := gives_bind.mp gives
  obtain ⟨color, _, -, gives⟩ := gives_bind.mp gives
  obtain ⟨rfl, -⟩ := gives_pure.mp gives
  have aligned : ∀ name ∈ content.align.map textAlignName, Printed name.toList := by
    intro name shown
    obtain ⟨placement, -, rfl⟩ := Option.map_eq_some_iff.mp shown
    cases placement <;> decide
  have cut : ∀ name ∈ (if content.ellipsis then some "TextOverflow.Ellipsis" else none),
      Printed name.toList := by
    intro name shown
    split at shown
    · cases shown
      decide
    · cases shown
  have limited : ∀ text ∈ content.lineLimit.map fun lines => toString lines.toNat,
      Printed text.toList := by
    intro text shown
    obtain ⟨lines, -, rfl⟩ := Option.map_eq_some_iff.mp shown
    have digits : (toString lines.toNat).toList = Nat.toDigits 10 lines.toNat :=
      String.toList_ofList
    exact digits ▸ (numeral_toDigits _).printed
  simp only [List.forall_mem_append]
  refine ⟨⟨⟨⟨⟨?_, ?_⟩, ?_⟩, ?_⟩, ?_⟩, ?_⟩
  · exact fun parameter member => .inl (printed_tokenParameter (by decide) style _ member)
  · exact fun parameter member => .inr (List.mem_singleton.mp member)
  · exact fun parameter member => .inl (printed_tokenParameter (by decide) color _ member)
  · exact fun parameter member => .inl (printed_textParameter (by decide) aligned _ member)
  · exact fun parameter member => .inl (printed_textParameter (by decide) cut _ member)
  · exact fun parameter member => .inl (printed_textParameter (by decide) limited _ member)

theorem literal_mem_textParameters {content : TextBlock}
    (gives : (textParameters content).Gives registry parameters after) :
    ⟨"text", .ofText (stringLiteral content.text)⟩ ∈ parameters := by
  obtain ⟨style, _, -, gives⟩ := gives_bind.mp gives
  obtain ⟨color, _, -, gives⟩ := gives_bind.mp gives
  obtain ⟨rfl, -⟩ := gives_pure.mp gives
  simp [textParameter]

/-- The parameters that a container has of its own. -/
theorem printed_containerParameters {kind : LayoutKind} (container : kind.holdsText = false)
    (gives : (kindParameters kind).Gives registry parameters after) :
    ∀ parameter ∈ parameters, parameter.Printed := by
  cases kind with
  | row arrangement alignment =>
      obtain ⟨arranged, _, givesArranged, gives⟩ := gives_bind.mp gives
      obtain ⟨rfl, -⟩ := gives_pure.mp gives
      refine List.forall_mem_append.mpr ⟨?_, ?_⟩
      · exact printed_arrangementParameter (by decide) printed_horizontalName givesArranged
      · apply printed_textParameter (by decide)
        intro name shown
        obtain ⟨alignment, -, shown⟩ := Option.bind_eq_some_iff.mp shown
        cases alignment <;> cases shown <;> decide
  | flowRow horizontal vertical =>
      obtain ⟨across, _, givesAcross, gives⟩ := gives_bind.mp gives
      obtain ⟨down, _, givesDown, gives⟩ := gives_bind.mp gives
      obtain ⟨rfl, -⟩ := gives_pure.mp gives
      refine List.forall_mem_append.mpr ⟨?_, ?_⟩
      · exact printed_arrangementParameter (by decide) printed_horizontalName givesAcross
      · exact printed_arrangementParameter (by decide) printed_verticalName givesDown
  | column arrangement alignment =>
      obtain ⟨arranged, _, givesArranged, gives⟩ := gives_bind.mp gives
      obtain ⟨rfl, -⟩ := gives_pure.mp gives
      refine List.forall_mem_append.mpr ⟨?_, ?_⟩
      · exact printed_arrangementParameter (by decide) printed_verticalName givesArranged
      · apply printed_textParameter (by decide)
        intro name shown
        obtain ⟨alignment, -, shown⟩ := Option.bind_eq_some_iff.mp shown
        cases alignment <;> cases shown <;> decide
  | box centered =>
      obtain ⟨rfl, -⟩ := gives_pure.mp gives
      apply printed_textParameter (by decide)
      intro name shown
      split at shown
      · cases shown
        decide
      · cases shown
  | text content => cases container

/-- The parameters of a node, but for the literal of a text. -/
theorem printed_kindParameters {kind : LayoutKind}
    (gives : (kindParameters kind).Gives registry parameters after) :
    ∀ parameter ∈ parameters, parameter.Printed ∨ ∃ content, kind = .text content ∧
      parameter = ⟨"text", .ofText (stringLiteral content.text)⟩ := by
  intro parameter member
  cases holds : kind.holdsText with
  | true =>
      cases kind with
      | text content =>
          rcases printed_textParameters gives parameter member with printed | literal
          · exact .inl printed
          · exact .inr ⟨content, rfl, literal⟩
      | row _ _ | flowRow _ _ | column _ _ | box _ => cases holds
  | false => exact .inl (printed_containerParameters holds gives parameter member)

theorem printed_functionName (kind : LayoutKind) : Printed (functionName kind).toList := by
  cases kind <;> rw [functionName] <;> decide

theorem printed_margin (options : SourceOptions) (depth : Nat) :
    Printed (options.margin depth).toList := by
  rw [SourceOptions.margin, String.toList_ofList]
  intro character member
  rw [List.eq_of_mem_replicate member]
  decide

end parameters

end Source

end DesignLayout
