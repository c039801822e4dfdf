import DesignLayout.Proofs.LiteralScanning
import DesignLayout.Proofs.TokenAgreement

/-!
# Source text is balanced

No name and no text of a design can break the source text of a layout tree.
Every value closes the brackets that it opens, every name stands in a comment
that ends with its line, and every text stands in a string literal, so the
braces of the source text are those of the containers.
-/

namespace DesignLayout

namespace Code

/-- What a code shows is passed by the scanner, if its tokens have values
that close the brackets they open. -/
def Scans (code : Code) (closed opened word : List Char) : Prop :=
  (∀ token ∈ code.tokens, Passes token.value.toList [] [] []) →
    Passes code.plainText.toList closed opened word

variable {code other : Code} {closed between opened first second word : List Char}

theorem scans_empty : empty.Scans [] [] [] := fun _ => .nil

theorem scans_ofText {content : String} (passes : Passes content.toList closed opened word) :
    (ofText content).Scans closed opened word := by
  intro _
  rw [plainText, toList_displayWith_ofText]
  exact passes

theorem scans_ofText_append {left right : String}
    (passesLeft : Passes left.toList closed between first)
    (passesRight : Passes right.toList between opened second) :
    (ofText (left ++ right)).Scans closed opened (first ++ second) := by
  apply scans_ofText
  rw [String.toList_append]
  exact passesLeft.append passesRight

theorem scans_ofToken (token : Token) : (ofToken token).Scans [] [] [] := by
  intro values
  rw [plainText, toList_displayWith_ofToken]
  exact values token (by simp)

theorem Scans.append (scans : code.Scans closed between first)
    (otherScans : other.Scans between opened second) :
    (code ++ other).Scans closed opened (first ++ second) := by
  intro values
  rw [plainText, toList_displayWith_append]
  rw [tokens_append] at values
  have left := scans fun token member => values token (List.mem_append_left _ member)
  have right := otherScans fun token member => values token (List.mem_append_right _ member)
  exact left.append right

theorem Scans.anywhere (scans : code.Scans [] [] word) : code.Scans closed closed word :=
  fun values => (scans values).anywhere

theorem scans_join {codes : List Code} (scans : ∀ code ∈ codes, code.Scans [] [] []) :
    (join codes).Scans [] [] [] := by
  induction codes with
  | nil => exact scans_empty
  | cons code rest ih =>
      exact (scans code List.mem_cons_self).append
        (ih fun other member => scans other (List.mem_cons_of_mem _ member))

end Code

/-- The label is plain, and the value closes the brackets that it opens. -/
def Argument.Scans (argument : Argument) : Prop :=
  (∀ label ∈ argument.label, Plain label.toList) ∧ argument.value.Scans [] [] []

def Parameter.Scans (parameter : Parameter) : Prop :=
  Plain parameter.name.toList ∧ parameter.value.Scans [] [] []

namespace Layout

mutual

/-- The braces of a tree: a container holds those of its children between
two of its own, and a text has none. -/
def braceWord : Layout → List Char
  | ⟨_, _, children, kind⟩ =>
    if kind.holdsText then [] else '\x7b' :: (braceWordList children ++ ['\x7d'])

def braceWordList : List Layout → List Char
  | [] => []
  | node :: rest => node.braceWord ++ braceWordList rest

end

end Layout

namespace Source

open Registering Code

variable {registry after : Registry}

section calls

theorem scans_labelled {argument : Argument} (scans : argument.Scans) :
    (labelled argument).Scans [] [] [] := by
  rcases argument with ⟨label, value⟩
  cases label with
  | none => exact scans.2
  | some label =>
      have before : Plain (label ++ " = ").toList :=
        (scans.1 label rfl).text_append (by decide)
      exact (scans_ofText before.passes).append scans.2

theorem scans_argumentList {arguments : List Argument}
    (scans : ∀ argument ∈ arguments, argument.Scans) :
    (argumentList arguments).Scans [] [] [] := by
  fun_induction argumentList arguments with
  | case1 => exact scans_empty
  | case2 argument => exact scans_labelled (scans argument List.mem_cons_self)
  | case3 argument rest _ ih =>
      have first := scans_labelled (scans argument List.mem_cons_self)
      have comma : (ofText ", ").Scans [] [] [] := scans_ofText (by decide)
      have others := ih fun other member => scans other (List.mem_cons_of_mem _ member)
      exact first.append (comma.append others)

theorem scans_call {name : String} {arguments : List Argument} (plain : Plain name.toList)
    (scans : ∀ argument ∈ arguments, argument.Scans) :
    (call name arguments).Scans [] [] [] := by
  have opening : (ofText (name ++ "(")).Scans [] ['('] [] :=
    scans_ofText_append plain.passes (by decide)
  have closing : (ofText ")").Scans ['('] [] [] := scans_ofText (by decide)
  exact opening.append ((scans_argumentList scans).anywhere.append closing)

theorem scans_tokenArguments {arguments : List (Option String × Option Token)}
    (plain : ∀ label ∈ arguments.filterMap Prod.fst, Plain label.toList) :
    ∀ argument ∈ tokenArguments arguments, argument.Scans := by
  intro argument member
  obtain ⟨entry, entryMember, found⟩ := List.mem_filterMap.mp member
  obtain ⟨token, -, rfl⟩ := Option.map_eq_some_iff.mp found
  refine ⟨fun label same => ?_, scans_ofToken token⟩
  exact plain label (List.mem_filterMap.mpr ⟨entry, entryMember, same⟩)

theorem scans_paddingArguments (tokens : Edges (Option Token)) :
    ∀ argument ∈ paddingArguments tokens, argument.Scans := by
  have pairs : ∀ label ∈ ["horizontal", "vertical"], Plain label.toList := by decide
  have sides : ∀ label ∈ ["start", "top", "end", "bottom"], Plain label.toList := by decide
  unfold paddingArguments
  split
  · exact scans_tokenArguments (List.forall_mem_nil _)
  · split
    · exact scans_tokenArguments pairs
    · exact scans_tokenArguments sides

theorem scans_shapeArguments (tokens : Corners (Option Token)) :
    ∀ argument ∈ shapeArguments tokens, argument.Scans := by
  have corners : ∀ label ∈ ["topStart", "topEnd", "bottomEnd", "bottomStart"],
      Plain label.toList := by decide
  unfold shapeArguments
  split
  · exact scans_tokenArguments (List.forall_mem_nil _)
  · exact scans_tokenArguments corners

theorem scans_edgesCall? (tokens : Edges (Option Token)) :
    ∀ code ∈ edgesCall? tokens, code.Scans [] [] [] := by
  intro code shown
  unfold edgesCall? at shown
  split at shown
  · cases shown
  · cases shown
    exact scans_call (by decide) (scans_paddingArguments tokens)

theorem scans_cornersCall? (tokens : Corners (Option Token)) :
    ∀ code ∈ cornersCall? tokens, code.Scans [] [] [] := by
  intro code shown
  unfold cornersCall? at shown
  split at shown
  · cases shown
  · cases shown
    exact scans_call (by decide) (scans_shapeArguments tokens)

end calls

section modifiers

theorem scans_padding? {padding : Padding} {call : Option Code}
    (gives : (padding? padding).Gives registry call after) :
    ∀ code ∈ call, code.Scans [] [] [] := by
  obtain ⟨left, _, -, gives⟩ := gives_bind.mp gives
  obtain ⟨top, _, -, gives⟩ := gives_bind.mp gives
  obtain ⟨right, _, -, gives⟩ := gives_bind.mp gives
  obtain ⟨bottom, _, -, gives⟩ := gives_bind.mp gives
  obtain ⟨rfl, -⟩ := gives_pure.mp gives
  exact scans_edgesCall? _

theorem scans_shape? {shape : Shape} {call : Option Code}
    (gives : (shape? shape).Gives registry call after) :
    ∀ code ∈ call, code.Scans [] [] [] := by
  obtain ⟨topLeft, _, -, gives⟩ := gives_bind.mp gives
  obtain ⟨topRight, _, -, gives⟩ := gives_bind.mp gives
  obtain ⟨bottomRight, _, -, gives⟩ := gives_bind.mp gives
  obtain ⟨bottomLeft, _, -, gives⟩ := gives_bind.mp gives
  obtain ⟨rfl, -⟩ := gives_pure.mp gives
  exact scans_cornersCall? _

theorem scans_shapeArgument {label : Option String} {shape : Option Shape}
    {arguments : List Argument} (plain : ∀ text ∈ label, Plain text.toList)
    (gives : (shapeArgument label shape).Gives registry arguments after) :
    ∀ argument ∈ arguments, argument.Scans := by
  cases shape with
  | none =>
      obtain ⟨rfl, -⟩ := gives_pure.mp gives
      exact List.forall_mem_nil _
  | some shape =>
      obtain ⟨call, _, givesShape, gives⟩ := gives_bind.mp gives
      obtain ⟨rfl, -⟩ := gives_pure.mp gives
      intro argument member
      obtain ⟨code, shown, rfl⟩ := List.mem_map.mp member
      exact ⟨plain, scans_shape? givesShape code (Option.mem_toList.mp shown)⟩

theorem scans_spacing? {spacing : Dimension} {call : Option Code}
    (gives : (spacing? spacing).Gives registry call after) :
    ∀ code ∈ call, code.Scans [] [] [] := by
  obtain ⟨token, _, -, gives⟩ := gives_bind.mp gives
  obtain ⟨rfl, -⟩ := gives_pure.mp gives
  intro code shown
  obtain ⟨token, -, rfl⟩ := Option.map_eq_some_iff.mp shown
  exact scans_call (by decide) (List.forall_mem_singleton.mpr ⟨by simp, scans_ofToken token⟩)

theorem scans_modifier? {modifier : Modifier} {call : Option Code}
    (gives : (modifier? modifier).Gives registry call after) :
    ∀ code ∈ call, code.Scans [] [] [] := by
  have token : ∀ token, Argument.Scans ⟨none, .ofToken token⟩ :=
    fun token => ⟨by simp, scans_ofToken token⟩
  cases modifier with
  | weight weight =>
      obtain ⟨text, _, written, gives⟩ := gives_bind.mp gives
      obtain ⟨written, -⟩ := gives_ofExcept.mp written
      obtain ⟨rfl, -⟩ := gives_pure.mp gives
      intro code shown
      cases shown
      have opening : Passes "weight(".toList [] ['('] [] := by decide
      have closing : Passes "f)".toList ['('] [] [] := by decide
      apply scans_ofText
      rw [String.toList_append, String.toList_append]
      exact .enclosed opening (plain_number written).passes closing
  | fillMax axis =>
      cases axis <;>
      · obtain ⟨rfl, -⟩ := gives_pure.mp gives
        intro code shown
        cases shown
        exact scans_ofText (by decide)
  | baseline =>
      obtain ⟨rfl, -⟩ := gives_pure.mp gives
      intro code shown
      cases shown
      exact scans_ofText (by decide)
  | background color shape =>
      obtain ⟨color, _, -, gives⟩ := gives_bind.mp gives
      cases color with
      | none =>
          obtain ⟨rfl, -⟩ := gives_pure.mp gives
          intro code shown
          cases shown
      | some color =>
          obtain ⟨shape, _, givesShape, gives⟩ := gives_bind.mp gives
          obtain ⟨rfl, -⟩ := gives_pure.mp gives
          intro code shown
          cases shown
          refine scans_call (by decide) (List.forall_mem_cons.mpr ⟨token color, ?_⟩)
          exact scans_shapeArgument (by simp) givesShape
  | border color shape width =>
      obtain ⟨color, _, -, gives⟩ := gives_bind.mp gives
      cases color with
      | none =>
          obtain ⟨rfl, -⟩ := gives_pure.mp gives
          intro code shown
          cases shown
      | some color =>
          obtain ⟨width, _, -, gives⟩ := gives_bind.mp gives
          obtain ⟨shape, _, givesShape, gives⟩ := gives_bind.mp gives
          obtain ⟨rfl, -⟩ := gives_pure.mp gives
          intro code shown
          cases shown
          have line : (width.elim (ofText "Dp.Hairline") ofToken).Scans [] [] [] := by
            cases width with
            | none => exact scans_ofText (by decide)
            | some width => exact scans_ofToken width
          refine scans_call (by decide) (List.forall_mem_cons.mpr ⟨⟨?_, line⟩,
            List.forall_mem_cons.mpr ⟨⟨?_, scans_ofToken color⟩, ?_⟩⟩)
          · intro label shown
            cases shown
            decide
          · intro label shown
            cases shown
            decide
          · refine scans_shapeArgument ?_ givesShape
            intro label shown
            cases shown
            decide
  | padding padding => exact scans_padding? gives
  | size axis value =>
      obtain ⟨token, _, -, gives⟩ := gives_bind.mp gives
      obtain ⟨rfl, -⟩ := gives_pure.mp gives
      intro code shown
      obtain ⟨token, -, rfl⟩ := Option.map_eq_some_iff.mp shown
      refine scans_call ?_ (List.forall_mem_singleton.mpr ⟨by simp, scans_ofToken token⟩)
      cases axis <;> decide

end modifiers

section parameters

variable {options : SourceOptions} {depth : Nat} {parameters : List Parameter}

theorem plain_margin (options : SourceOptions) (depth : Nat) :
    Plain (options.margin depth).toList := by
  rw [SourceOptions.margin, String.toList_ofList]
  exact plain_replicate (by decide) _

theorem scans_modifierCalls {modifiers : List Modifier} {calls : List Code}
    (gives : (modifierCalls modifiers).Gives registry calls after) :
    ∀ code ∈ calls, code.Scans [] [] [] := by
  induction modifiers generalizing registry calls with
  | nil =>
      obtain ⟨rfl, -⟩ := gives_pure.mp gives
      exact List.forall_mem_nil _
  | cons modifier rest ih =>
      obtain ⟨call, _, givesCall, gives⟩ := gives_bind.mp gives
      obtain ⟨others, _, givesOthers, gives⟩ := gives_bind.mp gives
      obtain ⟨rfl, rfl⟩ := gives_pure.mp gives
      intro code member
      rcases List.mem_append.mp member with first | later
      · exact scans_modifier? givesCall code (Option.mem_toList.mp first)
      · exact ih givesOthers code later

theorem scans_chained {calls : List Code} (scans : ∀ code ∈ calls, code.Scans [] [] []) :
    (chained options depth calls).Scans [] [] [] := by
  have opening : (ofText "Modifier").Scans [] [] [] := scans_ofText (by decide)
  refine opening.append (scans_join fun code member => ?_)
  obtain ⟨call, callMember, rfl⟩ := List.mem_map.mp member
  have indented : Plain ("\n" ++ options.margin depth).toList :=
    Plain.text_append (by decide) (plain_margin options depth)
  have line : Plain ("\n" ++ options.margin depth ++ ".").toList :=
    indented.text_append (by decide)
  exact (scans_ofText line.passes).append (scans call callMember)

theorem scans_modifierParameter {modifiers : List Modifier}
    (gives : (modifierParameter options depth modifiers).Gives registry parameters after) :
    ∀ parameter ∈ parameters, parameter.Scans := by
  obtain ⟨calls, _, givesCalls, gives⟩ := gives_bind.mp gives
  obtain ⟨rfl, -⟩ := gives_pure.mp gives
  split
  · exact List.forall_mem_nil _
  · refine List.forall_mem_singleton.mpr ⟨?_, scans_chained (scans_modifierCalls givesCalls)⟩
    show Plain "modifier".toList
    decide

theorem scans_textParameter {name : String} {text : Option String} (plain : Plain name.toList)
    (passes : ∀ content ∈ text, Passes content.toList [] [] []) :
    ∀ parameter ∈ textParameter name text, parameter.Scans := by
  intro parameter member
  obtain ⟨content, shown, rfl⟩ := List.mem_map.mp member
  exact ⟨plain, scans_ofText (passes content (Option.mem_toList.mp shown))⟩

theorem scans_tokenParameter {name : String} {token : Option Token} (plain : Plain name.toList) :
    ∀ parameter ∈ tokenParameter name token, parameter.Scans := by
  intro parameter member
  obtain ⟨token, -, rfl⟩ := List.mem_map.mp member
  exact ⟨plain, scans_ofToken token⟩

theorem scans_arrangementParameter {α : Type} {name : String} {placementName : α → String}
    {arrangement : Option (Arrangement α)} (plain : Plain name.toList)
    (plainPlacement : ∀ placement, Plain (placementName placement).toList)
    (gives : (arrangementParameter name placementName arrangement).Gives
      registry parameters after) :
    ∀ parameter ∈ parameters, parameter.Scans := by
  match arrangement with
  | none =>
      obtain ⟨rfl, -⟩ := gives_pure.mp gives
      exact List.forall_mem_nil _
  | some (.placed placement) =>
      obtain ⟨rfl, -⟩ := gives_pure.mp gives
      exact List.forall_mem_singleton.mpr
        ⟨plain, scans_ofText (plainPlacement placement).passes⟩
  | some (.spaced spacing) =>
      obtain ⟨call, _, givesCall, gives⟩ := gives_bind.mp gives
      obtain ⟨rfl, -⟩ := gives_pure.mp gives
      intro parameter member
      obtain ⟨code, shown, rfl⟩ := List.mem_map.mp member
      exact ⟨plain, scans_spacing? givesCall code (Option.mem_toList.mp shown)⟩

theorem plain_horizontalName (placement : HorizontalPlacement) :
    Plain (horizontalName placement).toList := by
  cases placement <;> decide

theorem plain_verticalName (placement : VerticalPlacement) :
    Plain (verticalName placement).toList := by
  cases placement <;> decide

theorem plain_textAlignName (placement : TextPlacement) :
    Plain (textAlignName placement).toList := by
  cases placement <;> decide

theorem plain_rowAlignmentName? (alignment : RowAlignment) :
    ∀ name ∈ rowAlignmentName? alignment, Plain name.toList := by
  intro name shown
  cases alignment <;> cases shown <;> decide

theorem plain_columnAlignmentName? (alignment : ColumnAlignment) :
    ∀ name ∈ columnAlignmentName? alignment, Plain name.toList := by
  intro name shown
  cases alignment <;> cases shown <;> decide

theorem scans_textParameters {content : TextBlock}
    (gives : (textParameters content).Gives registry parameters after) :
    ∀ parameter ∈ parameters, parameter.Scans := by
  obtain ⟨style, _, -, gives⟩ := gives_bind.mp gives
  obtain ⟨color, _, -, gives⟩ := gives_bind.mp gives
  obtain ⟨rfl, -⟩ := gives_pure.mp gives
  simp only [List.forall_mem_append]
  refine ⟨⟨⟨⟨⟨?_, ?_⟩, ?_⟩, ?_⟩, ?_⟩, ?_⟩
  · exact scans_tokenParameter (by decide)
  · apply scans_textParameter (by decide)
    intro literal shown
    cases shown
    exact passes_stringLiteral content.text
  · exact scans_tokenParameter (by decide)
  · apply scans_textParameter (by decide)
    intro name shown
    obtain ⟨placement, -, rfl⟩ := Option.map_eq_some_iff.mp shown
    exact (plain_textAlignName placement).passes
  · apply scans_textParameter (by decide)
    intro name shown
    split at shown
    · cases shown
      decide
    · cases shown
  · apply scans_textParameter (by decide)
    intro name shown
    obtain ⟨lines, -, rfl⟩ := Option.map_eq_some_iff.mp shown
    have digits : (toString lines.toNat).toList = Nat.toDigits 10 lines.toNat :=
      String.toList_ofList
    rw [digits]
    exact (plain_toDigits _).passes

theorem scans_kindParameters {kind : LayoutKind}
    (gives : (kindParameters kind).Gives registry parameters after) :
    ∀ parameter ∈ parameters, parameter.Scans := by
  cases kind with
  | row arrangement alignment =>
      obtain ⟨arranged, _, givesArranged, gives⟩ := gives_bind.mp gives
      obtain ⟨rfl, -⟩ := gives_pure.mp gives
      refine List.forall_mem_append.mpr ?_
      constructor
      · exact scans_arrangementParameter (by decide) plain_horizontalName givesArranged
      · apply scans_textParameter (by decide)
        intro name shown
        obtain ⟨alignment, -, shown⟩ := Option.bind_eq_some_iff.mp shown
        exact (plain_rowAlignmentName? alignment name shown).passes
  | flowRow horizontal vertical =>
      obtain ⟨across, _, givesAcross, gives⟩ := gives_bind.mp gives
      obtain ⟨down, _, givesDown, gives⟩ := gives_bind.mp gives
      obtain ⟨rfl, -⟩ := gives_pure.mp gives
      refine List.forall_mem_append.mpr ?_
      constructor
      · exact scans_arrangementParameter (by decide) plain_horizontalName givesAcross
      · exact scans_arrangementParameter (by decide) plain_verticalName givesDown
  | column arrangement alignment =>
      obtain ⟨arranged, _, givesArranged, gives⟩ := gives_bind.mp gives
      obtain ⟨rfl, -⟩ := gives_pure.mp gives
      refine List.forall_mem_append.mpr ?_
      constructor
      · exact scans_arrangementParameter (by decide) plain_verticalName givesArranged
      · apply scans_textParameter (by decide)
        intro name shown
        obtain ⟨alignment, -, shown⟩ := Option.bind_eq_some_iff.mp shown
        exact (plain_columnAlignmentName? alignment name shown).passes
  | box centered =>
      obtain ⟨rfl, -⟩ := gives_pure.mp gives
      apply scans_textParameter (by decide)
      intro name shown
      split at shown
      · cases shown
        decide
      · cases shown
  | text content => exact scans_textParameters gives

end parameters

section statements

variable {options : SourceOptions} {depth : Nat}

/-- Line breaks in a name do not end the comment that shows it. -/
theorem newline_not_mem_nameComment (options : SourceOptions) (name : String) :
    '\n' ∉ (options.nameComment name).toList := by
  have flat : '\n' ∉ name.toList.map fun character =>
      if character = '\n' ∨ character = '\r' then ' ' else character := by
    intro member
    obtain ⟨character, -, same⟩ := List.mem_map.mp member
    split at same
    case isTrue => cases same
    case isFalse ordinary => exact ordinary (Or.inl same)
  simp only [SourceOptions.nameComment]
  split
  · rw [String.toList_ofList]
    intro member
    rcases List.mem_append.mp member with kept | dots
    · exact flat (List.mem_of_mem_take kept)
    · exact absurd dots (by decide)
  · rw [String.toList_ofList]
    exact flat

theorem scans_commentLine (options : SourceOptions) (depth : Nat) {comment : String}
    (oneLine : '\n' ∉ comment.toList) :
    (ofText (options.margin depth ++ "// " ++ comment ++ "\n")).Scans [] [] [] := by
  have spaced : '\n' ∉ ' ' :: comment.toList := by simpa using oneLine
  have written : (options.margin depth ++ "// " ++ comment ++ "\n").toList =
      (options.margin depth).toList ++ '/' :: '/' :: (' ' :: comment.toList ++ ['\n']) := by
    simp
  apply scans_ofText
  rw [written]
  exact (plain_margin options depth).passes.append (passes_comment spaced)

theorem scans_parameterLine {parameter : Parameter} (scans : parameter.Scans) :
    (parameterLine options depth parameter).Scans [] [] [] := by
  have before : Plain (options.margin (depth + 1) ++ parameter.name ++ " = ").toList :=
    ((plain_margin options _).text_append scans.1).text_append (by decide)
  have line : (ofText ",\n").Scans [] [] [] := scans_ofText (by decide)
  exact (scans_ofText before.passes).append (scans.2.append line)

theorem plain_functionName (kind : LayoutKind) : Plain (functionName kind).toList := by
  cases kind <;> rw [functionName] <;> decide

/-- A text is one call, and a container leaves the brace of its body open. -/
theorem scans_header (options : SourceOptions) (depth : Nat) (name : String)
    (kind : LayoutKind) {parameters : List Parameter}
    (scans : ∀ parameter ∈ parameters, parameter.Scans) :
    (header options depth name kind parameters).Scans []
      (if kind.holdsText then [] else ['\x7b']) (if kind.holdsText then [] else ['\x7b']) := by
  have margin := plain_margin options depth
  have comment := scans_commentLine options depth (newline_not_mem_nameComment options name)
  have lines : (join (parameters.map (parameterLine options depth))).Scans [] [] [] := by
    apply scans_join
    intro code member
    obtain ⟨parameter, parameterMember, rfl⟩ := List.mem_map.mp member
    exact scans_parameterLine (scans parameter parameterMember)
  have callee : Passes (options.margin depth ++ functionName kind).toList [] [] [] :=
    (margin.text_append (plain_functionName kind)).passes
  have opening : (ofText (options.margin depth ++ functionName kind ++ "(\n")).Scans
      [] ['('] [] := scans_ofText_append callee (by decide)
  unfold header
  split
  case isTrue bare =>
    have container : kind.holdsText = false := by simp_all
    have body : (ofText (options.margin depth ++ functionName kind ++ " \x7b\n")).Scans
        [] ['\x7b'] ['\x7b'] := scans_ofText_append callee (by decide)
    simpa [container] using comment.append body
  case isFalse =>
    cases text : kind.holdsText with
    | true =>
        have closing : (ofText (options.margin depth ++ ")\n")).Scans ['('] [] [] :=
          scans_ofText_append margin.passes.anywhere (by decide)
        simpa [text] using comment.append (opening.append (lines.anywhere.append closing))
    | false =>
        have closing : (ofText (options.margin depth ++ ") \x7b\n")).Scans
            ['('] ['\x7b'] ['\x7b'] :=
          scans_ofText_append margin.passes.anywhere (by decide)
        simpa [text] using comment.append (opening.append (lines.anywhere.append closing))

theorem scans_emptyBody : (emptyBody options depth).Scans [] [] [] :=
  scans_ofText_append (plain_margin options depth).passes (by decide)

theorem scans_footer : (footer options depth).Scans ['\x7b'] [] ['\x7d'] :=
  scans_ofText_append (plain_margin options depth).passes.anywhere (by decide)

mutual

theorem scans_statement {registry after : Registry} {depth : Nat} {code : Code} :
    ∀ {node : Layout}, (statement options depth node).Gives registry code after →
      code.Scans [] [] node.braceWord
  | ⟨name, modifiers, children, kind⟩, gives => by
      rw [statement] at gives
      obtain ⟨modifier, _, givesModifier, gives⟩ := gives_bind.mp gives
      obtain ⟨parameters, _, givesParameters, gives⟩ := gives_bind.mp gives
      have parts : ∀ parameter ∈ modifier ++ parameters, parameter.Scans :=
        List.forall_mem_append.mpr
          ⟨scans_modifierParameter givesModifier, scans_kindParameters givesParameters⟩
      have opening := scans_header options depth name kind parts
      split at gives
      case isTrue text =>
        obtain ⟨rfl, -⟩ := gives_pure.mp gives
        simpa [Layout.braceWord, text] using opening
      case isFalse container =>
        obtain ⟨body, _, givesBody, gives⟩ := gives_bind.mp gives
        obtain ⟨rfl, -⟩ := gives_pure.mp gives
        have inside : (if children.isEmpty then emptyBody options (depth + 1) else body).Scans
            [] [] (Layout.braceWordList children) := by
          split
          case isTrue childless =>
            rw [List.isEmpty_iff.mp childless]
            exact scans_emptyBody
          case isFalse => exact scans_statements givesBody
        simp only [container] at opening
        simpa [Layout.braceWord, container] using
          opening.append (inside.anywhere.append scans_footer)

/-- List counterpart of scans_statement. -/
theorem scans_statements {registry after : Registry} {depth : Nat} {code : Code} :
    ∀ {nodes : List Layout}, (statements options depth nodes).Gives registry code after →
      code.Scans [] [] (Layout.braceWordList nodes)
  | [], gives => by
      rw [statements] at gives
      obtain ⟨rfl, -⟩ := gives_pure.mp gives
      exact scans_empty
  | node :: rest, gives => by
      rw [statements] at gives
      obtain ⟨first, _, givesFirst, gives⟩ := gives_bind.mp gives
      obtain ⟨others, _, givesOthers, gives⟩ := gives_bind.mp gives
      obtain ⟨rfl, -⟩ := gives_pure.mp gives
      exact (scans_statement givesFirst).append (scans_statements givesOthers)

end

end statements

end Source

namespace Layout

/-- The source text of a tree ends outside comments and string literals, each
bracket in it closes the one that was opened last, and its braces are those
of the containers, whatever the names and the texts of the tree are. -/
theorem render_balanced {root : Layout} {options : SourceOptions} {code : Code}
    {after : Registry} (gives : (root.render options).Gives .empty code after) :
    Scan.text? code.plainText = some ⟨.code, [], root.braceWord⟩ := by
  have values : ∀ token ∈ code.tokens, Passes token.value.toList [] [] [] := by
    intro token member
    have stored := stored_render TokenTable.filed_empty gives
    have absent : Registry.empty.get? token.category token.id = none :=
      TokenTable.get?_empty token.category token.id
    obtain ⟨value, written⟩ := stored.written_of_mem member absent
    exact Primitive.passes_source written
  exact Source.scans_statement gives values

/-- Names and a text with marks of comments, quotes and brackets. -/
theorem render_balanced_marks : ∃ code after,
    (render ⟨"a // \"\n\x7d (", [], [⟨"\x7b", [], [], .box false⟩,
      ⟨"*/", [], [], .text (.plain "\"\x7d\\\n" (.own default))⟩], .row none none⟩ {}).Gives
      .empty code after ∧
    Scan.text? code.plainText = some ⟨.code, [], ['\x7b', '\x7b', '\x7d', '\x7d']⟩ := by
  have gives : (render ⟨"a // \"\n\x7d (", [], [⟨"\x7b", [], [], .box false⟩,
      ⟨"*/", [], [], .text (.plain "\"\x7d\\\n" (.own default))⟩], .row none none⟩ {}).Gives
      .empty
      ⟨[.text ("// a // \" \x7d (\nRow \x7b\n    // \x7b\n    Box \x7b\n" ++
          "        // empty\n    \x7d\n    // */\n    Text(\n        style = "),
        .token (Token.named .text "TextStyle(fontWeight = FontWeight(0), fontSize = 0.sp)"
          "TextStyle(fontWeight = FontWeight(0), fontSize = 0.sp)"),
        .text ",\n        text = \"\\\"\x7d\\\\\\n\",\n    )\n\x7d\n"]⟩
      ⟨.ofList [Token.named .text "TextStyle(fontWeight = FontWeight(0), fontSize = 0.sp)"
        "TextStyle(fontWeight = FontWeight(0), fontSize = 0.sp)"]⟩ := by
    decide +kernel
  exact ⟨_, _, gives, render_balanced gives⟩

end Layout

end DesignLayout
