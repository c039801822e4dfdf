import DesignLayout.Proofs.Indentation
import DesignLayout.Proofs.PrintedCalls
import DesignLayout.Proofs.SourceBalance

/-!
# Nesting is indentation

The statement of a child is the one that the child has by itself as a root, with
blanks before each line.  The depth is used in several places, and a modifier
goes on over several lines, so this takes that nothing which is put into a line
has a line feed of its own.
-/

namespace DesignLayout

namespace Registering

variable {ε α β γ δ : Type}

/-- Where a run succeeds, so does another from the same registry.  Both leave the
same registry, and the results are related. -/
def Tracks (related : α → β → Prop) (action : Registering ε α) (other : Registering ε β) :
    Prop :=
  ∀ ⦃registry result after⦄, action.Gives registry result after →
    ∃ otherResult, other.Gives registry otherResult after ∧ related result otherResult

variable {related : α → β → Prop} {later : γ → δ → Prop}

theorem tracks_pure {value : α} {other : β} (holds : related value other) :
    Tracks related (pure value : Registering ε α) (pure other) := by
  intro registry result after gives
  obtain ⟨rfl, rfl⟩ := gives_pure.mp gives
  exact ⟨other, gives_pure.mpr ⟨rfl, rfl⟩, holds⟩

theorem tracks_bind {action : Registering ε α} {other : Registering ε β}
    {next : α → Registering ε γ} {otherNext : β → Registering ε δ}
    (first : Tracks related action other)
    (second : ∀ value otherValue, related value otherValue →
      Tracks later (next value) (otherNext otherValue)) :
    Tracks later (action >>= next) (other >>= otherNext) := by
  intro registry result after gives
  obtain ⟨value, between, givesFirst, gives⟩ := gives_bind.mp gives
  obtain ⟨otherValue, otherFirst, same⟩ := first givesFirst
  obtain ⟨otherResult, otherGives, holds⟩ := second value otherValue same gives
  exact ⟨otherResult, gives_bind.mpr ⟨otherValue, between, otherFirst, otherGives⟩, holds⟩

/-- A run tracks itself, and what holds of all its results holds. -/
theorem tracks_self {holds : α → Prop} {action : Registering ε α}
    (each : ∀ ⦃registry result after⦄, action.Gives registry result after → holds result) :
    Tracks (fun result other => result = other ∧ holds result) action action :=
  fun _ result _ gives => ⟨result, gives, rfl, each gives⟩

end Registering

section shown

variable {display : Token → String} {width : Nat}

/-- Shown, one code is another with blanks behind each line feed. -/
def Code.Spreads (display : Token → String) (width : Nat) (deeper code : Code) : Prop :=
  (deeper.displayWith display).toList = spread width (code.displayWith display).toList

/-- Shown, one code is another with blanks before each line. -/
def Code.Indents (display : Token → String) (width : Nat) (deeper code : Code) : Prop :=
  DesignLayout.Indents width (deeper.displayWith display).toList
    (code.displayWith display).toList

namespace Code

variable {code other deeper otherDeeper : Code}

theorem Spreads.append (spreads : Spreads display width deeper code)
    (others : Spreads display width otherDeeper other) :
    Spreads display width (deeper ++ otherDeeper) (code ++ other) := by
  rw [Spreads, toList_displayWith_append, toList_displayWith_append, spread_append, spreads,
    others]

theorem spreads_of_not_mem (within : '\n' ∉ (code.displayWith display).toList) :
    Spreads display width code code :=
  (spread_of_not_mem within).symm

/-- Printed code has no line feed where its tokens are shown without one. -/
theorem Printed.newline_not_mem (printed : code.Printed)
    (oneLine : ∀ token, '\n' ∉ (display token).toList) :
    '\n' ∉ (code.displayWith display).toList := by
  rw [toList_displayWith]
  intro member
  obtain ⟨piece, pieceMember, inside⟩ := List.mem_flatMap.mp member
  cases piece with
  | text content => exact (printed content pieceMember).not_mem (by decide) inside
  | token entry => exact oneLine entry inside

theorem Indents.append (indents : Indents display width deeper code)
    (others : Indents display width otherDeeper other) :
    Indents display width (deeper ++ otherDeeper) (code ++ other) := by
  rw [Indents, toList_displayWith_append, toList_displayWith_append]
  exact DesignLayout.Indents.append indents others

theorem Indents.displayWith_eq (indents : Indents display width deeper code) :
    deeper.displayWith display = indented width (code.displayWith display) := by
  rw [indented, ← DesignLayout.Indents.eq indents, String.ofList_toList]

end Code

end shown

namespace Source

open Registering Code

variable {display : Token → String} {options : SourceOptions}

theorem newline_not_mem_stringLiteral (text : String) : '\n' ∉ (stringLiteral text).toList := by
  have within : '\n' ∈ (escaped text).toList ↔ _ := mem_escaped (by decide) text
  rw [toList_escaped] at within
  simp [toList_stringLiteral, within]

theorem newline_not_mem_margin (depth : Nat) : '\n' ∉ (options.margin depth).toList :=
  (printed_margin options depth).not_mem (by decide)

theorem margin_succ (depth : Nat) :
    (options.margin (depth + 1)).toList =
      blanks options.indentation ++ (options.margin depth).toList := by
  rw [SourceOptions.margin, SourceOptions.margin, String.toList_ofList, String.toList_ofList,
    blanks, ← List.replicate_add, Nat.succ_mul, Nat.add_comm]

/-- What stands behind the margin may go on in further lines. -/
theorem indents_line (depth : Nat) (line : List Char) {deeper code : Code}
    (deeperShown : (deeper.displayWith display).toList =
      (options.margin (depth + 1)).toList ++ (spread options.indentation line ++ ['\n']))
    (shown : (code.displayWith display).toList =
      (options.margin depth).toList ++ (line ++ ['\n'])) :
    deeper.Indents display options.indentation code := by
  have margin : spread options.indentation (options.margin depth).toList =
      (options.margin depth).toList := spread_of_not_mem (newline_not_mem_margin depth)
  have spreads : (options.margin depth).toList ++ spread options.indentation line =
      spread options.indentation ((options.margin depth).toList ++ line) := by
    rw [spread_append, margin]
  have indents := DesignLayout.Indents.line spreads
  rw [Code.Indents, deeperShown, shown, margin_succ]
  simpa only [List.append_assoc] using indents

theorem indents_text (depth : Nat) {content : String} (line : List Char)
    (within : '\n' ∉ line) (ends : content.toList = line ++ ['\n']) :
    (ofText (options.margin (depth + 1) ++ content)).Indents display options.indentation
      (ofText (options.margin depth ++ content)) := by
  apply indents_line depth line
  · rw [toList_displayWith_ofText, String.toList_append, ends, spread_of_not_mem within]
  · rw [toList_displayWith_ofText, String.toList_append, ends]

/-- Behind a line feed stands the deeper margin. -/
theorem spreads_lineStart (options : SourceOptions) (depth : Nat) :
    (ofText ("\n" ++ options.margin (depth + 1) ++ ".")).Spreads display options.indentation
      (ofText ("\n" ++ options.margin depth ++ ".")) := by
  have within : '\n' ∉ (options.margin depth).toList ++ ['.'] :=
    List.not_mem_append (newline_not_mem_margin depth) (by decide)
  have broken : spread options.indentation ['\n'] = '\n' :: blanks options.indentation := by
    simp [spread]
  have shown : ("\n" ++ options.margin depth ++ ".").toList =
      ['\n'] ++ ((options.margin depth).toList ++ ['.']) := by simp
  rw [Spreads, toList_displayWith_ofText, toList_displayWith_ofText, shown, spread_append,
    spread_of_not_mem within, broken]
  simp [margin_succ]

/-- A parameter in one line but for its value, which has blanks behind each line
feed. -/
structure Deepens (display : Token → String) (width : Nat) (deeper parameter : Parameter) :
    Prop where
  name : deeper.name = parameter.name
  within : '\n' ∉ parameter.name.toList
  value : deeper.value.Spreads display width parameter.value

section parameters

variable {registry after : Registry} {parameters : List Parameter}
variable (oneLine : ∀ token, '\n' ∉ (display token).toList)

include oneLine

theorem spreads_chained (depth : Nat) {calls : List Code}
    (printed : ∀ code ∈ calls, code.Printed) :
    (chained options (depth + 1) calls).Spreads display options.indentation
      (chained options depth calls) := by
  have first : (ofText "Modifier").Spreads display options.indentation (ofText "Modifier") := by
    apply spreads_of_not_mem
    rw [toList_displayWith_ofText]
    decide
  refine first.append ?_
  induction calls with
  | nil => rfl
  | cons call rest ih =>
      obtain ⟨printedCall, printedRest⟩ := List.forall_mem_cons.mp printed
      have line := (spreads_lineStart options depth).append
        (spreads_of_not_mem (printedCall.newline_not_mem oneLine))
      exact line.append (ih printedRest)

theorem tracks_modifierParameter (depth : Nat) (modifiers : List Modifier) :
    Tracks (List.Forall₂ (Deepens display options.indentation))
      (modifierParameter options (depth + 1) modifiers)
      (modifierParameter options depth modifiers) := by
  refine tracks_bind (tracks_self fun _ _ _ => printed_modifierCalls) ?_
  rintro calls _ ⟨rfl, printed⟩
  have named : '\n' ∉ "modifier".toList := by decide
  refine tracks_pure ?_
  split
  · exact .nil
  · exact .cons ⟨rfl, named, spreads_chained oneLine (depth + 2) printed⟩ .nil

theorem deepens_kindParameters (width : Nat) {kind : LayoutKind}
    (gives : (kindParameters kind).Gives registry parameters after) :
    ∀ parameter ∈ parameters, Deepens display width parameter parameter := by
  have named : '\n' ∉ "text".toList := by decide
  intro parameter member
  rcases printed_kindParameters gives parameter member with printed | ⟨content, -, rfl⟩
  · exact ⟨rfl, printed.1.not_mem (by decide),
      spreads_of_not_mem (Printed.newline_not_mem printed.2 oneLine)⟩
  · have within := newline_not_mem_stringLiteral content.text
    rw [← toList_displayWith_ofText] at within
    exact ⟨rfl, named, spreads_of_not_mem within⟩

theorem tracks_kindParameters (width : Nat) (kind : LayoutKind) :
    Tracks (List.Forall₂ (Deepens display width)) (kindParameters kind) (kindParameters kind) := by
  intro registry parameters after gives
  exact ⟨parameters, gives, List.forall₂_same.mpr (deepens_kindParameters oneLine width gives)⟩

end parameters

section statements

variable {registry after : Registry}

theorem indents_parameterLine (depth : Nat) {deeper parameter : Parameter}
    (deepens : Deepens display options.indentation deeper parameter) :
    (parameterLine options (depth + 1) deeper).Indents display options.indentation
      (parameterLine options depth parameter) := by
  let name := parameter.name.toList ++ " = ".toList
  have within : '\n' ∉ name := List.not_mem_append deepens.within (by decide)
  apply indents_line (depth + 1) (name ++ (parameter.value.displayWith display).toList ++ [','])
  · rw [spread_append, spread_append, spread_of_not_mem within, ← deepens.value]
    simp [parameterLine, deepens.name, name, spread]
  · simp [parameterLine, name]

theorem indents_join {lines others : List Code}
    (each : List.Forall₂ (Code.Indents display options.indentation) lines others) :
    (join lines).Indents display options.indentation (join others) := by
  induction each with
  | nil => exact .nil
  | cons first _ ih => exact first.append ih

theorem indents_comment (depth : Nat) (name : String) :
    (ofText (options.margin (depth + 1) ++ "// " ++ options.nameComment name ++ "\n")).Indents
      display options.indentation
      (ofText (options.margin depth ++ "// " ++ options.nameComment name ++ "\n")) := by
  have within : '\n' ∉ "// ".toList ++ (options.nameComment name).toList :=
    List.not_mem_append (by decide) (newline_not_mem_nameComment options name)
  simp only [String.append_assoc]
  exact indents_text depth _ within (by simp)

theorem indents_callee (depth : Nat) (kind : LayoutKind) {ending : String} {rest : List Char}
    (ends : ending.toList = rest ++ ['\n']) (within : '\n' ∉ rest) :
    (ofText (options.margin (depth + 1) ++ functionName kind ++ ending)).Indents display
      options.indentation (ofText (options.margin depth ++ functionName kind ++ ending)) := by
  have named : '\n' ∉ (functionName kind).toList :=
    (printed_functionName kind).not_mem (by decide)
  simp only [String.append_assoc]
  exact indents_text depth _ (List.not_mem_append named within) (by simp [ends])

theorem indents_closing (depth : Nat) (holdsText : Bool) :
    (ofText (options.margin (depth + 1) ++ if holdsText then ")\n" else ") \x7b\n")).Indents
      display options.indentation
      (ofText (options.margin depth ++ if holdsText then ")\n" else ") \x7b\n")) := by
  cases holdsText with
  | true => exact indents_text depth [')'] (by decide) rfl
  | false => exact indents_text depth [')', ' ', '\x7b'] (by decide) rfl

theorem indents_header (depth : Nat) (name : String) (kind : LayoutKind)
    {deeper parameters : List Parameter}
    (deepens : List.Forall₂ (Deepens display options.indentation) deeper parameters) :
    (header options (depth + 1) name kind deeper).Indents display options.indentation
      (header options depth name kind parameters) := by
  have lines : (join (deeper.map (parameterLine options (depth + 1)))).Indents display
      options.indentation (join (parameters.map (parameterLine options depth))) := by
    apply indents_join
    rw [List.forall₂_map_left_iff, List.forall₂_map_right_iff]
    exact deepens.imp fun _ _ => indents_parameterLine depth
  have empty : deeper.isEmpty = parameters.isEmpty := by
    cases deepens <;> rfl
  unfold header
  rw [empty]
  split
  case isTrue =>
    have ends : " \x7b\n".toList = [' ', '\x7b'] ++ ['\n'] := rfl
    exact (indents_comment depth name).append (indents_callee depth kind ends (by decide))
  case isFalse =>
    have ends : "(\n".toList = ['('] ++ ['\n'] := rfl
    exact (indents_comment depth name).append ((indents_callee depth kind ends (by decide)).append
      (lines.append (indents_closing depth kind.holdsText)))

theorem indents_emptyBody (depth : Nat) :
    (emptyBody options (depth + 1)).Indents display options.indentation
      (emptyBody options depth) :=
  indents_text depth "// empty".toList (by decide) rfl

theorem indents_footer (depth : Nat) :
    (footer options (depth + 1)).Indents display options.indentation (footer options depth) :=
  indents_text depth ['\x7d'] (by decide) rfl

mutual

theorem tracks_statement (oneLine : ∀ token, '\n' ∉ (display token).toList) :
    ∀ (node : Layout) (depth : Nat), Tracks (Code.Indents display options.indentation)
      (statement options (depth + 1) node) (statement options depth node)
  | ⟨name, modifiers, children, kind⟩, depth => by
      rw [statement, statement]
      refine tracks_bind (tracks_modifierParameter oneLine depth modifiers) ?_
      intro modifier otherModifier modifierDeepens
      refine tracks_bind (tracks_kindParameters oneLine options.indentation kind) ?_
      intro parameters otherParameters deepens
      have top : Code.Indents display options.indentation _ _ :=
        indents_header depth name kind (List.rel_append modifierDeepens deepens)
      split
      case isTrue => exact tracks_pure top
      case isFalse =>
        refine tracks_bind (tracks_statements oneLine children (depth + 1)) ?_
        intro body otherBody indents
        refine tracks_pure (top.append (Code.Indents.append ?_ (indents_footer depth)))
        split
        · exact indents_emptyBody (depth + 1)
        · exact indents

/-- List counterpart of tracks_statement. -/
theorem tracks_statements (oneLine : ∀ token, '\n' ∉ (display token).toList) :
    ∀ (nodes : List Layout) (depth : Nat), Tracks (Code.Indents display options.indentation)
      (statements options (depth + 1) nodes) (statements options depth nodes)
  | [], depth => by
      rw [statements, statements]
      exact tracks_pure .nil
  | node :: rest, depth => by
      rw [statements, statements]
      refine tracks_bind (tracks_statement oneLine node depth) fun _ _ first => ?_
      refine tracks_bind (tracks_statements oneLine rest depth) fun _ _ others => ?_
      exact tracks_pure (first.append others)

end

/-- A container shows what its modifiers and its kind ask for, and then what its
children do. -/
theorem gives_container {node : Layout} {depth : Nat} {code : Code}
    (container : node.holdsText = false) :
    (statement options depth node).Gives registry code after ↔
      ∃ modifier first parameters between body,
        (modifierParameter options depth node.modifiers).Gives registry modifier first ∧
        (kindParameters node.kind).Gives first parameters between ∧
        (statements options (depth + 1) node.children).Gives between body after ∧
        code = header options depth node.name node.kind (modifier ++ parameters) ++
          ((if node.children.isEmpty then emptyBody options (depth + 1) else body) ++
            footer options depth) := by
  rcases node with ⟨name, modifiers, children, kind⟩
  have notText : ¬ kind.holdsText = true := Bool.eq_false_iff.mp container
  rw [statement]
  simp only [gives_bind, if_neg notText, gives_pure]
  constructor
  · rintro ⟨modifier, first, givesModifier, parameters, between, givesParameters, body, _,
      givesBody, rfl, rfl⟩
    exact ⟨modifier, first, parameters, between, body, givesModifier, givesParameters, givesBody,
      rfl⟩
  · rintro ⟨modifier, first, parameters, between, body, givesModifier, givesParameters, givesBody,
      rfl⟩
    exact ⟨modifier, first, givesModifier, parameters, between, givesParameters, body, after,
      givesBody, rfl, rfl⟩

theorem margin_zero : options.margin 0 = "" := by
  simp [SourceOptions.margin]

/-- A container at the top starts with its comment and its function. -/
theorem exists_header_eq (display : Token → String) (options : SourceOptions) (name : String)
    {kind : LayoutKind} (container : kind.holdsText = false) (parameters : List Parameter) :
    ∃ arguments, (header options 0 name kind parameters).displayWith display =
      "// " ++ options.nameComment name ++ "\n" ++ functionName kind ++ arguments ++
        " \x7b\n" := by
  unfold header
  rw [container, margin_zero]
  split
  case isTrue =>
    refine ⟨"", ?_⟩
    simp [← String.toList_inj, toList_displayWith_append]
  case isFalse =>
    let lines := join (parameters.map (parameterLine options 0))
    refine ⟨"(\n" ++ lines.displayWith display ++ ")", ?_⟩
    simp [← String.toList_inj, lines]

theorem displayWith_emptyBody :
    (emptyBody options 1).displayWith display = indented options.indentation "// empty\n" := by
  have top : (emptyBody options 0).displayWith display = "// empty\n" := by
    rw [emptyBody, margin_zero, displayWith_ofText, String.empty_append]
  rw [(indents_emptyBody 0).displayWith_eq, top]

theorem displayWith_footer : (footer options 0).displayWith display = "\x7d\n" := by
  rw [footer, margin_zero, displayWith_ofText, String.empty_append]

end statements

end Source

namespace Layout

open Registering

variable {node : Layout} {nodes : List Layout} {options : SourceOptions}
variable {display : Token → String} {registry after : Registry} {code : Code}

/-- Each of some trees is rendered as a root, from the registry that those before
it have left. -/
inductive RendersEach (options : SourceOptions) :
    Registry → List Layout → List Code → Registry → Prop where
  | nil {registry : Registry} : RendersEach options registry [] [] registry
  | cons {registry between after : Registry} {node : Layout} {nodes : List Layout}
      {code : Code} {codes : List Code} :
      (node.render options).Gives registry code between →
      RendersEach options between nodes codes after →
      RendersEach options registry (node :: nodes) (code :: codes) after

/-- One after the other the children of a node at the top show the indented texts
that they have by themselves. -/
theorem rendersEach_of_statements (oneLine : ∀ token, '\n' ∉ (display token).toList)
    (gives : (Source.statements options 1 nodes).Gives registry code after) :
    ∃ codes, RendersEach options registry nodes codes after ∧
      code.displayWith display = String.join (codes.map fun child =>
        indented options.indentation (child.displayWith display)) := by
  induction nodes generalizing registry code with
  | nil =>
      rw [Source.statements] at gives
      obtain ⟨rfl, rfl⟩ := gives_pure.mp gives
      exact ⟨[], .nil, rfl⟩
  | cons node rest ih =>
      rw [Source.statements] at gives
      obtain ⟨first, between, givesFirst, gives⟩ := gives_bind.mp gives
      obtain ⟨others, _, givesOthers, gives⟩ := gives_bind.mp gives
      obtain ⟨rfl, rfl⟩ := gives_pure.mp gives
      obtain ⟨child, givesChild, indents⟩ :=
        Source.tracks_statement oneLine node 0 givesFirst
      obtain ⟨codes, each, shown⟩ := ih givesOthers
      refine ⟨child :: codes, .cons givesChild each, ?_⟩
      rw [Code.displayWith_append, indents.displayWith_eq, shown, List.map_cons, String.join_cons]

/-- A container is shown with the indented texts of its children in place of the
line that says that there are none.  Each child has the text that it has as a
root, rendered from the registry that is left by what stands before it. -/
theorem render_nested (container : node.holdsText = false)
    (oneLine : ∀ token, '\n' ∉ (display token).toList)
    (gives : (node.render options).Gives registry code after) :
    ∃ header arguments bare between codes,
      header = "// " ++ options.nameComment node.name ++ "\n" ++
        Source.functionName node.kind ++ arguments ++ " \x7b\n" ∧
      (render { node with children := [] } options).Gives registry bare between ∧
      bare.displayWith display =
        header ++ indented options.indentation "// empty\n" ++ "\x7d\n" ∧
      RendersEach options between node.children codes after ∧
      code.displayWith display =
        header ++ (if node.children.isEmpty then indented options.indentation "// empty\n"
          else String.join (codes.map fun child =>
            indented options.indentation (child.displayWith display))) ++ "\x7d\n" := by
  obtain ⟨modifier, _, parameters, between, body, givesModifier, givesParameters, givesBody, rfl⟩ :=
    (Source.gives_container container).mp gives
  obtain ⟨arguments, headerShown⟩ :=
    Source.exists_header_eq display options node.name container (modifier ++ parameters)
  obtain ⟨codes, each, bodyShown⟩ := rendersEach_of_statements oneLine givesBody
  have none : (Source.statements options 1 []).Gives between .empty between := by
    rw [Source.statements]
    exact gives_pure.mpr ⟨rfl, rfl⟩
  let header := Source.header options 0 node.name node.kind (modifier ++ parameters)
  have noText : Layout.holdsText { node with children := [] } = false := container
  have childless : (render { node with children := [] } options).Gives registry
      (header ++ (Source.emptyBody options 1 ++ Source.footer options 0)) between :=
    (Source.gives_container noText).mpr
      ⟨modifier, _, parameters, between, .empty, givesModifier, givesParameters, none, rfl⟩
  refine ⟨_, arguments, _, between, codes, headerShown, childless, ?_, each, ?_⟩
  · rw [Code.displayWith_append, Code.displayWith_append, Source.displayWith_emptyBody,
      Source.displayWith_footer, String.append_assoc]
  · have inside : (if node.children.isEmpty then Source.emptyBody options (0 + 1)
        else body).displayWith display =
        if node.children.isEmpty then indented options.indentation "// empty\n"
        else String.join (codes.map fun child =>
          indented options.indentation (child.displayWith display)) := by
      split
      · exact Source.displayWith_emptyBody
      · exact bodyShown
    rw [Code.displayWith_append, Code.displayWith_append, inside, Source.displayWith_footer,
      String.append_assoc]

/-- A row in a column: modifiers on several lines, and a text with a line break. -/
theorem render_nested_row :
    let label : Layout := ⟨"label", [], [], .text (.plain "a\nb" (.own default))⟩
    let row : Layout :=
      ⟨"line", [.background (.own .black) none, .baseline], [label], .row none (some .center)⟩
    let page : Layout := ⟨"page", [.padding (.uniform (some (.own 8.0)))], [row],
      .column none none⟩
    let display : Token → String := fun token => String.ofList (token.name.toList.filter (· ≠ '\n'))
    page.holdsText = false ∧ (∀ token, '\n' ∉ (display token).toList) ∧
    ∃ code after, (page.render ⟨2, 40⟩).Gives .empty code after ∧
      ∃ header between codes, RendersEach ⟨2, 40⟩ between [row] codes after ∧
        code.displayWith display = header ++
          String.join (codes.map fun child => indented 2 (child.displayWith display)) ++
          "\x7d\n" := by
  intro label row page display
  have oneLine : ∀ token, '\n' ∉ (display token).toList := by
    intro token
    simp [display]
  have gives : (page.render ⟨2, 40⟩).Gives .empty
      ⟨[.text "// page\nColumn(\n  modifier = Modifier\n    .padding(",
        .token (Token.named .padding "8.dp" "8.dp"),
        .text "),\n) \x7b\n  // line\n  Row(\n    modifier = Modifier\n      .background(",
        .token (Token.named .color "Color(0xFF000000)" "Color(0xFF000000)"),
        .text (")\n      .alignByBaseline(),\n    verticalAlignment = Alignment.CenterVertically" ++
          ",\n  ) \x7b\n    // label\n    Text(\n      style = "),
        .token (Token.named .text "TextStyle(fontWeight = FontWeight(0), fontSize = 0.sp)"
          "TextStyle(fontWeight = FontWeight(0), fontSize = 0.sp)"),
        .text ",\n      text = \"a\\nb\",\n    )\n  \x7d\n\x7d\n"]⟩
      ⟨.ofList [Token.named .padding "8.dp" "8.dp",
        Token.named .color "Color(0xFF000000)" "Color(0xFF000000)",
        Token.named .text "TextStyle(fontWeight = FontWeight(0), fontSize = 0.sp)"
          "TextStyle(fontWeight = FontWeight(0), fontSize = 0.sp)"]⟩ := by
    decide +kernel
  obtain ⟨header, _, _, between, codes, -, -, -, each, shown⟩ := render_nested rfl oneLine gives
  exact ⟨rfl, oneLine, _, _, gives, header, between, codes, each, shown⟩

end Layout

end DesignLayout
