import DesignLayout.Proofs.MarkedText
import DesignLayout.Proofs.PrintedCalls

/-!
# Which layout trees have marked text

The source text of a tree can be marked unless a name or a text of the design
brings the marker into its literal text.  Of a name only what its comment shows
counts, and nothing below a text counts, because it has no statement.  What a
token holds is never literal text.
-/

namespace DesignLayout

namespace Code

/-- A literal text of the code contains the marker. -/
def HasMarker (code : Code) : Prop :=
  ∃ content, .text content ∈ code.pieces ∧ marker ∈ content.toList

variable {code other : Code}

/-- The marker is in what a code shows besides its tokens. -/
theorem hasMarker_iff :
    code.HasMarker ↔ marker ∈ (code.displayWith fun _ => "").toList := by
  rw [toList_displayWith, List.mem_flatMap]
  constructor
  · rintro ⟨content, member, inside⟩
    exact ⟨.text content, member, inside⟩
  · rintro ⟨piece, member, inside⟩
    cases piece with
    | text content => exact ⟨content, member, inside⟩
    | token entry => cases inside

@[simp] theorem not_hasMarker_empty : ¬ empty.HasMarker := by
  rintro ⟨content, member, -⟩
  cases member

/-- The marker is not a printed character. -/
theorem Printed.not_hasMarker (printed : code.Printed) : ¬ code.HasMarker := by
  rintro ⟨content, member, inside⟩
  exact (printed content member).not_mem (by decide) inside

@[simp] theorem hasMarker_ofText (content : String) :
    (ofText content).HasMarker ↔ marker ∈ content.toList := by
  rw [hasMarker_iff, toList_displayWith_ofText]

@[simp] theorem hasMarker_append :
    (code ++ other).HasMarker ↔ code.HasMarker ∨ other.HasMarker := by
  simp only [hasMarker_iff, toList_displayWith_append, List.mem_append]

@[simp] theorem hasMarker_join {codes : List Code} :
    (join codes).HasMarker ↔ ∃ code ∈ codes, code.HasMarker := by
  induction codes with
  | nil => simp [join]
  | cons code rest ih =>
      rw [List.exists_mem_cons_iff, ← ih]
      exact hasMarker_append

/-- Code that is joined is refused by the marking if a literal text of it has the
marker, and is else read back as it was. -/
theorem markedText_of_joined (joined : code.Joined) :
    (code.HasMarker ∧ ∃ literal, code.markedText = .error (.collision literal)) ∨
      ¬ code.HasMarker ∧ ∃ text, code.markedText = .ok text ∧ readMarked text = .ok code := by
  rcases Piece.clean_or_clash code.pieces with
    clean | ⟨before, content, after, split, clean, clash⟩
  · refine .inr ⟨?_, _, markedText_of_clean clean, readMarked_markedText joined clean⟩
    rintro ⟨content, member, inside⟩
    exact clean content member inside
  · refine .inl ⟨⟨content, ?_, clash⟩, content, ?_⟩
    · rw [split]
      exact List.mem_append_right before List.mem_cons_self
    · rw [markedText, split, Piece.mapM_marked_of_clash clean clash]
      rfl

end Code

def Parameter.HasMarker (parameter : Parameter) : Prop :=
  marker ∈ parameter.name.toList ∨ parameter.value.HasMarker

theorem Parameter.Printed.not_hasMarker {parameter : Parameter} (printed : parameter.Printed) :
    ¬ parameter.HasMarker := by
  rintro (inName | value)
  · exact printed.1.not_mem (by decide) inName
  · exact Code.Printed.not_hasMarker printed.2 value

namespace Layout

/-- A node brings the marker into literal text, by the part of its name that its
comment shows or by its text. -/
def BringsMarker (options : SourceOptions) (node : Layout) : Prop :=
  marker ∈ node.name.toList.take options.nameLimit ∨
    ∃ content, node.kind = .text content ∧ marker ∈ content.text.toList

mutual

/-- The nodes that have a statement: those below a text have none. -/
def written : Layout → List Layout
  | ⟨name, modifiers, children, kind⟩ =>
    ⟨name, modifiers, children, kind⟩ ::
      if kind.holdsText then [] else writtenList children

def writtenList : List Layout → List Layout
  | [] => []
  | node :: rest => node.written ++ writtenList rest

end

mutual

/-- Where texts have no children every node has a statement. -/
theorem written_eq_preorder : ∀ {root : Layout},
    (∀ node ∈ root.preorder, node.holdsText = true → node.children = []) →
    root.written = root.preorder
  | ⟨name, modifiers, children, kind⟩, childless => by
      rw [preorder] at childless ⊢
      rw [written]
      split
      case isTrue text =>
        have none : children = [] := childless _ List.mem_cons_self text
        rw [none, preorderList]
      case isFalse =>
        rw [writtenList_eq_preorderList fun node member =>
          childless node (List.mem_cons_of_mem _ member)]

/-- List counterpart of written_eq_preorder. -/
theorem writtenList_eq_preorderList : ∀ {nodes : List Layout},
    (∀ node ∈ preorderList nodes, node.holdsText = true → node.children = []) →
    writtenList nodes = preorderList nodes
  | [], _ => by rw [writtenList, preorderList]
  | first :: rest, childless => by
      rw [preorderList] at childless ⊢
      rw [writtenList, written_eq_preorder fun node member =>
          childless node (List.mem_append_left _ member),
        writtenList_eq_preorderList fun node member =>
          childless node (List.mem_append_right _ member)]

end

end Layout

namespace Source

open Registering Code

variable {registry after : Registry}

section literals

/-- An escape neither brings in the marker nor hides it. -/
theorem marker_mem_stringLiteral (text : String) :
    marker ∈ (stringLiteral text).toList ↔ marker ∈ text.toList := by
  have quote : marker ∉ ['"'] := by decide
  have within : marker ∈ (escaped text).toList ↔ _ := mem_escaped (by decide) text
  rw [toList_escaped] at within
  simp only [toList_stringLiteral, List.mem_append, within, quote, false_or, or_false]
  exact and_iff_left (by decide)

theorem marker_mem_nameComment (options : SourceOptions) (name : String) :
    marker ∈ (options.nameComment name).toList ↔
      marker ∈ name.toList.take options.nameLimit := by
  have flat : ∀ characters : List Char, (marker ∈ characters.map fun character =>
      if character = '\n' ∨ character = '\r' then ' ' else character) ↔
        marker ∈ characters := by
    intro characters
    rw [List.mem_map]
    constructor
    · rintro ⟨character, member, same⟩
      split at same
      case isTrue => cases same
      case isFalse => exact same ▸ member
    · exact fun member => ⟨marker, member, by decide⟩
  simp only [SourceOptions.nameComment, List.length_map]
  split
  case isTrue =>
    rw [String.toList_ofList, List.mem_append, ← List.map_take, flat]
    exact or_iff_left (by decide)
  case isFalse fits =>
    rw [String.toList_ofList, flat, List.take_of_length_le (by omega)]

theorem marker_not_mem_margin (options : SourceOptions) (depth : Nat) :
    marker ∉ (options.margin depth).toList :=
  (printed_margin options depth).not_mem (by decide)

end literals

section parameters

variable {options : SourceOptions} {depth : Nat} {parameters : List Parameter}

theorem not_hasMarker_chained {calls : List Code} (each : ∀ code ∈ calls, code.Printed) :
    ¬ (chained options depth calls).HasMarker := by
  have margin := marker_not_mem_margin options depth
  rw [chained, hasMarker_append, hasMarker_ofText, hasMarker_join]
  rintro (opening | ⟨code, member, inside⟩)
  · exact absurd opening (by decide)
  · obtain ⟨call, callMember, rfl⟩ := List.mem_map.mp member
    rcases hasMarker_append.mp inside with line | own
    · simp [marker] at line
      exact margin line
    · exact (each call callMember).not_hasMarker own

theorem not_hasMarker_modifierParameter {modifiers : List Modifier}
    (gives : (modifierParameter options depth modifiers).Gives registry parameters after) :
    ∀ parameter ∈ parameters, ¬ parameter.HasMarker := by
  obtain ⟨calls, _, givesCalls, gives⟩ := gives_bind.mp gives
  obtain ⟨rfl, -⟩ := gives_pure.mp gives
  split
  · exact List.forall_mem_nil _
  · refine List.forall_mem_singleton.mpr ?_
    have named : marker ∉ "modifier".toList := by decide
    rintro (inName | value)
    · exact named inName
    · exact not_hasMarker_chained (printed_modifierCalls givesCalls) value

/-- The parameters of a node have the marker if it is a text that has it. -/
theorem hasMarker_kindParameters {kind : LayoutKind}
    (gives : (kindParameters kind).Gives registry parameters after) :
    (∃ parameter ∈ parameters, parameter.HasMarker) ↔
      ∃ content, kind = .text content ∧ marker ∈ content.text.toList := by
  have named : marker ∉ "text".toList := by decide
  constructor
  · rintro ⟨parameter, member, inside⟩
    rcases printed_kindParameters gives parameter member with printed | ⟨content, text, rfl⟩
    · exact absurd inside printed.not_hasMarker
    · have value := inside.resolve_left named
      rw [hasMarker_ofText, marker_mem_stringLiteral] at value
      exact ⟨content, text, value⟩
  · rintro ⟨content, rfl, inside⟩
    rw [← marker_mem_stringLiteral, ← hasMarker_ofText] at inside
    exact ⟨_, literal_mem_textParameters gives, .inr inside⟩

end parameters

section statements

variable {options : SourceOptions} {depth : Nat}

theorem hasMarker_parameterLine {parameter : Parameter} :
    (parameterLine options depth parameter).HasMarker ↔ parameter.HasMarker := by
  have margin := marker_not_mem_margin options (depth + 1)
  have equals : marker ∉ " = ".toList := by decide
  have comma : marker ∉ ",\n".toList := by decide
  simp only [parameterLine, Parameter.HasMarker, hasMarker_append, hasMarker_ofText,
    String.toList_append, List.mem_append, margin, equals, comma, false_or, or_false]

/-- A statement has the marker where its comment shows it and where a parameter
has it. -/
theorem hasMarker_header (options : SourceOptions) (depth : Nat) (name : String)
    (kind : LayoutKind) (parameters : List Parameter) :
    (header options depth name kind parameters).HasMarker ↔
      marker ∈ name.toList.take options.nameLimit ∨
        ∃ parameter ∈ parameters, parameter.HasMarker := by
  have margin := marker_not_mem_margin options depth
  have function : marker ∉ (functionName kind).toList :=
    (printed_functionName kind).not_mem (by decide)
  have comment : (ofText (options.margin depth ++ "// " ++ options.nameComment name ++
      "\n")).HasMarker ↔ marker ∈ name.toList.take options.nameLimit := by
    have slashes : marker ∉ "// ".toList := by decide
    have newline : marker ∉ "\n".toList := by decide
    simp only [hasMarker_ofText, String.toList_append, List.mem_append, margin, slashes, newline,
      marker_mem_nameComment, false_or, or_false]
  have lines : (join (parameters.map (parameterLine options depth))).HasMarker ↔
      ∃ parameter ∈ parameters, parameter.HasMarker := by
    simp only [hasMarker_join, List.mem_map, exists_exists_and_eq_and, hasMarker_parameterLine]
  unfold header
  split
  case isTrue bare =>
    have brace : marker ∉ " \x7b\n".toList := by decide
    have none : parameters = [] := List.isEmpty_iff.mp (Bool.and_eq_true_iff.mp bare).1
    rw [hasMarker_append, comment, hasMarker_ofText, none]
    simp only [String.toList_append, List.mem_append, margin, function, brace, or_false,
      List.not_mem_nil, false_and, exists_false]
  case isFalse =>
    have bracket : marker ∉ "(\n".toList := by decide
    have closing : marker ∉ (if kind.holdsText then ")\n" else ") \x7b\n").toList := by
      split <;> decide
    rw [hasMarker_append, comment, hasMarker_append, hasMarker_append, lines]
    simp only [hasMarker_ofText, String.toList_append, List.mem_append, margin, function,
      bracket, closing, false_or, or_false]

theorem not_hasMarker_emptyBody : ¬ (emptyBody options depth).HasMarker := by
  have empty : marker ∉ "// empty\n".toList := by decide
  simp only [emptyBody, hasMarker_ofText, String.toList_append, List.mem_append,
    marker_not_mem_margin, empty, or_false, not_false_eq_true]

theorem not_hasMarker_footer : ¬ (footer options depth).HasMarker := by
  have brace : marker ∉ "\x7d\n".toList := by decide
  simp only [footer, hasMarker_ofText, String.toList_append, List.mem_append,
    marker_not_mem_margin, brace, or_false, not_false_eq_true]

theorem joined_header (options : SourceOptions) (depth : Nat) (name : String)
    (kind : LayoutKind) (parameters : List Parameter) :
    (header options depth name kind parameters).Joined := by
  unfold header
  split
  · exact (joined_ofText _).append
  · exact (joined_ofText _).append.append.append

mutual

/-- The source text of a tree has the marker where a node with a statement brings
it in. -/
theorem hasMarker_statement {registry after : Registry} {depth : Nat} {code : Code} :
    ∀ {node : Layout}, (statement options depth node).Gives registry code after →
      (code.HasMarker ↔ ∃ inner ∈ node.written, inner.BringsMarker options)
  | ⟨name, modifiers, children, kind⟩, gives => by
      rw [statement] at gives
      obtain ⟨modifier, _, givesModifier, gives⟩ := gives_bind.mp gives
      obtain ⟨parameters, _, givesParameters, gives⟩ := gives_bind.mp gives
      have plain := not_hasMarker_modifierParameter givesModifier
      have opening : (header options depth name kind (modifier ++ parameters)).HasMarker ↔
          Layout.BringsMarker options ⟨name, modifiers, children, kind⟩ := by
        have none : ¬ ∃ parameter ∈ modifier, parameter.HasMarker := by simpa using plain
        rw [hasMarker_header, Layout.BringsMarker, ← hasMarker_kindParameters givesParameters]
        simp only [List.mem_append, or_and_right, exists_or, none, false_or]
      rw [Layout.written, List.exists_mem_cons_iff, ← opening]
      split at gives
      case isTrue text =>
        obtain ⟨rfl, -⟩ := gives_pure.mp gives
        simp [text]
      case isFalse container =>
        obtain ⟨body, _, givesBody, gives⟩ := gives_bind.mp gives
        obtain ⟨rfl, -⟩ := gives_pure.mp gives
        have inside : (if children.isEmpty then emptyBody options (depth + 1)
            else body).HasMarker ↔
            ∃ inner ∈ Layout.writtenList children, inner.BringsMarker options := by
          split
          case isTrue childless =>
            rw [List.isEmpty_iff.mp childless]
            simpa [Layout.writtenList] using not_hasMarker_emptyBody
          case isFalse => exact hasMarker_statements givesBody
        rw [hasMarker_append, hasMarker_append, inside, if_neg container,
          or_iff_left not_hasMarker_footer]

/-- List counterpart of hasMarker_statement. -/
theorem hasMarker_statements {registry after : Registry} {depth : Nat} {code : Code} :
    ∀ {nodes : List Layout}, (statements options depth nodes).Gives registry code after →
      (code.HasMarker ↔ ∃ inner ∈ Layout.writtenList nodes, inner.BringsMarker options)
  | [], gives => by
      rw [statements] at gives
      obtain ⟨rfl, -⟩ := gives_pure.mp gives
      simp [Layout.writtenList]
  | node :: rest, gives => by
      rw [statements] at gives
      obtain ⟨first, _, givesFirst, gives⟩ := gives_bind.mp gives
      obtain ⟨others, _, givesOthers, gives⟩ := gives_bind.mp gives
      obtain ⟨rfl, -⟩ := gives_pure.mp gives
      rw [hasMarker_append, hasMarker_statement givesFirst, hasMarker_statements givesOthers,
        Layout.writtenList]
      simp only [List.mem_append, or_and_right, exists_or]

end

theorem joined_statement {node : Layout} {code : Code}
    (gives : (statement options depth node).Gives registry code after) : code.Joined := by
  rcases node with ⟨name, modifiers, children, kind⟩
  rw [statement] at gives
  obtain ⟨modifier, _, -, gives⟩ := gives_bind.mp gives
  obtain ⟨parameters, _, -, gives⟩ := gives_bind.mp gives
  split at gives
  case isTrue =>
    obtain ⟨rfl, -⟩ := gives_pure.mp gives
    exact joined_header options depth name kind _
  case isFalse =>
    obtain ⟨body, _, -, gives⟩ := gives_bind.mp gives
    obtain ⟨rfl, -⟩ := gives_pure.mp gives
    exact (joined_ofText _).append.append

end statements

end Source

namespace Layout

/-- The source text of a tree is refused by the marking just where a node that has
a statement brings the marker into literal text, and is else read back as it was.
The nodes without a statement are those below a text, and where texts have no
children there are none. -/
theorem markedText_render {root : Layout} {options : SourceOptions} {registry after : Registry}
    {code : Code} (gives : (root.render options).Gives registry code after) :
    ((∃ fault, code.markedText = .error fault) ↔
      ∃ node ∈ root.written, node.BringsMarker options) ∧
    (∀ fault, code.markedText = .error fault → ∃ literal, fault = .collision literal) ∧
    (∀ text, code.markedText = .ok text → Code.readMarked text = .ok code) ∧
    ((∀ node ∈ root.preorder, node.holdsText = true → node.children = []) →
      root.written = root.preorder) := by
  have brought := Source.hasMarker_statement gives
  refine ⟨?_, ?_, ?_, written_eq_preorder⟩
  all_goals
    rcases Code.markedText_of_joined (Source.joined_statement gives) with
      ⟨has, literal, refused⟩ | ⟨clean, text, marked, read⟩
  · exact iff_of_true ⟨_, refused⟩ (brought.mp has)
  · rw [marked]
    exact iff_of_false (by simp) (mt brought.mpr clean)
  · intro fault fails
    rw [refused] at fails
    exact ⟨literal, (Except.error.inj fails).symm⟩
  · intro fault fails
    rw [marked] at fails
    cases fails
  · intro text written
    rw [refused] at written
    cases written
  · intro other written
    rw [marked] at written
    cases written
    exact read

/-- The marker is in the name of a token, and in the name of the node behind what
its comment shows. -/
theorem markedText_render_tokenName : ∃ code after text,
    (render ⟨"card\x0f", [.padding ⟨some (.linked ⟨"V:1", "\x0f", 8.0⟩), none, none, none⟩], [],
      .box false⟩ ⟨4, 4⟩).Gives .empty code after ∧
    code.tokens = [Token.named .padding "\x0f" "8.dp"] ∧
    code.markedText = .ok text ∧ Code.readMarked text = .ok code := by
  have gives : (render ⟨"card\x0f",
      [.padding ⟨some (.linked ⟨"V:1", "\x0f", 8.0⟩), none, none, none⟩], [],
      .box false⟩ ⟨4, 4⟩).Gives .empty
      ⟨[.text "// card...\nBox(\n    modifier = Modifier\n        .padding(start = ",
        .token (Token.named .padding "\x0f" "8.dp"),
        .text "),\n) \x7b\n    // empty\n\x7d\n"]⟩
      ⟨.ofList [Token.named .padding "\x0f" "8.dp"]⟩ := by
    decide +kernel
  obtain ⟨refused, -, read, -⟩ := markedText_render gives
  cases marked : Code.markedText _ with
  | error fault =>
      obtain ⟨node, member, brings⟩ := refused.mp ⟨fault, marked⟩
      have only : node = ⟨"card\x0f",
          [.padding ⟨some (.linked ⟨"V:1", "\x0f", 8.0⟩), none, none, none⟩], [],
          .box false⟩ := by
        simpa [written, writtenList] using member
      subst node
      rcases brings with shown | ⟨content, other, -⟩
      · exact absurd shown (by decide)
      · cases other
  | ok text => exact ⟨_, _, text, gives, rfl, marked, read text marked⟩

/-- A node below a text is named by the marker, and its tree has marked text. -/
theorem markedText_render_belowText :
    ¬ ∀ (root : Layout) (options : SourceOptions) (registry after : Registry) (code : Code),
      (root.render options).Gives registry code after →
      ((∃ fault, code.markedText = .error fault) ↔
        ∃ node ∈ root.preorder, node.BringsMarker options) := by
  intro claim
  have gives : (render ⟨"label", [], [⟨"\x0f", [], [], .box false⟩],
      .text (.plain "hi" (.own default))⟩ {}).Gives .empty
      ⟨[.text "// label\nText(\n    style = ",
        .token (Token.named .text "TextStyle(fontWeight = FontWeight(0), fontSize = 0.sp)"
          "TextStyle(fontWeight = FontWeight(0), fontSize = 0.sp)"),
        .text ",\n    text = \"hi\",\n)\n"]⟩
      ⟨.ofList [Token.named .text "TextStyle(fontWeight = FontWeight(0), fontSize = 0.sp)"
        "TextStyle(fontWeight = FontWeight(0), fontSize = 0.sp)"]⟩ := by
    decide +kernel
  have child : (⟨"\x0f", [], [], .box false⟩ : Layout) ∈
      preorder ⟨"label", [], [⟨"\x0f", [], [], .box false⟩],
        .text (.plain "hi" (.own default))⟩ := by
    simp [preorder, preorderList]
  obtain ⟨fault, refused⟩ := (claim _ _ _ _ _ gives).mpr ⟨_, child, .inl (by decide)⟩
  have accepted : (Code.markedText ⟨[.text "// label\nText(\n    style = ",
      .token (Token.named .text "TextStyle(fontWeight = FontWeight(0), fontSize = 0.sp)"
        "TextStyle(fontWeight = FontWeight(0), fontSize = 0.sp)"),
      .text ",\n    text = \"hi\",\n)\n"]⟩).toOption.isSome = true := by
    decide
  rw [refused] at accepted
  cases accepted

end Layout

end DesignLayout
