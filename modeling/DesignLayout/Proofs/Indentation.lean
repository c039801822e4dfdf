import Mathlib

/-!
# Indentation

A text is indented by blanks before each of its lines.  Texts of whole lines are
indented one after the other.  Within a line that is put together from parts,
the blanks stand behind each line feed instead.
-/

namespace DesignLayout

/-- The lines of a text, each with the line feed that ends it. -/
def lines : List Char → List (List Char)
  | [] => []
  | character :: rest =>
    if character = '\n' then ['\n'] :: lines rest
    else
      match lines rest with
      | [] => [[character]]
      | line :: others => (character :: line) :: others

def blanks (width : Nat) : List Char :=
  List.replicate width ' '

/-- Puts blanks before each line of a text. -/
def indent (width : Nat) (text : List Char) : List Char :=
  (lines text).flatMap fun line => blanks width ++ line

/-- A text with blanks before each of its lines. -/
def indented (width : Nat) (text : String) : String :=
  String.ofList (indent width text.toList)

/-- Puts blanks behind each line feed of a text. -/
def spread (width : Nat) (text : List Char) : List Char :=
  text.flatMap fun character => if character = '\n' then '\n' :: blanks width else [character]

/-- Every line of a text is ended by a line feed. -/
def WholeLines (text : List Char) : Prop :=
  ∀ last ∈ text.getLast?, last = '\n'

variable {width : Nat} {text other : List Char}

theorem flatten_lines (text : List Char) : (lines text).flatten = text := by
  fun_induction lines text with
  | case1 => rfl
  | case2 rest ih => rw [List.flatten_cons, ih, List.singleton_append]
  | case3 character rest _ none ih =>
      rw [none] at ih
      simp [← ih]
  | case4 character rest _ line others first ih =>
      rw [first] at ih
      simp [← ih]

section wholeLines

theorem wholeLines_nil : WholeLines [] := by
  intro last ends
  cases ends

theorem wholeLines_line (text : List Char) : WholeLines (text ++ ['\n']) := by
  simp [WholeLines]

theorem WholeLines.append (whole : WholeLines text) (otherWhole : WholeLines other) :
    WholeLines (text ++ other) := by
  intro last ends
  rw [List.getLast?_append, Option.mem_def, Option.or_eq_some_iff] at ends
  rcases ends with inOther | ⟨-, inText⟩
  · exact otherWhole last inOther
  · exact whole last inText

theorem WholeLines.tail {character : Char} (whole : WholeLines (character :: text)) :
    WholeLines text := by
  intro last ends
  apply whole
  rw [List.getLast?_cons, Option.mem_def.mp ends]
  rfl

/-- The lines of whole lines stay apart from what comes behind. -/
theorem lines_append (whole : WholeLines text) (other : List Char) :
    lines (text ++ other) = lines text ++ lines other := by
  fun_induction lines text with
  | case1 => rfl
  | case2 rest ih => rw [List.cons_append, lines, if_pos rfl, ih whole.tail, List.cons_append]
  | case3 character rest within none ih =>
      have last : rest = [] := by rw [← flatten_lines rest, none, List.flatten_nil]
      subst last
      exact absurd (whole character rfl) within
  | case4 character rest within line others first ih =>
      rw [List.cons_append, lines, if_neg within, ih whole.tail, first]
      rfl

theorem indent_append (whole : WholeLines text) (other : List Char) :
    indent width (text ++ other) = indent width text ++ indent width other := by
  rw [indent, lines_append whole, List.flatMap_append]
  rfl

end wholeLines

section spread

theorem spread_append (left right : List Char) :
    spread width (left ++ right) = spread width left ++ spread width right :=
  List.flatMap_append

/-- A text without a line feed stays as it is. -/
theorem spread_of_not_mem (within : '\n' ∉ text) : spread width text = text := by
  have same : spread width text = text.flatMap fun character => [character] := by
    apply List.flatMap_congr
    intro character member
    exact if_neg fun newline : character = '\n' => within (newline ▸ member)
  rw [same, List.flatMap_singleton']

/-- Blanks before each line are blanks at the start and behind each line feed but
the last. -/
theorem indent_line (text : List Char) :
    indent width (text ++ ['\n']) = blanks width ++ (spread width text ++ ['\n']) := by
  induction text with
  | nil => simp [indent, lines, spread]
  | cons character rest ih =>
      by_cases newline : character = '\n'
      · subst character
        have first : indent width ('\n' :: (rest ++ ['\n'])) =
            blanks width ++ '\n' :: indent width (rest ++ ['\n']) := by
          simp [indent, lines]
        rw [List.cons_append, first, ih]
        simp [spread]
      · have any : lines (rest ++ ['\n']) ≠ [] := by
          intro none
          have flat := flatten_lines (rest ++ ['\n'])
          rw [none] at flat
          simp at flat
        obtain ⟨line, others, split⟩ := List.exists_cons_of_ne_nil any
        have later : line ++ others.flatMap (blanks width ++ ·) = spread width rest ++ ['\n'] := by
          rw [indent, split, List.flatMap_cons, List.append_assoc] at ih
          exact List.append_cancel_left ih
        have first : spread width (character :: rest) = character :: spread width rest := by
          simp [spread, newline]
        rw [List.cons_append, indent, lines, if_neg newline, split, first]
        simp [← later]

end spread

/-- A text of whole lines, and the same text with blanks before each line. -/
structure Indents (width : Nat) (deeper text : List Char) : Prop where
  whole : WholeLines text
  eq : deeper = indent width text

namespace Indents

variable {deeper otherDeeper : List Char}

theorem nil : Indents width [] [] :=
  ⟨wholeLines_nil, rfl⟩

theorem append (indents : Indents width deeper text) (others : Indents width otherDeeper other) :
    Indents width (deeper ++ otherDeeper) (text ++ other) where
  whole := indents.whole.append others.whole
  eq := by rw [indents.eq, others.eq, indent_append indents.whole]

theorem line (spreads : deeper = spread width text) :
    Indents width (blanks width ++ (deeper ++ ['\n'])) (text ++ ['\n']) where
  whole := wholeLines_line text
  eq := by rw [spreads, indent_line]

end Indents

end DesignLayout
