import Mathlib

/-!
# Scanning source text

A scanner reads source text from left to right and passes over line comments
and string literals.  It keeps the brackets that are open and the braces that
it has met, and it stops at a closing bracket that does not match.  A part of
a text is described by the brackets it closes, the brackets it leaves open
and the braces in it, and these descriptions are put together end to end.
-/

namespace DesignLayout

/-- What the scanner is in the middle of. -/
inductive ScanMode where
  | code
  /-- After a slash, which a second one would make a comment. -/
  | slash
  | comment
  | string
  /-- After a backslash in a string literal. -/
  | escape
  deriving DecidableEq, Repr

structure Scan where
  mode : ScanMode
  /-- The brackets that are open, the innermost first. -/
  opened : List Char
  /-- The braces met so far. -/
  braces : List Char
  deriving DecidableEq, Repr

namespace Scan

def start : Scan := ⟨.code, [], []⟩

/-- Closes the innermost bracket, which has to be `bracket`. -/
def close? (bracket : Char) (state : Scan) : Option Scan :=
  match state.opened with
  | innermost :: outer => if innermost = bracket then some { state with opened := outer } else none
  | [] => none

/-- A character outside comments and string literals. -/
def codeStep? (state : Scan) (character : Char) : Option Scan :=
  if character = '/' then some { state with mode := .slash }
  else if character = '"' then some { state with mode := .string }
  else if character = '(' then some ⟨.code, '(' :: state.opened, state.braces⟩
  else if character = ')' then ({ state with mode := .code } : Scan).close? '('
  else if character = '\x7b' then
    some ⟨.code, '\x7b' :: state.opened, state.braces ++ ['\x7b']⟩
  else if character = '\x7d' then
    close? '\x7b' ⟨.code, state.opened, state.braces ++ ['\x7d']⟩
  else some { state with mode := .code }

def step? (state : Scan) (character : Char) : Option Scan :=
  match state.mode with
  | .code => state.codeStep? character
  | .slash =>
    if character = '/' then some { state with mode := .comment } else state.codeStep? character
  | .comment => some (if character = '\n' then { state with mode := .code } else state)
  | .string =>
    some
      (if character = '\\' then { state with mode := .escape }
      else if character = '"' then { state with mode := .code }
      else state)
  | .escape => some { state with mode := .string }

def run? (state : Scan) (characters : List Char) : Option Scan :=
  characters.foldlM step? state

/-- Scans a text from its start. -/
def text? (text : String) : Option Scan :=
  start.run? text.toList

theorem run?_append (state : Scan) (left right : List Char) :
    state.run? (left ++ right) = (state.run? left).bind (·.run? right) :=
  List.foldlM_append

/-- The state within a text that has met `before` and left `outer` open. -/
def within (state : Scan) (outer before : List Char) : Scan :=
  ⟨state.mode, state.opened ++ outer, before ++ state.braces⟩

theorem close?_within {state next : Scan} {bracket : Char} (outer before : List Char)
    (closes : state.close? bracket = some next) :
    (state.within outer before).close? bracket = some (next.within outer before) := by
  rcases state with ⟨mode, opened, braces⟩
  cases opened with
  | nil => cases closes
  | cons innermost opened =>
      by_cases same : innermost = bracket
      · simp only [close?, same, if_true, Option.some.injEq] at closes
        subst closes
        simp [close?, within, same]
      · simp [close?, same] at closes

theorem codeStep?_within {state next : Scan} {character : Char} (outer before : List Char)
    (steps : state.codeStep? character = some next) :
    (state.within outer before).codeStep? character = some (next.within outer before) := by
  unfold codeStep? at steps ⊢
  split_ifs at steps ⊢
  · cases steps
    rfl
  · cases steps
    rfl
  · cases steps
    rfl
  · exact close?_within outer before steps
  · cases steps
    simp [within]
  · have closed := close?_within outer before steps
    simpa [within] using closed
  · cases steps
    rfl

theorem step?_within {state next : Scan} {character : Char} (outer before : List Char)
    (steps : state.step? character = some next) :
    (state.within outer before).step? character = some (next.within outer before) := by
  rcases state with ⟨mode, opened, braces⟩
  cases mode with
  | code => exact codeStep?_within outer before steps
  | slash =>
      simp only [step?, within] at steps ⊢
      split_ifs at steps ⊢
      · cases steps
        rfl
      · exact codeStep?_within outer before steps
  | comment =>
      simp only [step?, within] at steps ⊢
      split_ifs at steps ⊢ <;> cases steps <;> rfl
  | string =>
      simp only [step?, within] at steps ⊢
      split_ifs at steps ⊢ <;> cases steps <;> rfl
  | escape =>
      cases steps
      rfl

/-- A text is scanned the same way within another. -/
theorem run?_within {state last : Scan} {characters : List Char} (outer before : List Char)
    (runs : state.run? characters = some last) :
    (state.within outer before).run? characters = some (last.within outer before) := by
  induction characters generalizing state with
  | nil =>
      cases runs
      rfl
  | cons character rest ih =>
      simp only [run?, List.foldlM_cons, Option.bind_eq_bind, Option.bind_eq_some_iff]
        at runs ih ⊢
      obtain ⟨next, steps, runs⟩ := runs
      exact ⟨next.within outer before, step?_within outer before steps, ih runs⟩

end Scan

/-- A part of a text starts and ends outside comments and string literals: it
closes some brackets and leaves others open, and its braces are a word. -/
def Passes (text closed opened word : List Char) : Prop :=
  Scan.run? ⟨.code, closed, []⟩ text = some ⟨.code, opened, word⟩

instance (text closed opened word : List Char) : Decidable (Passes text closed opened word) :=
  inferInstanceAs (Decidable (_ = _))

namespace Passes

variable {left right text closed between opened first second word : List Char}

theorem nil : Passes [] closed closed [] := rfl

theorem append (passesLeft : Passes left closed between first)
    (passesRight : Passes right between opened second) :
    Passes (left ++ right) closed opened (first ++ second) := by
  have later := Scan.run?_within [] first passesRight
  simp only [Scan.within, List.append_nil] at later
  rw [Passes, Scan.run?_append, passesLeft]
  exact later

/-- What is open further out does not matter. -/
theorem within (passes : Passes text closed opened word) (outer : List Char) :
    Passes text (closed ++ outer) (opened ++ outer) word :=
  Scan.run?_within outer [] passes

/-- What closes and opens nothing can stand within any brackets. -/
theorem anywhere (passes : Passes text [] [] word) : Passes text closed closed word :=
  passes.within closed

theorem enclosed {opening closing : List Char} {bracket : Char}
    (opens : Passes opening [] [bracket] []) (passes : Passes text [] [] word)
    (closes : Passes closing [bracket] [] []) :
    Passes (opening ++ text ++ closing) [] [] word := by
  have whole := (opens.append passes.anywhere).append closes
  rwa [List.nil_append, List.append_nil] at whole

end Passes

/-- A character that is no slash, quote or bracket. -/
def isPlain (character : Char) : Bool :=
  character ∉ ['/', '"', '(', ')', '\x7b', '\x7d']

def Plain (text : List Char) : Prop :=
  ∀ character ∈ text, isPlain character = true

instance (text : List Char) : Decidable (Plain text) :=
  decidable_of_iff (text.all isPlain = true) List.all_eq_true

theorem Plain.append {left right : List Char} (plainLeft : Plain left) (plainRight : Plain right) :
    Plain (left ++ right) := by
  intro character member
  rcases List.mem_append.mp member with first | second
  · exact plainLeft character first
  · exact plainRight character second

theorem Plain.text_append {left right : String} (plainLeft : Plain left.toList)
    (plainRight : Plain right.toList) : Plain (left ++ right).toList := by
  rw [String.toList_append]
  exact plainLeft.append plainRight

theorem Plain.passes {text : List Char} (plain : Plain text) : Passes text [] [] [] := by
  induction text with
  | nil => exact .nil
  | cons character rest ih =>
      have step : Passes [character] [] [] [] := by
        have ordinary := plain character List.mem_cons_self
        simp only [isPlain, List.mem_cons, List.not_mem_nil, or_false, not_or,
          decide_eq_true_eq] at ordinary
        obtain ⟨slash, quote, opening, closing, openingBrace, closingBrace⟩ := ordinary
        simp [Passes, Scan.run?, Scan.step?, Scan.codeStep?, slash, quote, opening, closing,
          openingBrace, closingBrace]
      exact step.append (ih fun other member => plain other (List.mem_cons_of_mem _ member))

/-- A line comment is passed over whatever is in it. -/
theorem passes_comment {text : List Char} (oneLine : '\n' ∉ text) :
    Passes ('/' :: '/' :: (text ++ ['\n'])) [] [] [] := by
  have within : ∀ state : Scan, state.mode = .comment → state.run? text = some state := by
    intro state comment
    induction text with
    | nil => rfl
    | cons character rest ih =>
        simp only [List.mem_cons, not_or] at oneLine
        have step : state.step? character = some state := by
          simp [Scan.step?, comment, Ne.symm oneLine.1]
        rw [Scan.run?, List.foldlM_cons, step]
        exact ih oneLine.2
  show ((⟨.comment, [], []⟩ : Scan).run? (text ++ ['\n'])) = _
  rw [Scan.run?_append, within _ rfl]
  rfl

end DesignLayout
