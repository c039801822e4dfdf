import Mathlib
import DesignLayout.Toml.Text
import DesignLayout.Toml.Writer

/-!
# Written strings are read back

Whatever form a string is written in, reading it gives its characters and
stops behind the closing quotes.  Between double quotes each character is read
from its own spelling.  In the forms over several lines a quote stands for
itself unless two more follow, so the count of quotes in a row decides.
-/

namespace DesignLayout.Toml

attribute [local simp] basic? literal? multilineBasic? multilineLiteral? string?

theorem isPrintable_iff {character : Char} :
    isPrintable character = true ↔ isControl character = false := by
  by_cases tab : character = '\t'
  · subst character
    decide
  · simp [isPrintable, isControl, tab]

/-- A carriage return stands for itself nowhere. -/
private theorem ne_return_of_plain {character : Char}
    (plain : character = '\n' ∨ isPrintable character = true) : character ≠ '\r' := by
  intro equal
  subst equal
  exact absurd plain (by decide)

/-- The ways in which a character stands between double quotes: as a short
escape, by its code point, or for itself. -/
inductive Spells (character : Char) : List Char → Prop where
  | short {mark : Char} (read : shortEscape? mark = some character) :
      Spells character ['\\', mark]
  | coded {a b c d : Char} (read : codePoint? [a, b, c, d] = some character) :
      Spells character ['\\', 'u', a, b, c, d]
  | itself (printable : isPrintable character = true)
      (noBackslash : character ≠ '\\') (noQuote : character ≠ '"') :
      Spells character [character]

private theorem codePoint?_twoDigits :
    ∀ number < 128, codePoint? ['0', '0', upperHexDigit (number / 16),
      upperHexDigit (number % 16)] = some (Char.ofNat number) := by
  decide

theorem spells_escapedCharacter {character : Char} (noQuote : character ≠ '"') :
    Spells character (escapedCharacter character) := by
  unfold escapedCharacter
  split
  case isTrue equal => exact .short (by rw [equal]; rfl)
  split
  case isTrue equal => exact .short (by rw [equal]; rfl)
  split
  case isTrue equal => exact .short (by rw [equal]; rfl)
  split
  case isTrue equal => exact .short (by rw [equal]; rfl)
  split
  case isTrue equal => exact .short (by rw [equal]; rfl)
  case isFalse noBackslash =>
    split
    case isTrue control =>
      have small : character.toNat < 128 := by
        simp only [isControl, Bool.or_eq_true, Bool.and_eq_true, decide_eq_true_eq,
          beq_iff_eq] at control
        omega
      apply Spells.coded
      rw [codePoint?_twoDigits _ small, Char.ofNat_toNat]
    case isFalse noControl =>
      exact .itself (isPrintable_iff.mpr (Bool.eq_false_of_not_eq_true noControl))
        noBackslash noQuote

theorem spells_lineCharacter (character : Char) :
    Spells character (lineCharacter character) := by
  unfold lineCharacter
  split
  case isTrue equal => exact .short (by rw [equal]; rfl)
  case isFalse noQuote =>
    split
    case isTrue equal => exact .short (by rw [equal]; rfl)
    case isFalse => exact spells_escapedCharacter noQuote

/-- A spelling is not empty, and does not start with a quote. -/
theorem Spells.exists_head {character : Char} {text : List Char}
    (spelled : Spells character text) :
    ∃ head tail, text = head :: tail ∧ head ≠ '"' := by
  cases spelled with
  | short => exact ⟨_, _, rfl, by decide⟩
  | coded => exact ⟨_, _, rfl, by decide⟩
  | itself _ _ noQuote => exact ⟨_, _, rfl, noQuote⟩

/-- The mark of a short escape is neither the mark of a code point nor a
character that folds lines. -/
private theorem shortEscape?_mark {mark character : Char}
    (read : shortEscape? mark = some character) :
    mark ≠ 'u' ∧ mark ≠ 'U' ∧ mark ≠ '\n' ∧ mark ≠ '\r' ∧ isBlank mark = false := by
  have apart {other : Char} (unread : shortEscape? other = none) : mark ≠ other := by
    intro equal
    rw [equal, unread] at read
    cases read
  refine ⟨apart rfl, apart rfl, apart rfl, apart rfl,
    Bool.eq_false_of_not_eq_true fun blank => ?_⟩
  simp only [isBlank, Bool.or_eq_true, decide_eq_true_eq] at blank
  rcases blank with space | tab
  · exact apart rfl space
  · exact apart rfl tab

theorem basic?_spelling {character : Char} {text : List Char}
    (spelled : Spells character text) (rest : List Char) :
    basic? (text ++ rest) = putBefore character (basic? rest) := by
  cases spelled with
  | short read =>
      obtain ⟨notCode, notLongCode, _⟩ := shortEscape?_mark read
      simp [notCode, notLongCode, read]
  | coded read => simp [read]
  | itself printable noBackslash noQuote =>
      simp [printable, noBackslash]

theorem multilineBasic?_spelling {character : Char} {text : List Char}
    (spelled : Spells character text) (rest : List Char) :
    multilineBasic? .off (text ++ rest) = putBefore character (multilineBasic? .off rest) := by
  cases spelled with
  | short read =>
      obtain ⟨notCode, notLongCode, noBreak, noReturn, noBlank⟩ := shortEscape?_mark read
      simp [notCode, notLongCode, noBreak, noReturn, noBlank, read]
  | coded read => simp [read]
  | itself printable noBackslash noQuote =>
      have noReturn := ne_return_of_plain (.inr printable)
      simp [printable, noBackslash, noQuote, noReturn]

theorem basic?_line (text rest : List Char) :
    basic? (text.flatMap lineCharacter ++ '"' :: rest) = some (text, rest) := by
  induction text with
  | nil => simp
  | cons character text ih =>
      rw [List.flatMap_cons, List.append_assoc,
        basic?_spelling (spells_lineCharacter character), ih]
      rfl

theorem literal?_line {text : List Char} (rest : List Char)
    (printable : ∀ character ∈ text, isPrintable character = true)
    (noQuote : '\'' ∉ text) :
    literal? (text ++ '\'' :: rest) = some (text, rest) := by
  induction text with
  | nil => simp
  | cons character text ih =>
      simp only [List.mem_cons, not_or] at noQuote
      have different : character ≠ '\'' := Ne.symm noQuote.1
      have later := ih (fun other member => printable other (List.mem_cons_of_mem _ member))
        noQuote.2
      simp [printable character List.mem_cons_self, later, putBefore]

/-- A quote with less than two more behind it stands for itself. -/
private theorem multilineBasic?_quote {rest : List Char} (few : ¬ ['"', '"'] <+: rest) :
    multilineBasic? .off ('"' :: rest) = putBefore '"' (multilineBasic? .off rest) := by
  match rest with
  | [] => simp [isPrintable, isBlank]
  | [character] => simp [isPrintable, isBlank]
  | first :: second :: rest =>
      have apart : ¬ (first = '"' ∧ second = '"') := by
        intro given
        obtain ⟨rfl, rfl⟩ := given
        exact few ⟨rest, rfl⟩
      have printable : isPrintable '"' = true := by decide
      have noBlank : isBlank '"' = false := by decide
      by_cases quote : first = '"'
      · have different : second ≠ '"' := fun equal => apart ⟨quote, equal⟩
        simp [quote, different, printable, noBlank]
      · simp [quote, printable, noBlank]

/-- The closing quotes, with up to two that stand for themselves before
them. -/
private theorem multilineBasic?_close {rest : List Char} (noQuote : rest.head? ≠ some '"') :
    multilineBasic? .off ('"' :: '"' :: '"' :: rest) = some ([], rest) ∧
      multilineBasic? .off ('"' :: '"' :: '"' :: '"' :: rest) = some (['"'], rest) ∧
      multilineBasic? .off ('"' :: '"' :: '"' :: '"' :: '"' :: rest) =
        some (['"', '"'], rest) := by
  cases rest with
  | nil => simp
  | cons character rest =>
      have different : character ≠ '"' := by simpa using noQuote
      simp [different]

/-- No quote comes first in what is written of a character that is none, or
behind two quotes in a row. -/
private theorem exists_head_multilineCharacters {quotes : Nat} (character : Char)
    (text : List Char) (reason : quotes = 2 ∨ character ≠ '"') :
    ∃ head tail, multilineCharacters quotes (character :: text) = head :: tail ∧
      head ≠ '"' := by
  by_cases quote : character = '"'
  · have full : quotes = 2 := reason.resolve_right (not_not_intro quote)
    exact ⟨'\\', _, by simp [multilineCharacters, quote, full]; rfl, by decide⟩
  · by_cases lineBreak : character = '\n'
    · exact ⟨'\n', _, by simp [multilineCharacters, lineBreak]; rfl, by decide⟩
    · obtain ⟨head, tail, spelled, different⟩ := (spells_escapedCharacter quote).exists_head
      exact ⟨head, _, by simp [multilineCharacters, quote, lineBreak, spelled]; rfl,
        different⟩

/-- Behind one or two quotes in a row the written text goes on with at most
one quote, unless it ends. -/
private theorem multilineCharacters_few {quotes : Nat} (counted : 0 < quotes)
    (bounded : quotes ≤ 2) {text : List Char} (rest : List Char) (goesOn : text ≠ [])
    (notLast : quotes = 1 → text ≠ ['"']) :
    ¬ ['"', '"'] <+: multilineCharacters quotes text ++ rest := by
  cases text with
  | nil => exact absurd rfl goesOn
  | cons character text =>
      by_cases stopped : quotes = 2 ∨ character ≠ '"'
      · obtain ⟨head, more, written, different⟩ :=
          exists_head_multilineCharacters character text stopped
        simp [written, Ne.symm different]
      · simp only [not_or, not_not] at stopped
        have single : quotes = 1 := by omega
        cases text with
        | nil => exact absurd (by rw [stopped.2]) (notLast single)
        | cons next text =>
            obtain ⟨head, more, written, different⟩ :=
              exists_head_multilineCharacters next text (.inl rfl)
            rw [stopped.2, single, multilineCharacters, if_pos rfl, if_neg (by decide), written]
            simp [Ne.symm different]

theorem multilineBasic?_characters {quotes : Nat} (bounded : quotes ≤ 2)
    (text : List Char) {rest : List Char} (noQuote : rest.head? ≠ some '"') :
    multilineBasic? .off (multilineCharacters quotes text ++ '"' :: '"' :: '"' :: rest) =
      some (text, rest) := by
  -- induction on the text; the quotes written so far in a row bound those to come
  induction text generalizing quotes with
  | nil => exact (multilineBasic?_close noQuote).1
  | cons character text ih =>
      by_cases quote : character = '"'
      · subst character
        by_cases full : quotes = 2
        · have escaped : Spells '"' ['\\', '"'] := .short rfl
          have read := multilineBasic?_spelling escaped
            (multilineCharacters 0 text ++ '"' :: '"' :: '"' :: rest)
          simp only [multilineCharacters, full, if_true, List.cons_append]
          simpa [ih, putBefore] using read
        · have counted : quotes + 1 ≤ 2 := by omega
          simp only [multilineCharacters, full, if_true, if_false, List.cons_append]
          by_cases ends : text = []
          · subst text
            exact (multilineBasic?_close noQuote).2.1
          · by_cases last : quotes + 1 = 1 ∧ text = ['"']
            · obtain ⟨single, rfl⟩ := last
              rw [single]
              exact (multilineBasic?_close noQuote).2.2
            · rw [multilineBasic?_quote, ih counted]
              · rfl
              · exact multilineCharacters_few (Nat.succ_pos quotes) counted _ ends
                  fun single lone => last ⟨single, lone⟩
      · by_cases lineBreak : character = '\n'
        · subst character
          simp [multilineCharacters, ih, putBefore]
        · simp only [multilineCharacters, quote, lineBreak, if_false, List.append_assoc]
          rw [multilineBasic?_spelling (spells_escapedCharacter quote), ih (Nat.zero_le 2)]
          rfl

theorem le_longestRun (quote : Char) (current : Nat) (text : List Char) :
    current ≤ longestRun quote current text := by
  induction text generalizing current with
  | nil => exact Nat.le_refl current
  | cons character text ih =>
      rw [longestRun]
      split
      · exact (Nat.le_succ current).trans (ih (current + 1))
      · exact Nat.le_max_left _ _

theorem longestRun_mono (quote : Char) {fewer more : Nat} (less : fewer ≤ more)
    (text : List Char) : longestRun quote fewer text ≤ longestRun quote more text := by
  induction text generalizing fewer more with
  | nil => exact less
  | cons character text ih =>
      rw [longestRun, longestRun]
      split
      · exact ih (Nat.succ_le_succ less)
      · exact max_le_max less (Nat.le_refl _)

theorem longestRun_tail (quote character : Char) (text : List Char) :
    longestRun quote 0 text ≤ longestRun quote 0 (character :: text) := by
  rw [longestRun]
  split
  · exact longestRun_mono quote (Nat.zero_le 1) text
  · exact Nat.le_max_right _ _

theorem not_mem_of_longestRun {quote : Char} {text : List Char}
    (none : longestRun quote 0 text = 0) : quote ∉ text := by
  induction text with
  | nil => exact List.not_mem_nil
  | cons character text ih =>
      intro member
      rcases List.mem_cons.mp member with first | later
      · have counted : 1 ≤ longestRun quote 0 (character :: text) := by
          rw [longestRun, if_pos first.symm]
          exact le_longestRun quote 1 text
        omega
      · have shorter := longestRun_tail quote character text
        exact ih (by omega) later

/-- A quote with less than two more behind it stands for itself. -/
private theorem multilineLiteral?_quote {rest : List Char} (few : ¬ ['\'', '\''] <+: rest) :
    multilineLiteral? ('\'' :: rest) = putBefore '\'' (multilineLiteral? rest) := by
  have printable : isPrintable '\'' = true := by decide
  match rest with
  | [] => simp [printable]
  | [character] => simp [printable]
  | first :: second :: rest =>
      have apart : ¬ (first = '\'' ∧ second = '\'') := by
        intro given
        obtain ⟨rfl, rfl⟩ := given
        exact few ⟨rest, rfl⟩
      by_cases quote : first = '\''
      · have different : second ≠ '\'' := fun equal => apart ⟨quote, equal⟩
        simp [quote, different, printable]
      · simp [quote, printable]

private theorem multilineLiteral?_itself {character : Char}
    (plain : character = '\n' ∨ isPrintable character = true) (noQuote : character ≠ '\'')
    (rest : List Char) :
    multilineLiteral? (character :: rest) = putBefore character (multilineLiteral? rest) := by
  have noReturn := ne_return_of_plain plain
  simp [plain, noQuote, noReturn]

private theorem multilineLiteral?_close {rest : List Char}
    (noQuote : rest.head? ≠ some '\'') :
    multilineLiteral? ('\'' :: '\'' :: '\'' :: rest) = some ([], rest) ∧
      multilineLiteral? ('\'' :: '\'' :: '\'' :: '\'' :: rest) = some (['\''], rest) ∧
      multilineLiteral? ('\'' :: '\'' :: '\'' :: '\'' :: '\'' :: rest) =
        some (['\'', '\''], rest) := by
  cases rest with
  | nil => simp
  | cons character rest =>
      have different : character ≠ '\'' := by simpa using noQuote
      simp [different]

private theorem few_of_longestRun {text : List Char} (rest : List Char)
    (short : longestRun '\'' 0 ('\'' :: text) ≤ 2) (goesOn : text ≠ [])
    (notLast : text ≠ ['\'']) : ¬ ['\'', '\''] <+: text ++ rest := by
  match text with
  | [] => exact absurd rfl goesOn
  | [first] =>
      have different : first ≠ '\'' := fun equal => notLast (by rw [equal])
      simp [Ne.symm different]
  | first :: second :: text =>
      intro given
      obtain ⟨tail, equal⟩ := given
      simp only [List.cons_append, List.cons.injEq] at equal
      obtain ⟨rfl, rfl, _⟩ := equal
      have long := le_longestRun '\'' 3 text
      simp only [longestRun, if_true, Nat.zero_add, Nat.reduceAdd] at short
      omega

theorem multilineLiteral?_characters {text rest : List Char}
    (plain : ∀ character ∈ text, character = '\n' ∨ isPrintable character = true)
    (short : longestRun '\'' 0 text ≤ 2) (noQuote : rest.head? ≠ some '\'') :
    multilineLiteral? (text ++ '\'' :: '\'' :: '\'' :: rest) = some (text, rest) := by
  induction text with
  | nil => exact (multilineLiteral?_close noQuote).1
  | cons character text ih =>
      have later := ih (fun other member => plain other (List.mem_cons_of_mem _ member))
        ((longestRun_tail '\'' character text).trans short)
      by_cases quote : character = '\''
      · subst character
        by_cases ends : text = []
        · subst text
          exact (multilineLiteral?_close noQuote).2.1
        · by_cases last : text = ['\'']
          · subst text
            exact (multilineLiteral?_close noQuote).2.2
          · rw [List.cons_append, multilineLiteral?_quote, later]
            · rfl
            · exact few_of_longestRun _ short ends last
      · rw [List.cons_append, multilineLiteral?_itself (plain character List.mem_cons_self) quote,
          later]
        rfl

/-- The line break after the opening quotes is the one that does not count. -/
private theorem dropLineBreak_openingBreak (text body : List Char)
    (oneLine : '\n' ∉ text → body.head? ≠ some '\n' ∧ body.head? ≠ some '\r') :
    dropLineBreak (openingBreak text ++ body) = body := by
  unfold openingBreak
  split
  · rfl
  case isFalse noBreak =>
    obtain ⟨notBreak, notReturn⟩ := oneLine noBreak
    cases body with
    | nil => rfl
    | cons head tail =>
        have different : head ≠ '\n' := by simpa using notBreak
        have alsoDifferent : head ≠ '\r' := by simpa using notReturn
        simp [dropLineBreak, different, alsoDifferent]

theorem string?_basicText (text rest : List Char) :
    string? (basicText text ++ '\n' :: rest) = some (text, '\n' :: rest) := by
  have read := basic?_line text ('\n' :: rest)
  cases text with
  | nil => simp [basicText]
  | cons character text =>
      obtain ⟨head, tail, spelled, different⟩ := (spells_lineCharacter character).exists_head
      simp only [List.flatMap_cons, spelled, List.cons_append, List.append_assoc] at read
      simp [basicText, spelled, different, read]

theorem string?_literalText {text : List Char} (rest : List Char)
    (printable : ∀ character ∈ text, isPrintable character = true) (noQuote : '\'' ∉ text) :
    string? (literalText text ++ '\n' :: rest) = some (text, '\n' :: rest) := by
  have read := literal?_line ('\n' :: rest) printable noQuote
  cases text with
  | nil => simp [literalText]
  | cons character text =>
      have different : character ≠ '\'' := fun equal => noQuote (by simp [equal])
      simp only [List.cons_append] at read
      simp [literalText, different, read]

/-- Text without a line break does not start with one when it is written. -/
private theorem head?_multilineCharacters {text : List Char} (noBreak : '\n' ∉ text)
    (rest : List Char) :
    (multilineCharacters 0 text ++ '"' :: rest).head? ≠ some '\n' ∧
      (multilineCharacters 0 text ++ '"' :: rest).head? ≠ some '\r' := by
  cases text with
  | nil => simp [multilineCharacters]
  | cons character text =>
      simp only [List.mem_cons, not_or] at noBreak
      by_cases quote : character = '"'
      · simp [multilineCharacters, quote]
      · have notBreak : character ≠ '\n' := Ne.symm noBreak.1
        have spelled := spells_escapedCharacter quote
        simp only [multilineCharacters, quote, notBreak, if_false]
        generalize escapedCharacter character = written at spelled
        cases spelled with
        | short => simp
        | coded => simp
        | itself printable =>
            have notReturn := ne_return_of_plain (.inr printable)
            simp [notBreak, notReturn]

theorem string?_multilineBasicText (text rest : List Char) :
    string? (multilineBasicText text ++ '\n' :: rest) = some (text, '\n' :: rest) := by
  have opened := dropLineBreak_openingBreak text _
    fun noBreak => head?_multilineCharacters noBreak ('"' :: '"' :: '\n' :: rest)
  have noQuote : ('\n' :: rest).head? ≠ some '"' := by simp
  have read := multilineBasic?_characters (Nat.zero_le 2) text noQuote
  simp [multilineBasicText, opened, read]

theorem string?_multilineLiteralText {text : List Char} (rest : List Char)
    (plain : ∀ character ∈ text, character = '\n' ∨ isPrintable character = true)
    (short : longestRun '\'' 0 text ≤ 2) :
    string? (multilineLiteralText text ++ '\n' :: rest) = some (text, '\n' :: rest) := by
  have opened : dropLineBreak (openingBreak text ++
      (text ++ '\'' :: '\'' :: '\'' :: '\n' :: rest)) =
      text ++ '\'' :: '\'' :: '\'' :: '\n' :: rest := by
    apply dropLineBreak_openingBreak text _
    intro noBreak
    cases text with
    | nil => simp
    | cons character text =>
        have itself := plain character List.mem_cons_self
        constructor
        · simpa using fun equal : character = '\n' => noBreak (by simp [equal])
        · simpa using ne_return_of_plain itself
  have noQuote : ('\n' :: rest).head? ≠ some '\'' := by simp
  have read := multilineLiteral?_characters plain short noQuote
  simp [multilineLiteralText, opened, read]

/-- A written string is read back, whatever its characters. -/
theorem string?_valueText (text rest : List Char) :
    string? (valueText text ++ '\n' :: rest) = some (text, '\n' :: rest) := by
  unfold valueText
  simp only []
  split
  · exact string?_basicText text rest
  split
  case isTrue chosen =>
    simp only [Bool.and_eq_true, List.all_eq_true, Bool.or_eq_true, Bool.not_eq_true',
      beq_iff_eq, bne_iff_ne] at chosen
    obtain ⟨⟨plain, noQuotes⟩, oneLine⟩ := chosen
    refine string?_literalText rest (fun character member => ?_)
      (not_mem_of_longestRun noQuotes)
    exact isPrintable_iff.mpr
      ((plain character member).resolve_right (oneLine character member))
  split
  · exact string?_multilineBasicText text rest
  split
  case isTrue chosen =>
    simp only [Bool.and_eq_true, List.all_eq_true, Bool.or_eq_true, Bool.not_eq_true',
      beq_iff_eq, decide_eq_true_eq] at chosen
    refine string?_multilineLiteralText rest (fun character member => ?_) chosen.2
    exact (chosen.1 character member).symm.imp_right isPrintable_iff.mpr
  split
  · exact string?_basicText text rest
  · exact string?_multilineBasicText text rest

/-- A written string starts with a quote. -/
theorem exists_valueText (text : List Char) :
    (∃ tail, valueText text = '"' :: tail) ∨ ∃ tail, valueText text = '\'' :: tail := by
  have basic : ∃ tail, basicText text = '"' :: tail := ⟨_, rfl⟩
  have multiline : ∃ tail, multilineBasicText text = '"' :: tail := ⟨_, rfl⟩
  unfold valueText
  simp only []
  split
  · exact .inl basic
  split
  · exact .inr ⟨_, rfl⟩
  split
  · exact .inl multiline
  split
  · exact .inr ⟨_, rfl⟩
  split
  · exact .inl basic
  · exact .inl multiline

end DesignLayout.Toml
