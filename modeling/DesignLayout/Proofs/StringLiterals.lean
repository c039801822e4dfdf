import DesignLayout.Proofs.LiteralScanning

/-!
# String literals denote their texts

Reading a string literal takes each backslash with the mark behind it, from left
to right.  What is written for a text is read as the text, character by
character, and no quote, dollar sign or break of a line is left bare in it.
-/

namespace DesignLayout.Source

/-- The character that an escape stands for, by the mark behind its backslash. -/
def marked? : Char → Option Char
  | '\\' => some '\\'
  | '"' => some '"'
  | '$' => some '$'
  | 'n' => some '\n'
  | 'r' => some '\r'
  | 't' => some '\t'
  | _ => none

/-- Reads what stands between the quotes of a string literal, from left to right.
Every backslash has to begin an escape. -/
def unescaped? : List Char → Option (List Char)
  | [] => some []
  | ['\\'] => none
  | '\\' :: mark :: rest => do
    let character ← marked? mark
    return character :: (← unescaped? rest)
  | character :: rest => do return character :: (← unescaped? rest)

section reading

/-- A character is written as itself or as an escape. -/
theorem escapedCharacter_cases (character : Char) :
    (∃ mark, escapedCharacter character = ['\\', mark] ∧ marked? mark = some character) ∨
      escapedCharacter character = [character] ∧ character ≠ '\\' ∧ character ∉ ['"', '$'] := by
  unfold escapedCharacter
  split_ifs with backslash quote dollar newline carriage tab
  · exact .inl ⟨_, rfl, by rw [backslash]; rfl⟩
  · exact .inl ⟨_, rfl, by rw [quote]; rfl⟩
  · exact .inl ⟨_, rfl, by rw [dollar]; rfl⟩
  · exact .inl ⟨_, rfl, by rw [newline]; rfl⟩
  · exact .inl ⟨_, rfl, by rw [carriage]; rfl⟩
  · exact .inl ⟨_, rfl, by rw [tab]; rfl⟩
  · exact .inr ⟨rfl, backslash, by simp [quote, dollar]⟩

theorem unescaped?_append (character : Char) (rest : List Char) :
    unescaped? (escapedCharacter character ++ rest) =
      (unescaped? rest).map (character :: ·) := by
  rcases escapedCharacter_cases character with ⟨mark, written, means⟩ | ⟨written, plain, -⟩
  · rw [written, List.cons_append, List.cons_append, List.nil_append, unescaped?, means]
    cases unescaped? rest <;> rfl
  · rw [written, List.singleton_append, unescaped?]
    · cases unescaped? rest <;> rfl
    · exact fun same _ => plain same
    · exact fun _ _ same _ => plain same

/-- What is written for a text is read as the text. -/
theorem unescaped?_escaped (characters : List Char) :
    unescaped? (characters.flatMap escapedCharacter) = some characters := by
  induction characters with
  | nil => rfl
  | cons character rest ih => rw [List.flatMap_cons, unescaped?_append, ih, Option.map_some]

end reading

/-- Where a quote or a dollar sign is written, it ends the escape that stands for
it. -/
theorem mark_escapedCharacter {character mark : Char} {before after : List Char}
    (isMark : mark ∈ ['"', '$'])
    (written : escapedCharacter character = before ++ mark :: after) :
    before = ['\\'] ∧ character = mark ∧ after = [] := by
  rcases escapedCharacter_cases character with ⟨other, escape, means⟩ | ⟨itself, -, bare⟩
  · rw [escape] at written
    rcases List.cons_eq_append_iff.mp written with ⟨rfl, first⟩ | ⟨more, rfl, second⟩
    · obtain ⟨rfl, -⟩ := List.cons.inj first
      exact absurd isMark (by decide)
    · rcases List.cons_eq_append_iff.mp second with ⟨rfl, same⟩ | ⟨rest, -, none⟩
      · obtain ⟨rfl, rfl⟩ := List.cons.inj same
        refine ⟨rfl, ?_, rfl⟩
        rcases List.mem_pair.mp isMark with rfl | rfl <;> exact (Option.some.inj means).symm
      · simp at none
  · rw [itself] at written
    rcases List.cons_eq_append_iff.mp written with ⟨-, same⟩ | ⟨rest, -, none⟩
    · obtain ⟨rfl, -⟩ := List.cons.inj same
      exact absurd isMark bare
    · simp at none

/-- A written quote or dollar sign is one of the text, with a backslash before it
that begins an escape. -/
theorem exists_of_written_mark {mark : Char} (isMark : mark ∈ ['"', '$'])
    {characters before after : List Char}
    (written : characters.flatMap escapedCharacter = before ++ mark :: after) :
    ∃ earlier later, characters = earlier ++ mark :: later ∧
      before = earlier.flatMap escapedCharacter ++ ['\\'] ∧
      after = later.flatMap escapedCharacter := by
  induction characters generalizing before with
  | nil => simp at written
  | cons character rest ih =>
      rw [List.flatMap_cons] at written
      rcases List.append_eq_append_iff.mp written with
        ⟨others, rfl, later⟩ | ⟨others, first, later⟩
      · obtain ⟨earlier, behind, rfl, rfl, same⟩ := ih later
        exact ⟨character :: earlier, behind, rfl, by rw [List.flatMap_cons, List.append_assoc],
          same⟩
      · cases others with
        | nil =>
            rw [List.append_nil] at first
            obtain ⟨earlier, behind, rfl, same, ends⟩ := @ih [] later.symm
            exact absurd same (by simp)
        | cons next others =>
            obtain ⟨rfl, same⟩ := List.cons.inj later
            obtain ⟨rfl, rfl, rfl⟩ := mark_escapedCharacter isMark first
            exact ⟨[], rest, rfl, rfl, same⟩

/-- What is written for a text has no bare line break, tab, quote or dollar sign: the
backslash before a quote or a dollar sign is read as the start of an escape, as the
text before it is read by itself.  All of it is read as the text.  So different texts
are written differently, and texts are written one after the other. -/
theorem escaped_denotes :
    (∀ text, ∀ character ∈ ['\n', '\r', '\t'], character ∉ (escaped text).toList) ∧
    (∀ text, ∀ mark ∈ ['"', '$'], ∀ before after,
      (escaped text).toList = before ++ mark :: after →
      ∃ front earlier later, before = front ++ ['\\'] ∧
        text.toList = earlier ++ mark :: later ∧
        unescaped? front = some earlier ∧ unescaped? after = some later) ∧
    (∀ text, unescaped? (escaped text).toList = some text.toList) ∧
    Function.Injective escaped ∧
    ∀ left right, escaped (left ++ right) = escaped left ++ escaped right := by
  have read : ∀ text, unescaped? (escaped text).toList = some text.toList := by
    intro text
    rw [toList_escaped, unescaped?_escaped]
  refine ⟨?_, ?_, read, ?_, ?_⟩
  · intro text character broken member
    have apart : character ∉ ['\\', '"', '$', 'n', 'r', 't'] := by
      simp only [List.mem_cons, List.not_mem_nil, or_false] at broken
      rcases broken with rfl | rfl | rfl <;> decide
    exact ((mem_escaped apart text).mp member).2 broken
  · intro text mark isMark before after written
    rw [toList_escaped] at written
    obtain ⟨earlier, later, split, rfl, rfl⟩ := exists_of_written_mark isMark written
    exact ⟨earlier.flatMap escapedCharacter, earlier, later, rfl, split,
      unescaped?_escaped earlier, unescaped?_escaped later⟩
  · intro left right same
    have sameRead := congrArg (fun text => unescaped? text.toList) same
    simp only [read, Option.some.injEq] at sameRead
    exact String.toList_injective sameRead
  · intro left right
    apply String.toList_injective
    simp only [String.toList_append, toList_escaped, List.flatMap_append]

/-- Backslashes before a quote and a dollar sign: the third backslash begins the escape
of the quote, and the text is read back. -/
theorem escaped_denotes_backslashes :
    (escaped "\\\"$\n").toList = ['\\', '\\', '\\'] ++ '"' :: ['\\', '$', '\\', 'n'] ∧
    (∃ front earlier later, ['\\', '\\', '\\'] = front ++ ['\\'] ∧
      "\\\"$\n".toList = earlier ++ '"' :: later ∧
      unescaped? front = some earlier ∧ unescaped? ['\\', '$', '\\', 'n'] = some later) ∧
    '\n' ∉ (escaped "\\\"$\n").toList := by
  obtain ⟨broken, marks, -⟩ := escaped_denotes
  have written : (escaped "\\\"$\n").toList =
      ['\\', '\\', '\\'] ++ '"' :: ['\\', '$', '\\', 'n'] := by
    decide
  exact ⟨written, marks _ '"' (by decide) _ _ written, broken _ '\n' (by decide)⟩

end DesignLayout.Source
