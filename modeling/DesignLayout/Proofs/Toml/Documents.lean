import DesignLayout.Proofs.DistinctKeys
import DesignLayout.Proofs.Toml.Strings
import DesignLayout.Toml.Reader

/-!
# Written documents are read back

A document of sections with distinct names, each with distinct keys, is read
as the tables that it was written from, in the same order.  One line of the
text is one step of the reader.
-/

namespace DesignLayout.Toml

/-- What can stand first in a key: a quote, or a character that needs none. -/
private def opensKey (character : Char) : Bool :=
  character = '"' || character = '\'' || isBare character

private theorem opensKey_ne {head : Char} (opens : opensKey head = true) :
    head ≠ '[' ∧ head ≠ '\n' ∧ head ≠ '\r' ∧ head ≠ '#' ∧ isBlank head = false := by
  have apart {other : Char} (closed : opensKey other = false) : head ≠ other := by
    intro equal
    rw [equal, closed] at opens
    cases opens
  refine ⟨apart rfl, apart rfl, apart rfl, apart rfl,
    Bool.eq_false_of_not_eq_true fun blank => ?_⟩
  simp only [isBlank, Bool.or_eq_true, decide_eq_true_eq] at blank
  rcases blank with space | tab
  · exact apart rfl space
  · exact apart rfl tab

private theorem isBareKey_iff {text : List Char} :
    isBareKey text = true ↔ text ≠ [] ∧ ∀ character ∈ text, isBare character = true := by
  simp [isBareKey, isBare, List.all_eq_true]

private theorem exists_keyText (text : List Char) :
    ∃ head tail, keyText text = head :: tail ∧ opensKey head = true := by
  unfold keyText
  simp only []
  split
  case isTrue bare =>
    obtain ⟨notEmpty, bareCharacters⟩ := isBareKey_iff.mp bare
    obtain ⟨head, tail, rfl⟩ := List.exists_cons_of_ne_nil notEmpty
    exact ⟨head, tail, rfl, by simp [opensKey, bareCharacters head List.mem_cons_self]⟩
  split
  · exact ⟨'"', _, rfl, rfl⟩
  split
  · exact ⟨'\'', _, rfl, rfl⟩
  · exact ⟨'"', _, rfl, rfl⟩

theorem simpleKey?_basicText (text rest : List Char) :
    simpleKey? (basicText text ++ rest) = some (String.ofList text, rest) := by
  simp [basicText, simpleKey?, basic?_line]

/-- A written key is read back, where a character follows that no bare key
has. -/
theorem simpleKey?_keyText (text : List Char) (next : Char) (rest : List Char)
    (ends : isBare next = false) :
    simpleKey? (keyText text ++ next :: rest) = some (String.ofList text, next :: rest) := by
  unfold keyText
  simp only []
  split
  case isTrue bare =>
    obtain ⟨notEmpty, bareCharacters⟩ := isBareKey_iff.mp bare
    have taken : (text ++ next :: rest).takeWhile isBare = text := by
      rw [List.takeWhile_append_of_pos bareCharacters]
      simp [ends]
    have dropped : (text ++ next :: rest).dropWhile isBare = next :: rest := by
      rw [List.dropWhile_append_of_pos bareCharacters]
      simp [ends]
    obtain ⟨head, tail, rfl⟩ := List.exists_cons_of_ne_nil notEmpty
    have bareHead := bareCharacters head List.mem_cons_self
    have notQuote : head ≠ '"' := by
      intro equal
      subst equal
      exact absurd bareHead (by decide)
    have notApostrophe : head ≠ '\'' := by
      intro equal
      subst equal
      exact absurd bareHead (by decide)
    rw [List.cons_append] at taken dropped ⊢
    unfold simpleKey?
    split
    case h_1 quoted => exact absurd (List.cons.inj quoted).1 notQuote
    case h_2 quoted => exact absurd (List.cons.inj quoted).1 notApostrophe
    case h_3 => simp [List.span_eq_takeWhile_dropWhile, taken, dropped]
  split
  · exact simpleKey?_basicText text _
  split
  case isTrue literal =>
    simp only [Bool.and_eq_true, List.all_eq_true, Bool.not_eq_true', bne_iff_ne] at literal
    obtain ⟨plain, noQuote⟩ := literal
    have read := literal?_line (next :: rest)
      (fun character member => isPrintable_iff.mpr (plain character member))
      (fun member => noQuote _ member rfl)
    simp [literalText, simpleKey?, read]
  · exact simpleKey?_basicText text _

private theorem dropBlanks_keyText (text rest : List Char) :
    dropBlanks (keyText text ++ rest) = keyText text ++ rest := by
  obtain ⟨head, tail, written, opens⟩ := exists_keyText text
  simp [dropBlanks, written, (opensKey_ne opens).2.2.2.2]

/-- A key of one part, with a blank behind it. -/
theorem key?_beforeValue (parts : Nat) (text rest : List Char) :
    key? (parts + 1) (keyText text ++ ' ' :: '=' :: rest) =
      some ([String.ofList text], '=' :: rest) := by
  have read := simpleKey?_keyText text ' ' ('=' :: rest) (by decide)
  have passed : dropBlanks (' ' :: '=' :: rest) = '=' :: rest := by
    simp [dropBlanks, isBlank]
  simp [key?, dropBlanks_keyText, read, passed]

/-- A key of one part in the brackets of a header. -/
theorem key?_inHeader (parts : Nat) (text rest : List Char) :
    key? (parts + 1) (keyText text ++ ']' :: rest) =
      some ([String.ofList text], ']' :: rest) := by
  have read := simpleKey?_keyText text ']' rest (by decide)
  have kept : dropBlanks (']' :: rest) = ']' :: rest := by
    simp [dropBlanks, isBlank]
  simp [key?, dropBlanks_keyText, read, kept]

theorem value?_valueText (fuel depth : Nat) (text rest : List Char) :
    value? (fuel + 1) depth (valueText text ++ '\n' :: rest) =
      some (.string (String.ofList text), '\n' :: rest) := by
  have read := string?_valueText text rest
  rcases exists_valueText text with ⟨tail, written⟩ | ⟨tail, written⟩
  · rw [written] at read ⊢
    simp only [List.cons_append] at read
    simp [value?, read]
  · rw [written] at read ⊢
    simp only [List.cons_append] at read
    simp [value?, read]

private theorem endLine?_lineBreak (rest : List Char) :
    endLine? false ('\n' :: rest) = some rest := rfl

private theorem entryText_append (entry : String × String) (rest : List Char) :
    entryText entry ++ rest =
      keyText entry.1.toList ++ ' ' :: '=' :: ' ' :: (valueText entry.2.toList ++ '\n' :: rest) := by
  simp [entryText]

/-- A line that opens no header is a key with its value. -/
private theorem line?_of_noHeader (state : State) {head : Char} (tail : List Char)
    (noHeader : head ≠ '[') :
    line? state (head :: tail) = (do
      let (path, rest) ← key? (limit - 1) (head :: tail)
      let rest ← expect? '=' rest
      let (value, rest) ← value? (2 * rest.length + 2) (limit - 1) (dropBlanks rest)
      let rest ← endLine? false rest
      return (← state.addKey? path value, rest)) := by
  unfold line?
  split
  case h_1 header => exact absurd (List.cons.inj header).1 noHeader
  case h_2 header => exact absurd (List.cons.inj header).1 noHeader
  case h_3 => rfl

theorem line?_entryText (state : State) (entry : String × String) (rest : List Char) :
    line? state (entryText entry ++ rest) =
      (state.addKey? [entry.1] (.string entry.2)).map fun state => (state, rest) := by
  have kept : dropBlanks (' ' :: (valueText entry.2.toList ++ '\n' :: rest)) =
      valueText entry.2.toList ++ '\n' :: rest := by
    rcases exists_valueText entry.2.toList with ⟨tail, written⟩ | ⟨tail, written⟩ <;>
      simp [dropBlanks, isBlank, written]
  have key := key?_beforeValue (limit - 2) entry.1.toList
    (' ' :: (valueText entry.2.toList ++ '\n' :: rest))
  have value := fun fuel => value?_valueText (fuel + 1) (limit - 1) entry.2.toList rest
  rw [entryText_append]
  obtain ⟨head, tail, written, opens⟩ := exists_keyText entry.1.toList
  rw [written, List.cons_append] at key ⊢
  rw [line?_of_noHeader state _ (opensKey_ne opens).1]
  simp only [limit] at key value ⊢
  simp only [key, Option.bind_eq_bind, Option.bind_some, expect?, if_true, kept, value,
    endLine?_lineBreak, String.ofList_toList]
  cases state.addKey? [entry.1] (.string entry.2) <;> rfl

private theorem header_append (name : String) (rest : List Char) :
    '[' :: keyText name.toList ++ [']', '\n'] ++ rest =
      '[' :: (keyText name.toList ++ ']' :: '\n' :: rest) := by
  simp

theorem line?_header (state : State) (name : String) (rest : List Char) :
    line? state ('[' :: keyText name.toList ++ [']', '\n'] ++ rest) =
      (state.beginTable? [name]).map fun state => (state, rest) := by
  have key := key?_inHeader (limit - 2) name.toList ('\n' :: rest)
  rw [header_append]
  obtain ⟨head, tail, written, opens⟩ := exists_keyText name.toList
  rw [written, List.cons_append] at key ⊢
  have single := (opensKey_ne opens).1
  unfold line?
  split
  case h_1 double => exact absurd (List.cons.inj (List.cons.inj double).2).1 single
  case h_2 header =>
    obtain ⟨-, rfl⟩ := List.cons.inj header
    simp only [limit] at key ⊢
    simp only [key, Option.bind_eq_bind, Option.bind_some, expect?, if_true,
      endLine?_lineBreak, String.ofList_toList]
    cases state.beginTable? [name] <;> rfl
  case h_3 other => exact absurd rfl (other _)

attribute [local simp] dropTrivia?

private theorem dropTrivia?_key {head : Char} (opens : opensKey head = true)
    (tail : List Char) : dropTrivia? false (head :: tail) = some (head :: tail) := by
  obtain ⟨-, notBreak, notReturn, notComment, notBlank⟩ := opensKey_ne opens
  simp [notBreak, notReturn, notComment, notBlank]

/-- One line is one step, unless it is empty. -/
private theorem lines?_step (fuel : Nat) (state : State) {head : Char} (tail : List Char)
    (noTrivia : dropTrivia? false (head :: tail) = some (head :: tail)) :
    lines? (fuel + 1) state (head :: tail) =
      (line? state (head :: tail)).bind fun result => lines? fuel result.1 result.2 := by
  rw [lines?, noTrivia]
  rfl

private theorem lines?_emptyLine (fuel : Nat) (state : State) (rest : List Char) :
    lines? (fuel + 1) state ('\n' :: rest) = lines? (fuel + 1) state rest := by
  simp [lines?]

theorem lines?_entryText (fuel : Nat) (state : State) (entry : String × String)
    (rest : List Char) :
    lines? (fuel + 1) state (entryText entry ++ rest) =
      (state.addKey? [entry.1] (.string entry.2)).bind fun state => lines? fuel state rest := by
  have line := line?_entryText state entry rest
  rw [entryText_append] at line ⊢
  obtain ⟨head, tail, written, opens⟩ := exists_keyText entry.1.toList
  rw [written, List.cons_append] at line ⊢
  rw [lines?_step fuel state _ (dropTrivia?_key opens _), line, Option.bind_map]
  rfl

theorem lines?_header (fuel : Nat) (state : State) (name : String) (rest : List Char) :
    lines? (fuel + 1) state ('[' :: keyText name.toList ++ [']', '\n'] ++ rest) =
      (state.beginTable? [name]).bind fun state => lines? fuel state rest := by
  have line := line?_header state name rest
  rw [header_append] at line ⊢
  rw [lines?_step, line, Option.bind_map]
  · rfl
  · simp [isBlank]

/-- The string entries that a section stands for. -/
def stringEntries (entries : List (String × String)) : Entries :=
  entries.map fun entry => (entry.1, .string entry.2)

/-- The table that a section stands for, under its name. -/
def tableEntry (written : String × List (String × String)) : String × Toml :=
  (written.1, .table .header (stringEntries written.2))

private theorem add?_of_not_mem {key : String} (value : Toml) {entries : Entries}
    (fresh : key ∉ entries.map Prod.fst) :
    entries.add? key value = some (entries ++ [(key, value)]) := by
  have absent : entries.find? key = none := OrderedMap.lookup_eq_none_iff.mpr fresh
  simp [Entries.add?, absent]

/-- The entries of a section are added in their order. -/
theorem lines?_entries (fuel : Nat) (state : State) (entries : List (String × String))
    (rest : List Char)
    (distinct : (state.current.entries.map Prod.fst ++ entries.map Prod.fst).Nodup) :
    lines? (fuel + entries.length) state (entries.flatMap entryText ++ rest) =
      lines? fuel { state with
        current := { state.current with
          entries := state.current.entries ++ stringEntries entries } } rest := by
  induction entries generalizing state with
  | nil => simp [stringEntries]
  | cons entry entries ih =>
      have fresh : entry.1 ∉ state.current.entries.map Prod.fst := by
        intro member
        exact (List.nodup_append.mp distinct).2.2 entry.1 member entry.1 (by simp) rfl
      have added : state.addKey? [entry.1] (.string entry.2) = some { state with
          current := { state.current with
            entries := state.current.entries ++ [(entry.1, .string entry.2)] } } := by
        simp [State.addKey?, Entries.addKey?, Entries.addDotted?, add?_of_not_mem _ fresh]
      rw [List.flatMap_cons, List.append_assoc, List.length_cons, ← Nat.add_assoc,
        lines?_entryText, added, Option.bind_some, ih]
      · simp [stringEntries]
      · simpa [List.append_assoc] using distinct

theorem beginTable?_of_complete? {state : State} {root : Entries} {name : String}
    (completed : state.complete? = some root) (fresh : name ∉ root.map Prod.fst) :
    state.beginTable? [name] = some ⟨root, ⟨[name], false, []⟩⟩ := by
  have absent : root.find? name = none := OrderedMap.lookup_eq_none_iff.mpr fresh
  have kept : root.erase name = root := by
    apply List.filter_eq_self.mpr
    intro entry member
    exact bne_iff_ne.mpr fun equal => fresh (equal ▸ List.mem_map_of_mem member)
  simp [State.beginTable?, completed, State.parentOf?, State.implied?, absent,
    Entries.descend?, kept]

/-- A section is read as one more table behind those that are complete. -/
theorem lines?_sectionText (fuel : Nat) {state : State} {root : Entries}
    (completed : state.complete? = some root) (written : String × List (String × String))
    (rest : List Char) (fresh : written.1 ∉ root.map Prod.fst)
    (distinct : (written.2.map Prod.fst).Nodup) :
    ∃ after : State,
      lines? (fuel + written.2.length + 1) state (sectionText written.1 written.2 ++ rest) =
        lines? fuel after rest ∧
      after.complete? = some (root ++ [tableEntry written]) := by
  refine ⟨⟨root, ⟨[written.1], false, stringEntries written.2⟩⟩, ?_, ?_⟩
  · rw [sectionText, List.append_assoc, lines?_header,
      beginTable?_of_complete? completed fresh, Option.bind_some, lines?_entries]
    · rfl
    · simpa using distinct
  · simp [State.complete?, Entries.descend?, add?_of_not_mem _ fresh, tableEntry]

/-- The number of lines that are not empty. -/
def lineCount (sections : List (String × List (String × String))) : Nat :=
  (sections.map fun written => written.2.length + 1).sum

private theorem documentText_cons (written : String × List (String × String))
    (sections : List (String × List (String × String))) :
    documentText (written :: sections) = sectionText written.1 written.2 ++
      if sections = [] then [] else '\n' :: documentText sections := by
  cases sections with
  | nil => simp [documentText]
  | cons next sections => simp [documentText, List.intercalate]

/-- The sections of a document are read as one table after the other. -/
theorem lines?_documentText {fuel : Nat} {state : State} {root : Entries}
    {sections : List (String × List (String × String))}
    (enough : lineCount sections < fuel) (completed : state.complete? = some root)
    (distinctNames : (root.map Prod.fst ++ sections.map Prod.fst).Nodup)
    (distinctKeys : ∀ written ∈ sections, (written.2.map Prod.fst).Nodup) :
    ∃ after : State, lines? fuel state (documentText sections) = some after ∧
      after.complete? = some (root ++ sections.map tableEntry) := by
  induction sections generalizing fuel state root with
  | nil =>
      obtain ⟨fuel, rfl⟩ := Nat.exists_eq_add_one_of_ne_zero (Nat.ne_zero_of_lt enough)
      exact ⟨state, by simp [documentText, lines?], by simpa using completed⟩
  | cons written sections ih =>
      simp only [lineCount, List.map_cons, List.sum_cons] at enough
      obtain ⟨rest, rfl⟩ :=
        Nat.exists_eq_add_of_lt (show written.2.length + 1 < fuel by omega)
      have fresh : written.1 ∉ root.map Prod.fst := by
        intro member
        exact (List.nodup_append.mp distinctNames).2.2 _ member _ (by simp) rfl
      obtain ⟨after, read, next⟩ := lines?_sectionText (rest + 1) completed written
        (if sections = [] then [] else '\n' :: documentText sections) fresh
        (distinctKeys written List.mem_cons_self)
      have remaining : lineCount sections < rest + 1 := by
        simp only [lineCount]
        omega
      obtain ⟨last, lastRead, lastCompleted⟩ := ih remaining next
        (by simpa [tableEntry] using distinctNames)
        fun other member => distinctKeys other (List.mem_cons_of_mem _ member)
      refine ⟨last, ?_, by simpa using lastCompleted⟩
      have count : written.2.length + 1 + rest + 1 = rest + 1 + written.2.length + 1 := by
        omega
      rw [documentText_cons, count, read]
      split
      case isTrue none =>
        rw [none] at lastRead
        exact lastRead
      case isFalse => rw [lines?_emptyLine, lastRead]

private theorem length_sectionText (name : String) (entries : List (String × String)) :
    entries.length + 1 ≤ (sectionText name entries).length := by
  have lines : entries.length ≤ (entries.flatMap entryText).length := by
    induction entries with
    | nil => exact Nat.le_refl 0
    | cons entry entries ih =>
        simp only [List.length_cons, List.flatMap_cons, List.length_append, entryText]
        omega
  simp only [sectionText, List.length_append, List.length_cons]
  omega

private theorem lineCount_le (sections : List (String × List (String × String))) :
    lineCount sections ≤ (documentText sections).length := by
  induction sections with
  | nil => exact Nat.zero_le _
  | cons written sections ih =>
      have lines := length_sectionText written.1 written.2
      have count : lineCount (written :: sections) =
          written.2.length + 1 + lineCount sections := by
        simp [lineCount]
      rw [documentText_cons, count, List.length_append]
      split
      case isTrue none =>
        subst none
        exact Nat.add_le_add lines (Nat.zero_le _)
      case isFalse => exact Nat.add_le_add lines (ih.trans (Nat.le_succ _))

private theorem dropByteOrderMark_documentText
    (sections : List (String × List (String × String))) :
    dropByteOrderMark (documentText sections) = documentText sections := by
  cases sections with
  | nil => rfl
  | cons written sections => rw [documentText_cons]; rfl

/-- A written document is read as the tables of its sections, except where a
table stands for a date. -/
theorem read?_documentText (sections : List (String × List (String × String)))
    (distinctNames : (sections.map Prod.fst).Nodup)
    (distinctKeys : ∀ written ∈ sections, (written.2.map Prod.fst).Nodup) :
    read? (String.ofList (documentText sections)) =
      settleEntries? (sections.map tableEntry) := by
  obtain ⟨after, read, completed⟩ := lines?_documentText
    (Nat.lt_succ_of_le (lineCount_le sections)) (show State.start.complete? = some [] from rfl)
    (by simpa using distinctNames) distinctKeys
  simp [read?, dropByteOrderMark_documentText, read, completed]

private theorem tableEntry_injective : Function.Injective tableEntry := by
  intro written other same
  simp only [tableEntry, Prod.mk.injEq, Toml.table.injEq, true_and] at same
  have injective : Function.Injective fun entry : String × String =>
      (entry.1, Toml.string entry.2) := by
    intro entry another equal
    simpa [Prod.ext_iff] using equal
  exact Prod.ext same.1 (List.map_injective_iff.mpr injective same.2)

/-- A document has one list of sections: reading it before tables are taken
for dates gives them all. -/
theorem documentText_injective {sections others : List (String × List (String × String))}
    (distinctNames : (sections.map Prod.fst).Nodup)
    (distinctKeys : ∀ written ∈ sections, (written.2.map Prod.fst).Nodup)
    (otherNames : (others.map Prod.fst).Nodup)
    (otherKeys : ∀ written ∈ others, (written.2.map Prod.fst).Nodup)
    (same : documentText sections = documentText others) : sections = others := by
  have started : State.start.complete? = some [] := rfl
  have enough : lineCount sections < lineCount sections + lineCount others + 1 := by omega
  have otherEnough : lineCount others < lineCount sections + lineCount others + 1 := by omega
  obtain ⟨after, read, completed⟩ :=
    lines?_documentText enough started (by simpa using distinctNames) distinctKeys
  obtain ⟨last, lastRead, lastCompleted⟩ :=
    lines?_documentText otherEnough started (by simpa using otherNames) otherKeys
  rw [same, lastRead] at read
  cases read
  rw [completed] at lastCompleted
  have tables : sections.map tableEntry = others.map tableEntry := by
    simpa using lastCompleted
  exact List.map_injective_iff.mpr tableEntry_injective tables

end DesignLayout.Toml
