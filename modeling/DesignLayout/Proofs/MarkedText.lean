import DesignLayout.Proofs.CodeJoining
import DesignLayout.Proofs.Outcomes
import DesignLayout.Proofs.TokenRecord

/-!
# Marked text is read back

Cutting marked text at its markers gives in turn the text and the record
between two markers, because neither contains one.  Reading those parts puts
the code together again, joined as it was.
-/

namespace DesignLayout

namespace Code

/-- Code that is put together by the operations of the library. -/
inductive Built : Code → Prop where
  | empty : Built empty
  | ofText (content : String) : Built (ofText content)
  | ofToken (token : Token) : Built (ofToken token)
  | addText {code : Code} (content : String) : Built code → Built (code.addText content)
  | addToken {code : Code} (token : Token) : Built code → Built (code.addToken token)
  | append {code other : Code} : Built code → Built other → Built (code ++ other)
  | read {text : String} {code : Code} : readMarked text = .ok code → Built code

theorem joined_of_addParts {code result : Code} {parts : List (List Char)}
    (joined : code.Joined) (added : code.addParts parts = .ok result) : result.Joined := by
  fun_induction addParts code parts with
  | case1 code =>
      cases added
      exact joined
  | case2 code text =>
      cases added
      exact (joined_ofText _).append
  | case3 code text record rest token decoded ih =>
      exact ih (joined_ofToken token).append added
  | case4 => cases added

theorem Built.joined {code : Code} (built : code.Built) : code.Joined := by
  induction built with
  | empty => exact joined_empty
  | ofText content => exact joined_ofText content
  | ofToken token => exact joined_ofToken token
  | addText content => exact (joined_ofText content).append
  | addToken token => exact (joined_ofToken token).append
  | append _ _ _ otherJoined => exact otherJoined.append
  | read result =>
      rw [readMarked] at result
      split at result
      · cases result
      · exact joined_of_addParts joined_empty result

end Code

theorem markerParts_ne_nil (text : List Char) : markerParts text ≠ [] := by
  cases text with
  | nil => simp [markerParts]
  | cons character rest =>
      rw [markerParts]
      split
      · simp
      · split <;> simp

/-- Text without a marker belongs to the first part. -/
theorem markerParts_append {text : List Char} (clean : marker ∉ text) (rest : List Char) :
    markerParts (text ++ rest) = (markerParts rest).modifyHead (text ++ ·) := by
  obtain ⟨part, parts, cut⟩ := List.exists_cons_of_ne_nil (markerParts_ne_nil rest)
  rw [cut, List.modifyHead_cons]
  induction text with
  | nil => exact cut
  | cons character text ih =>
      simp only [List.mem_cons, not_or] at clean
      rw [List.cons_append, markerParts, if_neg (Ne.symm clean.1), ih clean.2]
      rfl

namespace Piece

/-- What stands for a piece in marked text that has no clash. -/
def markedCharacters : Piece → List Char
  | .text content => content.toList
  | .token entry => entry.marked

/-- The parts that lie between the markers of marked pieces. -/
def parts : List Piece → List (List Char)
  | [] => [[]]
  | .text content :: rest => (parts rest).modifyHead (content.toList ++ ·)
  | .token entry :: rest => [] :: entry.record :: parts rest

variable {pieces : List Piece}

theorem markerParts_flatMap
    (clean : ∀ content, .text content ∈ pieces → marker ∉ content.toList) :
    markerParts (pieces.flatMap markedCharacters) = parts pieces := by
  induction pieces with
  | nil => rfl
  | cons piece rest ih =>
      have later := ih fun content member => clean content (List.mem_cons_of_mem _ member)
      cases piece with
      | text content =>
          rw [List.flatMap_cons, markedCharacters,
            markerParts_append (clean content List.mem_cons_self), later, parts]
      | token entry =>
          have opened : markerParts (marker :: (entry.record ++
              marker :: rest.flatMap markedCharacters)) =
              [] :: markerParts (entry.record ++ marker :: rest.flatMap markedCharacters) := by
            rw [markerParts, if_pos rfl]
          have closed : markerParts (marker :: rest.flatMap markedCharacters) =
              [] :: parts rest := by
            rw [markerParts, if_pos rfl, later]
          have written : (.token entry :: rest).flatMap markedCharacters =
              marker :: (entry.record ++ marker :: rest.flatMap markedCharacters) := by
            simp [markedCharacters, Token.marked]
          rw [written, opened, markerParts_append (marker_not_mem_record entry), closed]
          simp [parts]

theorem mapM_marked_of_clean
    (clean : ∀ content, .text content ∈ pieces → marker ∉ content.toList) :
    pieces.mapM marked = .ok (pieces.map markedCharacters) := by
  apply mapM_eq_ok
  intro piece member
  cases piece with
  | text content => exact if_neg (clean content member)
  | token entry => rfl

/-- Marking stops at the first text that contains the marker. -/
theorem mapM_marked_of_clash {before after : List Piece} {content : String}
    (clean : ∀ earlier, .text earlier ∈ before → marker ∉ earlier.toList)
    (clash : marker ∈ content.toList) :
    (before ++ .text content :: after).mapM marked = .error (.collision content) := by
  have refused : (Piece.text content).marked = .error (.collision content) := if_pos clash
  rw [List.mapM_append, mapM_marked_of_clean clean, List.mapM_cons, refused]
  rfl

theorem clean_or_clash (pieces : List Piece) :
    (∀ content, .text content ∈ pieces → marker ∉ content.toList) ∨
      ∃ before content after, pieces = before ++ .text content :: after ∧
        (∀ earlier, .text earlier ∈ before → marker ∉ earlier.toList) ∧
        marker ∈ content.toList := by
  induction pieces with
  | nil => exact Or.inl (by simp)
  | cons piece rest ih =>
      by_cases first : ∀ content, piece = .text content → marker ∉ content.toList
      · rcases ih with clean | ⟨before, content, after, split, clean, clash⟩
        · apply Or.inl
          intro content member
          rcases List.mem_cons.mp member with same | later
          · exact first content same.symm
          · exact clean content later
        · refine Or.inr ⟨piece :: before, content, after, by simp [split], ?_, clash⟩
          intro earlier member
          rcases List.mem_cons.mp member with same | later
          · exact first earlier same.symm
          · exact clean earlier later
      · push Not at first
        obtain ⟨content, rfl, clash⟩ := first
        exact Or.inr ⟨[], content, rest, rfl, by simp, clash⟩

/-- The number of parts is odd, as records are closed. -/
theorem length_parts (pieces : List Piece) : (parts pieces).length % 2 = 1 := by
  induction pieces with
  | nil => rfl
  | cons piece rest ih =>
      cases piece with
      | text content => simpa [parts] using ih
      | token entry =>
          simp only [parts, List.length_cons]
          omega

end Piece

namespace Code

theorem addParts_modifyHead (code : Code) (content : String) {parts : List (List Char)}
    (nonempty : parts ≠ []) :
    code.addParts (parts.modifyHead (content.toList ++ ·)) =
      (code.addText content).addParts parts := by
  have joinedText : ∀ text : List Char,
      code.addText (String.ofList (content.toList ++ text)) =
        (code.addText content).addText (String.ofList text) := by
    intro text
    rw [String.ofList_append, String.ofList_toList]
    simp only [addText]
    rw [ofText_append_ofText, append_assoc]
  match parts with
  | [] => exact absurd rfl nonempty
  | [text] => simp only [List.modifyHead_cons, addParts, joinedText]
  | text :: record :: rest => simp only [List.modifyHead_cons, addParts, joinedText]

theorem addText_empty {code : Code} (joined : code.Joined) : code.addText "" = code :=
  joined.append_empty

/-- Adding the parts of pieces adds the pieces, joined. -/
theorem addParts_parts {code : Code} (joined : code.Joined) (pieces : List Piece) :
    code.addParts (Piece.parts pieces) = .ok (code ++ ⟨pieces.foldr Piece.before []⟩) := by
  induction pieces generalizing code with
  | nil =>
      rw [Piece.parts, addParts]
      rfl
  | cons piece rest ih =>
      cases piece with
      | text content =>
          have nonempty : Piece.parts rest ≠ [] := by
            intro none
            have odd := Piece.length_parts rest
            rw [none] at odd
            cases odd
          have added : (code.addText content).Joined := (joined_ofText content).append
          rw [Piece.parts, addParts_modifyHead code content nonempty, ih added, addText,
            append_assoc, ofText_append]
          rfl
      | token entry =>
          have added : (code.addToken entry).Joined := (joined_ofToken entry).append
          rw [Piece.parts, addParts, Token.ofRecord?_record]
          show ((code.addText "").addToken entry).addParts (Piece.parts rest) = _
          rw [addText_empty joined, ih added, addToken, append_assoc, ofToken_append]
          rfl

theorem markedText_of_clean {code : Code}
    (clean : ∀ content, .text content ∈ code.pieces → marker ∉ content.toList) :
    code.markedText = .ok (String.ofList (code.pieces.flatMap Piece.markedCharacters)) := by
  rw [markedText, Piece.mapM_marked_of_clean clean, List.flatMap_def]
  rfl

theorem readMarked_markedText {code : Code} (joined : code.Joined)
    (clean : ∀ content, .text content ∈ code.pieces → marker ∉ content.toList) :
    readMarked (String.ofList (code.pieces.flatMap Piece.markedCharacters)) = .ok code := by
  have odd : ¬ (Piece.parts code.pieces).length % 2 = 0 := by
    rw [Piece.length_parts]
    decide
  rw [readMarked, String.toList_ofList, Piece.markerParts_flatMap clean]
  show (if _ then _ else _) = _
  rw [if_neg odd, addParts_parts joined_empty, empty_append, joined.foldr_before]

theorem displayMarked_of_readMarked {m : Type → Type} [Monad m] [LawfulMonad m] {text : String}
    {code : Code} (read : readMarked text = .ok code) (display : Token → m String) :
    displayMarked text display = ExceptT.lift (code.displayM display) := by
  rw [displayMarked, read]
  show (pure (.ok code) : m (Except MarkerFault Code)) >>=
    ExceptT.bindCont (fun code => ExceptT.lift (code.displayM display)) = _
  rw [pure_bind]
  rfl

/-- Marked text is refused at the first text that contains the marker, and
no other code is refused.  What is written is read back as the same code, and
it is shown as the code is, whatever the display does between tokens. -/
theorem markedText_codec {code : Code} (built : code.Built) :
    ((∃ fault, code.markedText = .error fault) ↔
      ∃ content, .text content ∈ code.pieces ∧ marker ∈ content.toList) ∧
    (∀ fault, code.markedText = .error fault →
      ∃ before content after, code.pieces = before ++ .text content :: after ∧
        (∀ earlier, .text earlier ∈ before → marker ∉ earlier.toList) ∧
        marker ∈ content.toList ∧ fault = .collision content) ∧
    ∀ text, code.markedText = .ok text →
      readMarked text = .ok code ∧
      (∀ (m : Type → Type) [Monad m] [LawfulMonad m] (display : Token → m String),
        displayMarked text display = ExceptT.lift (code.displayM display)) ∧
      ∀ table showValues,
        Id.run (displayMarked text fun token => pure (display table showValues token)).run =
          .ok (code.sourceText table showValues) := by
  rcases Piece.clean_or_clash code.pieces with
    clean | ⟨before, content, after, split, clean, clash⟩
  · have written := markedText_of_clean clean
    have read := readMarked_markedText built.joined clean
    refine ⟨⟨?_, ?_⟩, ?_, ?_⟩
    · intro given
      obtain ⟨fault, refused⟩ := given
      rw [written] at refused
      cases refused
    · intro given
      obtain ⟨content, member, clash⟩ := given
      exact absurd clash (clean content member)
    · intro fault refused
      rw [written] at refused
      cases refused
    · intro text marked
      rw [written] at marked
      cases marked
      refine ⟨read, fun m _ _ display => displayMarked_of_readMarked read display, ?_⟩
      intro table showValues
      rw [displayMarked_of_readMarked (m := Id) read]
      rfl
  · have refused : code.markedText = .error (.collision content) := by
      rw [markedText, split, Piece.mapM_marked_of_clash clean clash]
      rfl
    refine ⟨⟨?_, ?_⟩, ?_, ?_⟩
    · intro _
      refine ⟨content, ?_, clash⟩
      rw [split]
      exact List.mem_append_right before List.mem_cons_self
    · intro _
      exact ⟨_, refused⟩
    · intro fault failed
      rw [refused] at failed
      cases failed
      exact ⟨before, content, after, split, clean, clash, rfl⟩
    · intro text marked
      rw [refused] at marked
      cases marked

/-- Two tokens side by side, with the marker in a name and in a value; the
display counts what it shows. -/
theorem markedText_codec_adjacentTokens : ∃ code text,
    code = ⟨[.token ⟨7, "edge\x0f\"", "\\", .color⟩, .token ⟨-1, "", "\x0f1.dp", .padding⟩,
      .text ")\n"]⟩ ∧
    code.markedText = .ok text ∧ readMarked text = .ok code ∧
    ∀ display : Token → StateM Nat String,
      displayMarked text display = ExceptT.lift (code.displayM display) := by
  have built : Built ⟨[.token ⟨7, "edge\x0f\"", "\\", .color⟩,
      .token ⟨-1, "", "\x0f1.dp", .padding⟩, .text ")\n"]⟩ :=
    .addText ")\n" (.addToken ⟨-1, "", "\x0f1.dp", .padding⟩
      (.ofToken ⟨7, "edge\x0f\"", "\\", .color⟩))
  obtain ⟨refused, -, accepted⟩ := markedText_codec built
  cases marked : markedText _ with
  | error fault =>
      obtain ⟨content, member, clash⟩ := refused.mp ⟨fault, marked⟩
      have only : content = ")\n" := by simpa using member
      rw [only] at clash
      exact absurd clash (by decide)
  | ok text =>
      obtain ⟨read, shown, -⟩ := accepted text marked
      exact ⟨_, text, rfl, marked, read, fun display => shown _ display⟩

end Code

end DesignLayout
