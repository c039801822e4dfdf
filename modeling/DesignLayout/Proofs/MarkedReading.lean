import DesignLayout.Proofs.MarkedText

/-!
# Which texts are marked text

A text is cut at its markers, and every second part is a record.  The text is read
if every record is closed and stands for a token, and then the code has the tokens
and the texts of the parts in their order.  An open record is reported before any
other fault, and of the others the first one in the text.
-/

namespace DesignLayout

section cutting

theorem markerParts_eq_splitOn (text : List Char) : markerParts text = text.splitOn marker := by
  induction text with
  | nil => rfl
  | cons character rest ih =>
      rw [markerParts, List.splitOn_cons_eq_if_modifyHead, ← ih]
      by_cases same : character = marker
      · rw [if_pos same, if_pos (beq_iff_eq.mpr same)]
      · obtain ⟨part, parts, cut⟩ := List.exists_cons_of_ne_nil (markerParts_ne_nil rest)
        rw [if_neg same, if_neg (mt beq_iff_eq.mp same), cut]
        rfl

/-- There is one part more than there are markers. -/
theorem length_splitOn_marker (text : List Char) :
    (text.splitOn marker).length = text.count marker + 1 := by
  induction text with
  | nil => rfl
  | cons character rest ih =>
      rw [List.splitOn_cons_eq_if_modifyHead, List.count_cons]
      split
      · rw [List.length_cons, ih]
      · rw [List.length_modifyHead, ih]

theorem marker_not_mem_of_splitOn {text part : List Char} (member : part ∈ text.splitOn marker) :
    marker ∉ part := by
  induction text generalizing part with
  | nil =>
      rw [List.splitOn_nil, List.mem_singleton] at member
      simp [member]
  | cons character rest ih =>
      rw [List.splitOn_cons_eq_if_modifyHead] at member
      split at member
      case isTrue =>
        rcases List.mem_cons.mp member with rfl | later
        · simp
        · exact ih later
      case isFalse other =>
        obtain ⟨first, others, cut⟩ := List.exists_cons_of_ne_nil (List.splitOn_ne_nil marker rest)
        rw [cut, List.modifyHead_cons] at member
        rw [cut] at ih
        rcases List.mem_cons.mp member with rfl | later
        · have different : marker ≠ character := fun same => other (beq_iff_eq.mpr same.symm)
          exact List.not_mem_cons_of_ne_of_not_mem different (ih List.mem_cons_self)
        · exact ih (List.mem_cons_of_mem _ later)

theorem exists_after_last {text : List Char} (marked : marker ∈ text) :
    ∃ before after, text = before ++ marker :: after ∧ marker ∉ after := by
  obtain ⟨after, before, reversed, clean⟩ :=
    List.eq_append_cons_of_mem (List.mem_reverse.mpr marked)
  refine ⟨before.reverse, after.reverse, ?_, mt List.mem_reverse.mp clean⟩
  rw [← List.reverse_reverse text, reversed]
  simp

/-- The last part is what follows the last marker. -/
theorem getLastD_splitOn (before : List Char) {after : List Char} (clean : marker ∉ after) :
    ((before ++ marker :: after).splitOn marker).getLastD [] = after := by
  rw [List.splitOn_append_cons_self, List.splitOn_eq_singleton clean, List.getLastD_concat]

end cutting

/-- Every second item of a list, without the first. -/
def everySecond {α : Type} : List α → List α
  | _ :: item :: rest => item :: everySecond rest
  | _ => []

/-- What a part of marked text is read as at its place.  At the odd places are the
records, at the others the texts, of which empty ones are nothing. -/
def Piece.ofPart? (part : List Char × Nat) : Option Piece :=
  if part.2 % 2 = 0 then
    if part.1.isEmpty then none else some (.text (String.ofList part.1))
  else (Token.ofRecord? part.1).map .token

theorem Piece.filterMap_ofPart?_zipIdx (parts : List (List Char)) (place : Nat) :
    (parts.zipIdx (place + 2)).filterMap ofPart? = (parts.zipIdx place).filterMap ofPart? := by
  rw [List.zipIdx_succ, List.zipIdx_succ, List.map_map, List.filterMap_map]
  congr 1
  funext part
  simp [ofPart?, Nat.add_assoc]

/-- The tokens among what the parts are read as are those of the records. -/
theorem Piece.filterMap_token?_parts (parts : List (List Char)) :
    (parts.zipIdx.filterMap ofPart?).filterMap token? =
      (everySecond parts).filterMap Token.ofRecord? := by
  fun_induction everySecond parts with
  | case1 text record rest ih =>
      have later := filterMap_ofPart?_zipIdx rest 0
      have second : ofPart? (record, 1) = (Token.ofRecord? record).map .token := rfl
      rw [List.zipIdx_cons, List.zipIdx_cons, List.filterMap_cons, List.filterMap_cons, second,
        later]
      cases text <;> cases decoded : Token.ofRecord? record <;>
        simp [ofPart?, token?, decoded, ih, List.filterMap_cons]
  | case2 parts short =>
      rcases parts with _ | ⟨text, _ | ⟨record, rest⟩⟩
      · rfl
      · cases text <;> simp [ofPart?, token?]
      · exact absurd rfl (short text record rest)

namespace Code

/-- Parts are refused at the first record that stands for no token. -/
theorem addParts_eq_error_iff {code : Code} {parts : List (List Char)} {fault : MarkerFault} :
    code.addParts parts = .error fault ↔
      ∃ record, (everySecond parts).find? (fun record => Token.ofRecord? record = none) =
        some record ∧ fault = .malformed (String.ofList record) := by
  fun_induction addParts code parts with
  | case1 code => simp [everySecond]
  | case2 code text => simp [everySecond]
  | case3 code text record rest token decoded ih =>
      rw [ih, everySecond, List.find?_cons_of_neg (by simp [decoded])]
  | case4 code text record rest undecoded =>
      rw [everySecond, List.find?_cons_of_pos (by simp [undecoded])]
      simp [eq_comm]

/-- Parts that are read add their texts and tokens in order. -/
theorem eq_of_addParts {code result : Code} {parts : List (List Char)} (joined : code.Joined)
    (added : code.addParts parts = .ok result) :
    result = code ++ ⟨parts.zipIdx.filterMap Piece.ofPart?⟩ := by
  fun_induction addParts code parts with
  | case1 code =>
      cases added
      exact joined.append_empty.symm
  | case2 code text =>
      cases added
      have alone : ofText (String.ofList text) = ⟨[text].zipIdx.filterMap Piece.ofPart?⟩ := by
        cases text <;> simp [ofText, Piece.before, Piece.ofPart?]
      rw [addText, alone]
  | case3 code text record rest token decoded ih =>
      have leading : ofText (String.ofList text) ++
          (ofToken token ++ ⟨rest.zipIdx.filterMap Piece.ofPart?⟩) =
          ⟨(text :: record :: rest).zipIdx.filterMap Piece.ofPart?⟩ := by
        have later := Piece.filterMap_ofPart?_zipIdx rest 0
        rw [ofToken_append, ofText_append]
        cases text <;> simp_all [Piece.before, Piece.ofPart?, List.zipIdx_cons]
      rw [ih (joined_ofToken token).append added, addToken, addText, append_assoc, append_assoc,
        leading]
  | case4 => cases added

/-- Read text has no marker in its literal text, so it can be marked again. -/
theorem marker_not_mem_of_pieces {code : Code} {text : List Char}
    (pieces : code.pieces = (text.splitOn marker).zipIdx.filterMap Piece.ofPart?) :
    ∀ content, .text content ∈ code.pieces → marker ∉ content.toList := by
  intro content member
  rw [pieces] at member
  obtain ⟨⟨part, place⟩, partMember, same⟩ := List.mem_filterMap.mp member
  have clean := marker_not_mem_of_splitOn (List.fst_mem_of_mem_zipIdx partMember)
  rw [Piece.ofPart?] at same
  split at same
  · split at same
    · cases same
    · cases same
      rwa [String.toList_ofList]
  · obtain ⟨token, -, other⟩ := Option.map_eq_some_iff.mp same
    cases other

/-- A text is refused if a record is open, and else at the first record that stands
for no token. -/
theorem readMarked_eq_error_iff {text : String} {fault : MarkerFault} :
    readMarked text = .error fault ↔
      (text.toList.count marker % 2 = 1 ∧ ∃ before after,
        text.toList = before ++ marker :: after ∧ marker ∉ after ∧
          fault = .malformed (String.ofList after)) ∨
      text.toList.count marker % 2 = 0 ∧ ∃ record,
        (everySecond (text.toList.splitOn marker)).find?
          (fun record => Token.ofRecord? record = none) = some record ∧
        fault = .malformed (String.ofList record) := by
  rw [readMarked, markerParts_eq_splitOn]
  simp only [length_splitOn_marker]
  rcases Nat.mod_two_eq_zero_or_one (text.toList.count marker) with even | odd
  · have closed : ¬ (text.toList.count marker + 1) % 2 = 0 := by omega
    rw [if_neg closed, addParts_eq_error_iff]
    simp [even]
  · have opened : (text.toList.count marker + 1) % 2 = 0 := by omega
    have marked : marker ∈ text.toList := List.count_pos_iff.mp (by omega)
    obtain ⟨before, after, split, clean⟩ := exists_after_last marked
    rw [if_pos opened]
    constructor
    · intro refused
      have last := getLastD_splitOn before clean
      rw [← split] at last
      rw [last] at refused
      exact .inl ⟨odd, before, after, split, clean, (Except.error.inj refused).symm⟩
    · rintro (⟨-, before, after, split, clean, rfl⟩ | ⟨even, -⟩)
      · rw [split, getLastD_splitOn before clean]
      · omega

theorem readMarked_eq_ok_iff {text : String} :
    (∃ code, readMarked text = .ok code) ↔
      text.toList.count marker % 2 = 0 ∧
        ∀ record ∈ everySecond (text.toList.splitOn marker), (Token.ofRecord? record).isSome := by
  have outcome : (∃ code, readMarked text = .ok code) ↔
      ∀ fault, ¬ readMarked text = .error fault := by
    cases readMarked text <;> simp
  simp only [outcome, readMarked_eq_error_iff]
  constructor
  · intro accepted
    have even : text.toList.count marker % 2 = 0 := by
      by_contra odd
      have marked : 0 < text.toList.count marker := by omega
      obtain ⟨before, after, split, clean⟩ := exists_after_last (List.count_pos_iff.mp marked)
      exact accepted _ (.inl ⟨by omega, before, after, split, clean, rfl⟩)
    refine ⟨even, fun record member => Option.isSome_iff_ne_none.mpr fun undecoded => ?_⟩
    have present : ((everySecond (text.toList.splitOn marker)).find?
        (fun record => Token.ofRecord? record = none)).isSome :=
      List.find?_isSome.mpr ⟨record, member, decide_eq_true undecoded⟩
    obtain ⟨first, found⟩ := Option.isSome_iff_exists.mp present
    exact accepted _ (.inr ⟨even, first, found, rfl⟩)
  · rintro ⟨even, decoded⟩ fault (⟨odd, -⟩ | ⟨-, record, found, -⟩)
    · omega
    · have undecoded : Token.ofRecord? record = none := by simpa using List.find?_some found
      have decodes := decoded record (List.mem_of_find?_eq_some found)
      rw [undecoded] at decodes
      cases decodes

/-- A read text is the code of its parts, and it can be marked again. -/
theorem pieces_of_readMarked {text : String} {code : Code} (read : readMarked text = .ok code) :
    code.pieces = (text.toList.splitOn marker).zipIdx.filterMap Piece.ofPart? := by
  rw [readMarked, markerParts_eq_splitOn] at read
  split at read
  · cases read
  · exact congrArg pieces (eq_of_addParts joined_empty read)

/-- A display fails on a text just as reading the text does. -/
theorem displayMarked_eq_error_iff {σ : Type} {text : String} (display : Token → StateM σ String)
    (state : σ) (fault : MarkerFault) :
    (((displayMarked text display).run.run state).1 = .error fault ↔
      readMarked text = .error fault) := by
  cases read : readMarked text with
  | ok code =>
      rw [displayMarked_of_readMarked read]
      constructor
      · intro failed
        cases failed
      · intro failed
        cases failed
  | error other =>
      have failed : displayMarked text display = throw other := by
        rw [displayMarked, read]
        rfl
      rw [failed]
      constructor
      · intro same
        cases same
        rfl
      · intro same
        cases same
        rfl

/-- A text is read if every record is closed and stands for a token.  An open record
is reported first, with what follows the last marker, and otherwise the first record
that stands for no token.  What is read are the nonempty texts and the tokens in their
order; it can be marked, and is read back from what is marked.  A display fails on just
the texts that are not read, and with the same fault. -/
theorem readMarked_parts (text : String) :
    ((∃ code, readMarked text = .ok code) ↔
      text.toList.count marker % 2 = 0 ∧
        ∀ record ∈ everySecond (text.toList.splitOn marker), (Token.ofRecord? record).isSome) ∧
    (∀ fault, readMarked text = .error fault ↔
      (text.toList.count marker % 2 = 1 ∧ ∃ before after,
        text.toList = before ++ marker :: after ∧ marker ∉ after ∧
          fault = .malformed (String.ofList after)) ∨
      text.toList.count marker % 2 = 0 ∧ ∃ record,
        (everySecond (text.toList.splitOn marker)).find?
          (fun record => Token.ofRecord? record = none) = some record ∧
        fault = .malformed (String.ofList record)) ∧
    (∀ code, readMarked text = .ok code →
      code.pieces = (text.toList.splitOn marker).zipIdx.filterMap Piece.ofPart? ∧
      code.tokens = (everySecond (text.toList.splitOn marker)).filterMap Token.ofRecord? ∧
      ∃ marked, code.markedText = .ok marked ∧ readMarked marked = .ok code) ∧
    ∀ (σ : Type) (display : Token → StateM σ String) (state : σ) (fault : MarkerFault),
      ((displayMarked text display).run.run state).1 = .error fault ↔
        readMarked text = .error fault := by
  refine ⟨readMarked_eq_ok_iff, fun fault => readMarked_eq_error_iff, ?_,
    fun σ display state fault => displayMarked_eq_error_iff display state fault⟩
  intro code read
  have pieces := pieces_of_readMarked read
  have clean := marker_not_mem_of_pieces pieces
  refine ⟨pieces, ?_, _, markedText_of_clean clean, ?_⟩
  · rw [tokens, pieces, Piece.filterMap_token?_parts]
  · exact readMarked_markedText (Built.read read).joined clean

/-- A record with blanks and with its fields in another order, next to an empty text,
is read and is written anew.  With a marker more the record that this leaves open is
reported, though a record before it stands for no token. -/
theorem readMarked_parts_otherOrder :
    let record := "\x7b \"table\": \"color\", \"value\": \"\", \"name\": \"a\\n\", \"id\": -1 \x7d"
    let text := "\x0f" ++ record ++ "\x0f;"
    (∃ code, readMarked text = .ok code ∧
      code.pieces = [.token ⟨-1, "a\n", "", .color⟩, .text ";"] ∧
      ∃ marked, code.markedText = .ok marked ∧ readMarked marked = .ok code) ∧
    readMarked ("\x0fx\x0f" ++ text ++ "\x0f\x7b") = .error (.malformed "\x7b") := by
  intro record text
  obtain ⟨accepted, -, shape, -⟩ := readMarked_parts text
  obtain ⟨code, read⟩ := accepted.mpr ⟨by decide, by decide⟩
  obtain ⟨pieces, -, again⟩ := shape code read
  refine ⟨⟨code, read, pieces.trans (by decide), again⟩, ?_⟩
  refine ((readMarked_parts _).2.1 _).mpr (.inl ⟨by decide, _, ['\x7b'],
    String.toList_append, by decide, rfl⟩)

end Code

end DesignLayout
