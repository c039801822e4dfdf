import DesignLayout.Proofs.MarkedRenders

/-!
# Code is spelled by characters and tokens

Code that is reached by the operations of the library is joined, and so it is
determined by the characters and tokens that it spells.  Any characters and
tokens are spelled by such a code, and appending appends what is spelled:
reachable code is the free monoid over characters and tokens.
-/

namespace DesignLayout

namespace Piece

/-- The characters of a text, or a token. -/
def letters : Piece → List (Char ⊕ Token)
  | .text content => content.toList.map .inl
  | .token entry => [.inr entry]

/-- One of two pieces is a token. -/
def Apart (first second : Piece) : Prop :=
  first.token? ≠ none ∨ second.token? ≠ none

instance (first second : Piece) : Decidable (first.Apart second) :=
  inferInstanceAs (Decidable (_ ∨ _))

/-- Puts a piece behind others.  An empty text is left out, and a text is joined
to the one that it follows. -/
def push (pieces : List Piece) : Piece → List Piece
  | .text content =>
    if content.isEmpty then pieces
    else
      match pieces.getLast? with
      | some (.text last) => pieces.dropLast ++ [.text (last ++ content)]
      | _ => pieces ++ [.text content]
  | .token entry => pieces ++ [.token entry]

theorem joined_iff {pieces : List Piece} :
    Joined pieces ↔ (∀ piece ∈ pieces, piece ≠ .text "") ∧ pieces.IsChain Apart := by
  constructor
  · intro joined
    induction joined with
    | nil => simp
    | token _ ih =>
        refine ⟨?_, List.isChain_cons.mpr ⟨fun _ _ => .inl (by simp [token?]), ih.2⟩⟩
        simpa using ih.1
    | @text content rest nonempty apart _ ih =>
        refine ⟨?_, List.isChain_cons.mpr ⟨?_, ih.2⟩⟩
        · simpa [nonempty] using ih.1
        · intro next first
          cases next with
          | token entry => exact .inr (by simp [token?])
          | text other =>
              obtain ⟨tail, same⟩ := List.head?_eq_some_iff.mp first
              exact absurd same (apart other tail)
  · rintro ⟨nonempty, chain⟩
    induction pieces with
    | nil => exact .nil
    | cons piece rest ih =>
        obtain ⟨first, chain⟩ := List.isChain_cons.mp chain
        have tail := ih (fun other member => nonempty other (List.mem_cons_of_mem _ member)) chain
        cases piece with
        | token entry => exact .token tail
        | text content =>
            refine .text ?_ ?_ tail
            · rintro rfl
              exact nonempty _ List.mem_cons_self rfl
            · rintro next others rfl
              simpa [Apart, token?] using first _ rfl

/-- Pieces that are joined to others already are put before them as they are. -/
theorem Joined.foldr_append {pieces rest : List Piece} (joined : Joined (pieces ++ rest)) :
    pieces.foldr Piece.before rest = pieces ++ rest := by
  induction pieces with
  | nil => rfl
  | cons piece pieces ih =>
      rw [List.foldr_cons, ih joined.tail]
      exact joined.before_eq_cons

theorem Joined.append_of_apart {pieces : List Piece} {piece : Piece} (joined : Joined pieces)
    (nonempty : piece ≠ .text "") (apart : ∀ last ∈ pieces.getLast?, last.Apart piece) :
    Joined (pieces ++ [piece]) := by
  obtain ⟨noneEmpty, chain⟩ := joined_iff.mp joined
  refine joined_iff.mpr ⟨?_, List.isChain_append.mpr ⟨chain, List.isChain_singleton piece, ?_⟩⟩
  · exact List.forall_mem_append.mpr ⟨noneEmpty, List.forall_mem_singleton.mpr nonempty⟩
  · intro last ends first begins
    obtain rfl : piece = first := by simpa using begins
    exact apart last ends

theorem Joined.append_text {pieces : List Piece} {last : String}
    (joined : Joined (pieces ++ [.text last])) (content : String) :
    Joined (pieces ++ [.text (last ++ content)]) := by
  obtain ⟨noneEmpty, chain⟩ := joined_iff.mp joined
  obtain ⟨initial, -, meets⟩ := List.isChain_append.mp chain
  obtain ⟨initialNonempty, lastNonempty⟩ := List.forall_mem_append.mp noneEmpty
  refine Joined.append_of_apart (joined_iff.mpr ⟨initialNonempty, initial⟩) ?_ ?_
  · simpa [String.append_eq_empty_iff] using fun blank => absurd blank (by simpa using lastNonempty)
  · exact fun piece ends => meets piece ends (.text last) rfl

/-- Putting joined pieces before a piece is to put the piece behind them. -/
theorem Joined.foldr_push {pieces : List Piece} (joined : Joined pieces) (piece : Piece) :
    pieces.foldr Piece.before (piece.before []) = push pieces piece := by
  cases piece with
  | token entry =>
      exact (joined.append_of_apart (by simp) fun _ _ => .inr (by simp [token?])).foldr_append
  | text content =>
      by_cases blank : content = ""
      · simpa [push, Piece.before, blank] using joined.foldr_before
      · rcases List.eq_nil_or_concat pieces with rfl | ⟨initial, last, rfl⟩
        · simp [push, Piece.before, blank]
        · rw [List.concat_eq_append] at joined ⊢
          cases last with
          | token entry =>
              have behind : Joined (initial ++ [.token entry] ++ [.text content]) :=
                joined.append_of_apart (by simpa using blank) (by simp [Apart, token?])
              simpa [push, Piece.before, blank] using behind.foldr_append
          | text last =>
              have lastNonempty : last ≠ "" := by
                simpa using (joined_iff.mp joined).1 (.text last) (by simp)
              have together := (joined.append_text content).foldr_append
              simpa [push, Piece.before, blank, lastNonempty] using together

end Piece

namespace Code

/-- The characters and tokens of a code in reading order. -/
def spelling (code : Code) : List (Char ⊕ Token) :=
  code.pieces.flatMap Piece.letters

def ofLetter : Char ⊕ Token → Code
  | .inl character => ofText (String.singleton character)
  | .inr token => ofToken token

/-- The code that spells these characters and tokens. -/
def ofSpelling (letters : List (Char ⊕ Token)) : Code :=
  join (letters.map ofLetter)

/-- Code that is put together by the operations of the library and by rendering.
Adding a text or a token is appending its code. -/
inductive Reachable : Code → Prop where
  | built {code : Code} : Built code → Reachable code
  | rendered {root : Layout} {options : SourceOptions} {registry after : Registry} {code : Code} :
      (root.render options).Gives registry code after → Reachable code
  | append {code other : Code} : Reachable code → Reachable other → Reachable (code ++ other)

theorem Reachable.joined {code : Code} (reachable : code.Reachable) : code.Joined := by
  induction reachable with
  | built built => exact built.joined
  | rendered gives => exact Source.joined_statement gives
  | append _ _ _ otherJoined => exact otherJoined.append

section spelling

@[simp] theorem spelling_ofToken (token : Token) : (ofToken token).spelling = [.inr token] := rfl

@[simp] theorem spelling_ofText (content : String) :
    (ofText content).spelling = content.toList.map .inl := by
  by_cases blank : content = "" <;> simp [spelling, ofText, Piece.before, Piece.letters, blank]

@[simp] theorem spelling_append (code other : Code) :
    (code ++ other).spelling = code.spelling ++ other.spelling := by
  refine Piece.flatMap_foldr_before Piece.letters ?_ rfl code.pieces other.pieces
  intro left right
  simp [Piece.letters]

theorem spelling_ofSpelling (letters : List (Char ⊕ Token)) :
    (ofSpelling letters).spelling = letters := by
  induction letters with
  | nil => rfl
  | cons letter letters ih =>
      have first : (ofLetter letter).spelling = [letter] := by
        cases letter <;> simp [ofLetter]
      have parts : ofSpelling (letter :: letters) = ofLetter letter ++ ofSpelling letters := rfl
      rw [parts, spelling_append, first, ih, List.singleton_append]

theorem ofSpelling_append (left right : List (Char ⊕ Token)) :
    ofSpelling (left ++ right) = ofSpelling left ++ ofSpelling right := by
  induction left with
  | nil => rfl
  | cons letter left ih =>
      have parts : ∀ letters, ofSpelling (letter :: letters) =
          ofLetter letter ++ ofSpelling letters := fun _ => rfl
      rw [List.cons_append, parts, parts, ih, append_assoc]

theorem ofSpelling_characters (characters : List Char) :
    ofSpelling (characters.map .inl) = ofText (String.ofList characters) := by
  induction characters with
  | nil => rfl
  | cons character characters ih =>
      have parts : ofSpelling ((character :: characters).map .inl) =
          ofText (String.singleton character) ++ ofSpelling (characters.map .inl) := rfl
      rw [parts, ih, ← ofText_append_ofText]
      congr 1
      apply String.toList_injective
      simp

/-- Spelling a code and putting it together again joins its texts. -/
theorem ofSpelling_spelling (pieces : List Piece) :
    ofSpelling (pieces.flatMap Piece.letters) = ⟨pieces.foldr Piece.before []⟩ := by
  induction pieces with
  | nil => rfl
  | cons piece pieces ih =>
      rw [List.flatMap_cons, ofSpelling_append, ih]
      cases piece with
      | text content =>
          rw [Piece.letters, ofSpelling_characters, String.ofList_toList, ofText_append]
          rfl
      | token entry => rfl

theorem Joined.ofSpelling_eq {code : Code} (joined : code.Joined) :
    ofSpelling code.spelling = code := by
  rw [spelling, ofSpelling_spelling, joined.foldr_before]

/-- Joined code is determined by what it spells. -/
theorem Joined.eq_iff {code other : Code} (joined : code.Joined) (otherJoined : other.Joined) :
    code = other ↔ code.spelling = other.spelling := by
  constructor
  · exact congrArg spelling
  · intro same
    rw [← joined.ofSpelling_eq, ← otherJoined.ofSpelling_eq, same]

theorem reachable_ofSpelling (letters : List (Char ⊕ Token)) :
    (ofSpelling letters).Reachable := by
  induction letters with
  | nil => exact .built .empty
  | cons letter letters ih =>
      refine .append (.built ?_) ih
      cases letter with
      | inl character => exact .ofText _
      | inr token => exact .ofToken token

/-- Appending puts the pieces of a code behind those of another, one after the
other. -/
theorem pieces_append_eq_foldl {code other : Code} (joined : code.Joined)
    (otherJoined : other.Joined) :
    (code ++ other).pieces = other.pieces.foldl Piece.push code.pieces := by
  rcases other with ⟨pieces⟩
  induction pieces generalizing code with
  | nil => exact joined.foldr_before
  | cons piece rest ih =>
      have alone : (⟨piece.before []⟩ : Code).Joined := Piece.Joined.nil.before piece
      have split : (⟨piece :: rest⟩ : Code) = ⟨piece.before []⟩ ++ ⟨rest⟩ := by
        apply congrArg Code.mk
        rw [Piece.foldr_before_before]
        exact otherJoined.before_eq_cons.symm
      have pushed : (code ++ ⟨piece.before []⟩).pieces = Piece.push code.pieces piece :=
        joined.foldr_push piece
      show _ = rest.foldl Piece.push (Piece.push code.pieces piece)
      rw [split, ← append_assoc, ih alone.append otherJoined.tail, pushed]

end spelling

section monoid

/-- Code that is put together by the operations of the library and by rendering. -/
def ReachableCode : Type :=
  { code : Code // code.Reachable }

namespace ReachableCode

instance : Monoid ReachableCode where
  mul code other := ⟨code.1 ++ other.1, .append code.2 other.2⟩
  one := ⟨empty, .built .empty⟩
  mul_assoc first second third := Subtype.ext (append_assoc first.1 second.1 third.1)
  one_mul _ := rfl
  mul_one code := Subtype.ext code.2.joined.append_empty

/-- Reachable code and what it spells. -/
def spellingEquiv : ReachableCode ≃* FreeMonoid (Char ⊕ Token) where
  toFun code := FreeMonoid.ofList code.1.spelling
  invFun letters := ⟨ofSpelling letters.toList, reachable_ofSpelling letters.toList⟩
  left_inv code := Subtype.ext code.2.joined.ofSpelling_eq
  right_inv letters := congrArg FreeMonoid.ofList (spelling_ofSpelling letters.toList)
  map_mul' code other := congrArg FreeMonoid.ofList (spelling_append code.1 other.1)

end ReachableCode

end monoid

/-- Reachable code has no empty text and no two texts that meet.  It is determined by
what it spells, and it is the free monoid over characters and tokens: appending, which
puts the pieces of a code behind those of another, appends what they spell.  Appended
code is shown behind the other, whatever the display keeps between tokens. -/
theorem reachable_spelling :
    (∀ code : Code, code.Reachable →
      (∀ piece ∈ code.pieces, piece ≠ .text "") ∧ code.pieces.IsChain Piece.Apart) ∧
    (∀ code other : Code, code.Reachable → other.Reachable →
      (code = other ↔ code.spelling = other.spelling) ∧
      (code ++ other).pieces = other.pieces.foldl Piece.push code.pieces) ∧
    (∃ equivalence : ReachableCode ≃* FreeMonoid (Char ⊕ Token),
      ∀ code, (equivalence code).toList = code.1.spelling) ∧
    (∀ code other : Code, (code ++ other).spelling = code.spelling ++ other.spelling) ∧
    (∀ first second third : Code, first ++ second ++ third = first ++ (second ++ third)) ∧
    (∀ code : Code, code.Reachable → empty ++ code = code ∧ code ++ empty = code) ∧
    (∀ (code : Code) (left right : String),
      (code.addText left).addText right = code.addText (left ++ right)) ∧
    ∀ (m : Type → Type) [Monad m] [LawfulMonad m] (display : Token → m String)
      (code other : Code),
      (code ++ other).displayM display = do
        return (← code.displayM display) ++ (← other.displayM display) := by
  refine ⟨?_, ?_, ⟨ReachableCode.spellingEquiv, fun _ => rfl⟩, spelling_append, append_assoc, ?_,
    ?_, ?_⟩
  · exact fun code reachable => Piece.joined_iff.mp reachable.joined
  · intro code other reachable otherReachable
    exact ⟨reachable.joined.eq_iff otherReachable.joined,
      pieces_append_eq_foldl reachable.joined otherReachable.joined⟩
  · exact fun code reachable => ⟨rfl, reachable.joined.append_empty⟩
  · intro code left right
    simp only [addText]
    rw [append_assoc, ← ofText_append_ofText]
  · intro m _ _ display code other
    exact displayM_append display code other

/-- A code that is put together in another order and with an empty text is the same.
Appended to itself, its last text and its first are joined. -/
theorem reachable_spelling_twice :
    let token : Token := .named .padding "spacing/md" "16.dp"
    let code : Code := ⟨[.text "a", .token token, .text "b"]⟩
    code.Reachable ∧
    (ofText "").addText "a" ++ (ofToken token).addText "b" = code ∧
    (code ++ code).pieces =
      [.text "a", .token token, .text "ba", .token token, .text "b"] ∧
    (code ++ code).pieces.IsChain Piece.Apart ∧
    ∀ display : Token → StateM Nat String,
      (code ++ code).displayM display = do
        return (← code.displayM display) ++ (← code.displayM display) := by
  intro token code
  have reachable : code.Reachable := .built (.addText "b" (.addToken token (.ofText "a")))
  have other : ((ofText "").addText "a" ++ (ofToken token).addText "b").Reachable :=
    .append (.built (.addText "a" (.ofText ""))) (.built (.addText "b" (.ofToken token)))
  have twice : (code ++ code).Reachable := .append reachable reachable
  obtain ⟨shape, determined, -, -, -, -, -, shown⟩ := reachable_spelling
  refine ⟨reachable, ?_, ?_, (shape _ twice).2, fun display => shown _ display code code⟩
  · rw [(determined _ _ other reachable).1]
    decide
  · rw [(determined code code reachable reachable).2]
    decide

end Code

end DesignLayout
