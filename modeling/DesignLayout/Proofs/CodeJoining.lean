import Mathlib
import DesignLayout.Code.Basic

/-!
# Joined code

Code that is put together by appending has no empty text and no two texts
next to each other.  Such code is its own normal form: appending nothing
leaves it as it is, and it does not matter in which order parts are joined.
Joining moves no character and no token, so whatever a code is shown as, the
parts are shown one after the other.
-/

namespace DesignLayout

namespace Piece

/-- No text is empty, and no text follows a text. -/
inductive Joined : List Piece → Prop where
  | nil : Joined []
  | token {entry : Token} {rest : List Piece} :
      Joined rest → Joined (.token entry :: rest)
  | text {content : String} {rest : List Piece} :
      content ≠ "" → (∀ next tail, rest ≠ .text next :: tail) →
      Joined rest → Joined (.text content :: rest)

attribute [local simp] before

theorem Joined.before {rest : List Piece} (joined : Joined rest) (piece : Piece) :
    Joined (piece.before rest) := by
  cases piece with
  | token entry => exact .token joined
  | text content =>
      by_cases blank : content = ""
      · simpa [blank] using joined
      · cases joined with
        | nil => simpa [blank] using Joined.text blank (by simp) .nil
        | token tail => simpa [blank] using Joined.text blank (by simp) (.token tail)
        | text nonempty apart tail =>
            simpa [blank] using Joined.text (by simp [blank]) apart tail

/-- In joined pieces nothing is left to join. -/
theorem Joined.before_eq_cons {piece : Piece} {rest : List Piece}
    (joined : Joined (piece :: rest)) : piece.before rest = piece :: rest := by
  cases joined with
  | token tail => rfl
  | text nonempty apart tail =>
      cases rest with
      | nil => simp [nonempty]
      | cons next rest =>
          cases next with
          | token entry => simp [nonempty]
          | text content => exact absurd rfl (apart content rest)

theorem Joined.tail {piece : Piece} {rest : List Piece} (joined : Joined (piece :: rest)) :
    Joined rest := by
  cases joined with
  | token tail => exact tail
  | text _ _ tail => exact tail

theorem Joined.foldr_before {pieces : List Piece} (joined : Joined pieces) :
    pieces.foldr Piece.before [] = pieces := by
  induction pieces with
  | nil => rfl
  | cons piece rest ih =>
      rw [List.foldr_cons, ih joined.tail]
      exact joined.before_eq_cons

theorem joined_foldr_before (pieces : List Piece) {rest : List Piece} (joined : Joined rest) :
    Joined (pieces.foldr Piece.before rest) := by
  induction pieces with
  | nil => exact joined
  | cons piece pieces ih => exact ih.before piece

/-- Two texts, one before the other, are their joined text. -/
theorem before_text_text (left right : String) (rest : List Piece) :
    before (.text left) (before (.text right) rest) = before (.text (left ++ right)) rest := by
  by_cases leftBlank : left = ""
  · simp [leftBlank]
  · by_cases rightBlank : right = ""
    · simp [rightBlank]
    · match rest with
      | [] => simp [leftBlank, rightBlank]
      | .token entry :: rest => simp [leftBlank, rightBlank]
      | .text next :: rest => simp [leftBlank, rightBlank, String.append_assoc]

/-- Joining a piece to a part first, or to the whole, makes no difference. -/
theorem foldr_before_before (piece : Piece) (rest others : List Piece) :
    (piece.before rest).foldr before others = piece.before (rest.foldr before others) := by
  cases piece with
  | token entry => rfl
  | text content =>
      by_cases blank : content = ""
      · simp [blank]
      · match rest with
        | [] => simp [blank]
        | .token entry :: rest => simp [blank]
        | .text next :: rest =>
            have joinedFirst := before_text_text content next (rest.foldr before others)
            simpa [blank] using joinedFirst.symm

/-- What the pieces are shown as does not change when texts are joined. -/
theorem flatMap_before {α : Type} (shown : Piece → List α)
    (additive : ∀ left right, shown (.text (left ++ right)) =
      shown (.text left) ++ shown (.text right))
    (blank : shown (.text "") = []) (piece : Piece) (rest : List Piece) :
    (piece.before rest).flatMap shown = shown piece ++ rest.flatMap shown := by
  cases piece with
  | token entry => rfl
  | text content =>
      by_cases empty : content = ""
      · simp [empty, blank]
      · match rest with
        | [] => simp [empty]
        | .token entry :: rest => simp [empty]
        | .text next :: rest => simp [empty, additive]

theorem flatMap_foldr_before {α : Type} (shown : Piece → List α)
    (additive : ∀ left right, shown (.text (left ++ right)) =
      shown (.text left) ++ shown (.text right))
    (blank : shown (.text "") = []) (pieces rest : List Piece) :
    (pieces.foldr before rest).flatMap shown = pieces.flatMap shown ++ rest.flatMap shown := by
  induction pieces with
  | nil => rfl
  | cons piece pieces ih =>
      rw [List.foldr_cons, flatMap_before shown additive blank, ih, List.flatMap_cons,
        List.append_assoc]

/-- What a piece is shown as. -/
def shown (display : Token → String) : Piece → List Char
  | .text content => content.toList
  | .token entry => (display entry).toList

end Piece

namespace Code

/-- No text is empty, and no text follows a text. -/
def Joined (code : Code) : Prop :=
  Piece.Joined code.pieces

theorem joined_empty : empty.Joined := Piece.Joined.nil

theorem joined_ofText (content : String) : (ofText content).Joined :=
  Piece.Joined.nil.before (.text content)

theorem joined_ofToken (token : Token) : (ofToken token).Joined :=
  .token .nil

theorem Joined.append {code other : Code} (joined : other.Joined) : (code ++ other).Joined :=
  Piece.joined_foldr_before code.pieces joined

@[simp] theorem empty_append (code : Code) : empty ++ code = code := rfl

theorem Joined.append_empty {code : Code} (joined : code.Joined) : code ++ empty = code :=
  congrArg Code.mk joined.foldr_before

theorem append_assoc (first second third : Code) :
    first ++ second ++ third = first ++ (second ++ third) := by
  apply congrArg Code.mk
  show (first.pieces.foldr Piece.before second.pieces).foldr Piece.before third.pieces =
    first.pieces.foldr Piece.before (second.pieces.foldr Piece.before third.pieces)
  induction first.pieces with
  | nil => rfl
  | cons piece pieces ih =>
      rw [List.foldr_cons, Piece.foldr_before_before, ih, List.foldr_cons]

theorem ofToken_append (token : Token) (pieces : List Piece) :
    ofToken token ++ ⟨pieces⟩ = ⟨.token token :: pieces⟩ := rfl

theorem ofText_append (content : String) (code : Code) :
    ofText content ++ code = ⟨Piece.before (.text content) code.pieces⟩ :=
  congrArg Code.mk (Piece.foldr_before_before (.text content) [] code.pieces)

theorem ofText_append_ofText (left right : String) :
    ofText (left ++ right) = ofText left ++ ofText right := by
  rw [ofText_append]
  exact congrArg Code.mk (Piece.before_text_text left right []).symm

theorem pieces_append (code other : Code) :
    (code ++ other).pieces = code.pieces.foldr Piece.before other.pieces := rfl

section tokens

@[simp] theorem tokens_empty : empty.tokens = [] := rfl

@[simp] theorem tokens_ofToken (token : Token) : (ofToken token).tokens = [token] := rfl

@[simp] theorem tokens_ofText (content : String) : (ofText content).tokens = [] := by
  by_cases blank : content = "" <;> simp [tokens, ofText, Piece.before, Piece.token?, blank]

@[simp] theorem tokens_append (code other : Code) :
    (code ++ other).tokens = code.tokens ++ other.tokens := by
  simp only [tokens, List.filterMap_eq_flatMap_toList]
  exact Piece.flatMap_foldr_before _ (fun _ _ => rfl) rfl code.pieces other.pieces

@[simp] theorem tokens_join (codes : List Code) : (join codes).tokens = codes.flatMap tokens := by
  induction codes with
  | nil => rfl
  | cons code rest ih =>
      rw [List.flatMap_cons, ← ih]
      exact tokens_append code (join rest)

theorem mem_tokens {token : Token} {code : Code} :
    token ∈ code.tokens ↔ .token token ∈ code.pieces := by
  rw [tokens, List.mem_filterMap]
  constructor
  · intro given
    obtain ⟨piece, member, found⟩ := given
    cases piece with
    | text content => cases found
    | token entry =>
        cases found
        exact member
  · intro member
    exact ⟨_, member, rfl⟩

end tokens

section running

variable {m : Type → Type} [Monad m] [LawfulMonad m] (display : Token → m String)

/-- Shows pieces behind what is shown already. -/
def displayFrom (start : String) (pieces : List Piece) : m String :=
  pieces.foldlM (fun shown piece =>
    match piece with
    | .text content => pure (shown ++ content)
    | .token token => do return shown ++ (← display token)) start

theorem displayFrom_text (start content : String) (rest : List Piece) :
    displayFrom display start (.text content :: rest) =
      displayFrom display (start ++ content) rest := by
  rw [displayFrom, List.foldlM_cons, pure_bind]
  rfl

theorem displayFrom_token (start : String) (token : Token) (rest : List Piece) :
    displayFrom display start (.token token :: rest) =
      display token >>= fun shown => displayFrom display (start ++ shown) rest := by
  rw [displayFrom, List.foldlM_cons, bind_assoc]
  simp only [pure_bind]
  rfl

/-- What is shown already stands before the rest. -/
theorem displayFrom_eq (start : String) (pieces : List Piece) :
    displayFrom display start pieces = (start ++ ·) <$> displayFrom display "" pieces := by
  induction pieces generalizing start with
  | nil =>
      show pure start = (start ++ ·) <$> pure ""
      rw [map_pure, String.append_empty]
  | cons piece rest ih =>
      cases piece with
      | text content =>
          rw [displayFrom_text, displayFrom_text, ih, ih ("" ++ content), Functor.map_map]
          simp only [String.empty_append, String.append_assoc]
      | token token =>
          rw [displayFrom_token, displayFrom_token, map_bind]
          apply bind_congr
          intro shown
          rw [ih, ih ("" ++ shown), Functor.map_map]
          simp only [String.empty_append, String.append_assoc]

/-- Joining texts does not change what is shown, nor the order in which tokens are
displayed. -/
theorem displayFrom_before (start : String) (piece : Piece) (rest : List Piece) :
    displayFrom display start (piece.before rest) = displayFrom display start (piece :: rest) := by
  cases piece with
  | token token => rfl
  | text content =>
      by_cases blank : content = ""
      · simp [Piece.before, blank, displayFrom_text]
      · cases rest with
        | nil => simp [Piece.before, blank]
        | cons next rest =>
            cases next with
            | token token => simp [Piece.before, blank]
            | text next => simp [Piece.before, blank, displayFrom_text, String.append_assoc]

theorem displayFrom_foldr (start : String) (pieces others : List Piece) :
    displayFrom display start (pieces.foldr Piece.before others) =
      displayFrom display start pieces >>= fun shown => displayFrom display shown others := by
  induction pieces generalizing start with
  | nil =>
      show displayFrom display start others =
        (pure start : m String) >>= fun shown => displayFrom display shown others
      rw [pure_bind]
  | cons piece rest ih =>
      rw [List.foldr_cons, displayFrom_before]
      cases piece with
      | text content => rw [displayFrom_text, displayFrom_text, ih]
      | token token =>
          rw [displayFrom_token, displayFrom_token, bind_assoc]
          exact bind_congr fun shown => ih (start ++ shown)

/-- Appended code is shown behind the other, by a display that has seen the tokens
of the other. -/
theorem displayM_append (code other : Code) :
    (code ++ other).displayM display = do
      return (← code.displayM display) ++ (← other.displayM display) := by
  have parts := displayFrom_foldr display "" code.pieces other.pieces
  refine parts.trans (bind_congr fun first => ?_)
  rw [displayFrom_eq, map_eq_pure_bind]
  rfl

end running

section display

variable (display : Token → String)

theorem toList_displayFrom (start : String) (pieces : List Piece) :
    (displayFrom (m := Id) (fun token => pure (display token)) start pieces).run.toList =
      start.toList ++ pieces.flatMap (Piece.shown display) := by
  induction pieces generalizing start with
  | nil => exact (List.append_nil _).symm
  | cons piece rest ih =>
      rw [List.flatMap_cons, ← List.append_assoc]
      cases piece with
      | text content => rw [displayFrom_text, ih, String.toList_append]; rfl
      | token token => rw [displayFrom_token, pure_bind, ih, String.toList_append]; rfl

theorem toList_displayWith (code : Code) :
    (code.displayWith display).toList = code.pieces.flatMap (Piece.shown display) :=
  toList_displayFrom display "" code.pieces

@[simp] theorem toList_displayWith_ofText (content : String) :
    ((ofText content).displayWith display).toList = content.toList := by
  rw [toList_displayWith]
  by_cases blank : content = "" <;> simp [ofText, Piece.before, Piece.shown, blank]

@[simp] theorem toList_displayWith_ofToken (token : Token) :
    ((ofToken token).displayWith display).toList = (display token).toList := by
  rw [toList_displayWith]
  exact List.append_nil _

/-- Two displays show a code alike if they show its tokens alike. -/
theorem displayWith_congr {code : Code} {left right : Token → String}
    (alike : ∀ token ∈ code.tokens, left token = right token) :
    code.displayWith left = code.displayWith right := by
  apply String.toList_injective
  rw [toList_displayWith, toList_displayWith]
  apply List.flatMap_congr
  intro piece member
  cases piece with
  | text content => rfl
  | token entry => exact congrArg String.toList (alike entry (mem_tokens.mpr member))

@[simp] theorem toList_displayWith_append (code other : Code) :
    ((code ++ other).displayWith display).toList =
      (code.displayWith display).toList ++ (other.displayWith display).toList := by
  simp only [toList_displayWith, pieces_append]
  refine Piece.flatMap_foldr_before _ ?_ rfl code.pieces other.pieces
  intro left right
  exact String.toList_append

theorem displayWith_ofText (content : String) : (ofText content).displayWith display = content := by
  rw [← String.toList_inj, toList_displayWith_ofText]

theorem displayWith_append (code other : Code) :
    (code ++ other).displayWith display =
      code.displayWith display ++ other.displayWith display := by
  rw [← String.toList_inj, String.toList_append, toList_displayWith_append]

end display

end Code

end DesignLayout
