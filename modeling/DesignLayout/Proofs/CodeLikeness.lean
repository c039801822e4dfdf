import DesignLayout.Proofs.CodeJoining
import DesignLayout.Source.Statement

/-!
# Codes that differ in what their tokens show

Two codes are alike if they have equal texts and, at the same places, tokens
of one category and id.  Everything that is put together from like parts is
alike.  The sides of a rectangle are the one place where tokens are compared:
there the codes are alike if in either code tokens of one id are one token.
-/

namespace DesignLayout

/-- Tokens of one category and id; their names and values may differ. -/
def Token.Alike (token other : Token) : Prop :=
  token.category = other.category ∧ token.id = other.id

inductive Piece.Alike : Piece → Piece → Prop where
  | text (content : String) : Alike (.text content) (.text content)
  | token {token other : Token} : token.Alike other → Alike (.token token) (.token other)

/-- As many pieces, equal texts, and like tokens at the same places. -/
def Code.Alike (code other : Code) : Prop :=
  List.Forall₂ Piece.Alike code.pieces other.pieces

/-- Like values under the same label. -/
def Argument.Alike (argument other : Argument) : Prop :=
  argument.label = other.label ∧ argument.value.Alike other.value

/-- Like values of the same name. -/
def Parameter.Alike (parameter other : Parameter) : Prop :=
  parameter.name = other.name ∧ parameter.value.Alike other.value

namespace Piece

theorem alike_refl (piece : Piece) : piece.Alike piece := by
  cases piece with
  | text content => exact .text content
  | token entry => exact .token ⟨rfl, rfl⟩

theorem Alike.before {piece other : Piece} {rest others : List Piece} (alike : piece.Alike other)
    (restAlike : List.Forall₂ Alike rest others) :
    List.Forall₂ Alike (piece.before rest) (other.before others) := by
  cases alike with
  | token alike => exact .cons (.token alike) restAlike
  | text content =>
      -- A text is joined to a text that follows it, and a blank one is left out.
      by_cases blank : content = ""
      · simpa [Piece.before, blank] using restAlike
      · cases restAlike with
        | nil => simpa [Piece.before, blank] using Alike.text content
        | cons first later =>
            cases first with
            | token alike =>
                simpa [Piece.before, blank] using ⟨Alike.text content, .token alike, later⟩
            | text next => simpa [Piece.before, blank] using ⟨Alike.text (content ++ next), later⟩

end Piece

namespace Code

theorem alike_refl (code : Code) : code.Alike code :=
  List.forall₂_same.mpr fun piece _ => piece.alike_refl

theorem alike_ofToken {token other : Token} (alike : token.Alike other) :
    (ofToken token).Alike (ofToken other) :=
  .cons (.token alike) .nil

theorem Alike.append {code other first second : Code} (alike : code.Alike first)
    (laterAlike : other.Alike second) : (code ++ other).Alike (first ++ second) := by
  rcases code with ⟨pieces⟩
  rcases first with ⟨others⟩
  rw [Alike, pieces_append, pieces_append]
  rw [Alike] at alike
  simp only at alike ⊢
  induction alike with
  | nil => exact laterAlike
  | cons same _ ih => exact same.before ih

theorem alike_join {codes others : List Code} (alike : List.Forall₂ Alike codes others) :
    (join codes).Alike (join others) := by
  induction alike with
  | nil => exact .nil
  | cons first _ ih => exact first.append ih

end Code

namespace Source

section calls

theorem alike_labelled {argument other : Argument} (alike : argument.Alike other) :
    (labelled argument).Alike (labelled other) := by
  obtain ⟨label, value⟩ := alike
  unfold labelled
  rw [label]
  split
  · exact (Code.alike_refl _).append value
  · exact value

theorem alike_argumentList {arguments others : List Argument}
    (alike : List.Forall₂ Argument.Alike arguments others) :
    (argumentList arguments).Alike (argumentList others) := by
  induction alike with
  | nil => exact .nil
  | cons first later ih =>
      cases later with
      | nil => exact alike_labelled first
      | cons second rest =>
          exact (alike_labelled first).append ((Code.alike_refl _).append ih)

theorem alike_call (name : String) {arguments others : List Argument}
    (alike : List.Forall₂ Argument.Alike arguments others) :
    (call name arguments).Alike (call name others) :=
  (Code.alike_refl _).append ((alike_argumentList alike).append (Code.alike_refl _))

/-- Tokens that are both missing, or both there and alike. -/
abbrev TokensAlike : Option Token → Option Token → Prop :=
  Option.Rel Token.Alike

theorem alike_tokenArguments {arguments others : List (Option String × Option Token)}
    (alike : List.Forall₂ (fun argument other => argument.1 = other.1 ∧
      TokensAlike argument.2 other.2) arguments others) :
    List.Forall₂ Argument.Alike (tokenArguments arguments) (tokenArguments others) := by
  induction alike with
  | nil => exact .nil
  | @cons argument other _ _ first _ ih =>
      rcases argument with ⟨label, token⟩
      rcases other with ⟨otherLabel, otherToken⟩
      obtain ⟨rfl, tokens⟩ := first
      cases tokens with
      | none => exact ih
      | some alike => exact .cons ⟨rfl, Code.alike_ofToken alike⟩ ih

end calls

section sides

/-- Tokens of one category and id are one token. -/
def Distinguished (tokens : List (Option Token)) : Prop :=
  ∀ token other, some token ∈ tokens → some other ∈ tokens → token.Alike other → token = other

/-- Where like tokens stand in two rectangles, those of the one are equal just
where those of the other are. -/
theorem eq_iff_of_alike {tokens others : List (Option Token)}
    (alike : List.Forall₂ TokensAlike tokens others) (distinguished : Distinguished tokens)
    (othersDistinguished : Distinguished others) :
    ∀ side ∈ tokens.zip others, ∀ next ∈ tokens.zip others,
      side.1 = next.1 ↔ side.2 = next.2 := by
  rintro ⟨left, otherLeft⟩ sideMember ⟨right, otherRight⟩ nextMember
  obtain ⟨leftMember, otherLeftMember⟩ := List.of_mem_zip sideMember
  obtain ⟨rightMember, otherRightMember⟩ := List.of_mem_zip nextMember
  obtain ⟨-, related⟩ := List.forall₂_iff_zip.mp alike
  have leftAlike := related sideMember
  have rightAlike := related nextMember
  cases leftAlike with
  | none => cases rightAlike <;> simp
  | @some token other alike =>
      cases rightAlike with
      | none => simp
      | @some last otherLast lastAlike =>
          simp only [Option.some.injEq]
          constructor
          · rintro rfl
            exact othersDistinguished other otherLast otherLeftMember otherRightMember
              ⟨alike.1.symm.trans lastAlike.1, alike.2.symm.trans lastAlike.2⟩
          · rintro rfl
            exact distinguished token last leftMember rightMember
              ⟨alike.1.trans lastAlike.1.symm, alike.2.trans lastAlike.2.symm⟩

theorem isSome_of_alike {token other : Option Token} (alike : TokensAlike token other) :
    token.isSome = other.isSome := by
  cases alike <;> rfl

theorem all_isNone_of_alike {tokens others : List (Option Token)}
    (alike : List.Forall₂ TokensAlike tokens others) :
    tokens.all Option.isNone = others.all Option.isNone := by
  induction alike with
  | nil => rfl
  | cons first _ ih => cases first <;> simp [ih]

theorem alike_paddingArguments {tokens others : Edges (Option Token)}
    (alike : List.Forall₂ TokensAlike tokens.toList others.toList)
    (distinguished : Distinguished tokens.toList)
    (othersDistinguished : Distinguished others.toList) :
    List.Forall₂ Argument.Alike (paddingArguments tokens) (paddingArguments others) := by
  have same := eq_iff_of_alike alike distinguished othersDistinguished
  rcases tokens with ⟨left, top, right, bottom⟩
  rcases others with ⟨otherLeft, otherTop, otherRight, otherBottom⟩
  simp only [Edges.toList, List.forall₂_cons, List.forall₂_nil_left_iff, and_true] at alike
  obtain ⟨leftAlike, topAlike, rightAlike, bottomAlike⟩ := alike
  have shows := isSome_of_alike leftAlike
  simp only [Edges.toList, List.zip_cons_cons, List.zip_nil_right, List.forall_mem_cons] at same
  obtain ⟨⟨-, leftTop, leftRight, leftBottom, -⟩, ⟨-, -, -, topBottom, -⟩, -⟩ := same
  simp only [paddingArguments, shows, leftTop, leftRight, leftBottom, topBottom]
  split_ifs
  · exact alike_tokenArguments (.cons ⟨rfl, leftAlike⟩ .nil)
  · exact alike_tokenArguments (.cons ⟨rfl, leftAlike⟩ (.cons ⟨rfl, topAlike⟩ .nil))
  · exact alike_tokenArguments (.cons ⟨rfl, leftAlike⟩ (.cons ⟨rfl, topAlike⟩
      (.cons ⟨rfl, rightAlike⟩ (.cons ⟨rfl, bottomAlike⟩ .nil))))

theorem alike_shapeArguments {tokens others : Corners (Option Token)}
    (alike : List.Forall₂ TokensAlike tokens.toList others.toList)
    (distinguished : Distinguished tokens.toList)
    (othersDistinguished : Distinguished others.toList) :
    List.Forall₂ Argument.Alike (shapeArguments tokens) (shapeArguments others) := by
  have same := eq_iff_of_alike alike distinguished othersDistinguished
  rcases tokens with ⟨topLeft, topRight, bottomRight, bottomLeft⟩
  rcases others with ⟨otherTopLeft, otherTopRight, otherBottomRight, otherBottomLeft⟩
  simp only [Corners.toList, List.forall₂_cons, List.forall₂_nil_left_iff, and_true] at alike
  obtain ⟨topLeftAlike, topRightAlike, bottomRightAlike, bottomLeftAlike⟩ := alike
  have shows := isSome_of_alike topLeftAlike
  simp only [Corners.toList, List.zip_cons_cons, List.zip_nil_right, List.forall_mem_cons] at same
  obtain ⟨⟨-, right, opposite, below, -⟩, -⟩ := same
  simp only [shapeArguments, shows, right, opposite, below]
  split_ifs
  · exact alike_tokenArguments (.cons ⟨rfl, topLeftAlike⟩ .nil)
  · exact alike_tokenArguments (.cons ⟨rfl, topLeftAlike⟩ (.cons ⟨rfl, topRightAlike⟩
      (.cons ⟨rfl, bottomRightAlike⟩ (.cons ⟨rfl, bottomLeftAlike⟩ .nil))))

theorem alike_edgesCall? {tokens others : Edges (Option Token)}
    (alike : List.Forall₂ TokensAlike tokens.toList others.toList)
    (distinguished : Distinguished tokens.toList)
    (othersDistinguished : Distinguished others.toList) :
    Option.Rel Code.Alike (edgesCall? tokens) (edgesCall? others) := by
  unfold edgesCall?
  rw [all_isNone_of_alike alike]
  split
  · exact .none
  · exact .some (alike_call _ (alike_paddingArguments alike distinguished othersDistinguished))

theorem alike_cornersCall? {tokens others : Corners (Option Token)}
    (alike : List.Forall₂ TokensAlike tokens.toList others.toList)
    (distinguished : Distinguished tokens.toList)
    (othersDistinguished : Distinguished others.toList) :
    Option.Rel Code.Alike (cornersCall? tokens) (cornersCall? others) := by
  unfold cornersCall?
  rw [all_isNone_of_alike alike]
  split
  · exact .none
  · exact .some (alike_call _ (alike_shapeArguments alike distinguished othersDistinguished))

end sides

section statements

variable {options : SourceOptions} {depth : Nat}

theorem alike_parameters (parameters : List Parameter) :
    List.Forall₂ Parameter.Alike parameters parameters :=
  List.forall₂_same.mpr fun parameter _ => ⟨rfl, parameter.value.alike_refl⟩

theorem alike_tokenParameter (name : String) {token other : Option Token}
    (alike : TokensAlike token other) :
    List.Forall₂ Parameter.Alike (tokenParameter name token) (tokenParameter name other) := by
  cases alike with
  | none => exact .nil
  | some alike => exact .cons ⟨rfl, Code.alike_ofToken alike⟩ .nil

theorem alike_chained {calls others : List Code} (alike : List.Forall₂ Code.Alike calls others) :
    (chained options depth calls).Alike (chained options depth others) := by
  refine (Code.alike_refl _).append (Code.alike_join ?_)
  rw [List.forall₂_map_left_iff, List.forall₂_map_right_iff]
  exact alike.imp fun _ _ same => (Code.alike_refl _).append same

theorem alike_header (options : SourceOptions) (depth : Nat) (name : String) (kind : LayoutKind)
    {parameters others : List Parameter} (alike : List.Forall₂ Parameter.Alike parameters others) :
    (header options depth name kind parameters).Alike
      (header options depth name kind others) := by
  have lines : List.Forall₂ Code.Alike (parameters.map (parameterLine options depth))
      (others.map (parameterLine options depth)) := by
    rw [List.forall₂_map_left_iff, List.forall₂_map_right_iff]
    refine alike.imp fun parameter other same => ?_
    rw [parameterLine, parameterLine, same.1]
    exact (Code.alike_refl _).append (same.2.append (Code.alike_refl _))
  have empty : parameters.isEmpty = others.isEmpty := by
    cases alike <;> rfl
  unfold header
  rw [empty]
  split
  · exact Code.alike_refl _
  · exact (Code.alike_refl _).append ((Code.alike_refl _).append
      ((Code.alike_join lines).append (Code.alike_refl _)))

end statements

end Source

namespace Code

variable {code other : Code}

/-- Like codes are shown alike where like tokens are. -/
theorem Alike.displayWith_eq {display otherDisplay : Token → String} (alike : code.Alike other)
    (shown : ∀ token ∈ code.tokens, ∀ next, token.Alike next → display token = otherDisplay next) :
    code.displayWith display = other.displayWith otherDisplay := by
  have pieces : ∀ token, .token token ∈ code.pieces → ∀ next, token.Alike next →
      display token = otherDisplay next :=
    fun token member => shown token (mem_tokens.mpr member)
  apply String.toList_injective
  rw [toList_displayWith, toList_displayWith]
  rw [Alike] at alike
  generalize code.pieces = left, other.pieces = right at alike pieces
  induction alike with
  | nil => rfl
  | cons first later ih =>
      rw [List.flatMap_cons, List.flatMap_cons,
        ih fun token member => pieces token (List.mem_cons_of_mem _ member)]
      congr 1
      cases first with
      | text content => rfl
      | token same => exact congrArg String.toList (pieces _ List.mem_cons_self _ same)

/-- Tables with the same entries show like codes alike, if they have an entry
for each token. -/
theorem Alike.sourceText_eq {table otherTable : TokenTable} (alike : code.Alike other)
    (same : ∀ category id, table.get? category id = otherTable.get? category id)
    (found : ∀ token ∈ code.tokens, (table.get? token.category token.id).isSome) :
    code.sourceText table true = other.sourceText otherTable true := by
  refine alike.displayWith_eq fun token member next likeNext => ?_
  obtain ⟨entry, present⟩ := Option.isSome_iff_exists.mp (found token member)
  have nextPresent : otherTable.get? next.category next.id = some entry := by
    rw [← likeNext.1, ← likeNext.2, ← same, present]
  simp [display, present, nextPresent]

end Code

end DesignLayout
