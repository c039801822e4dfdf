import DesignLayout.Proofs.LayoutForm
import DesignLayout.Proofs.ValueTokens

/-!
# What the arguments of a call set

The call of a padding or of a shape says equal tokens once.  Here a call is read
back from its source text, argument by argument, and its arguments are expanded
by the rules for such calls: an argument without a label sets every side, a
label for a pair of sides sets both, any other label sets its own side, and a
side that is not mentioned is zero.  Every side gets the token of its value back,
whatever was said once.
-/

namespace DesignLayout

/-- An argument as it is read: its label, if it has one, and its token. -/
abbrev TokenArgument := Option String × Token

namespace Code

/-- The label in the text before a token: none, or a word and an equals sign. -/
def label? (text : List Char) : Option (Option String) :=
  let word := text.takeWhile Char.isAlpha
  if text = [] then some none
  else if text = word ++ [' ', '=', ' '] then some (some (String.ofList word))
  else none

/-- Reads arguments up to the closing bracket, the first behind an opening text
and the others behind commas. -/
def readArguments? (opening : List Char) : List Piece → Option (List TokenArgument)
  | .text between :: .token token :: rest =>
    if opening.isPrefixOf between.toList then do
      let label ← label? (between.toList.drop opening.length)
      if rest = [.text ")"] then return [(label, token)]
      else return (label, token) :: (← readArguments? [',', ' '] rest)
    else none
  | _ => none

/-- The arguments of a call of `name`, where the code is such a call. -/
def arguments? (code : Code) (name : String) : Option (List TokenArgument) :=
  readArguments? (name ++ "(").toList code.pieces

end Code

namespace TokenArgument

/-- Whether arguments go by these labels, each at most once. -/
def Fit (labels : List String) (arguments : List TokenArgument) : Prop :=
  (arguments.map Prod.fst).Nodup ∧ ∀ argument ∈ arguments, argument.1 ∈ labels.map some

instance (labels : List String) (arguments : List TokenArgument) :
    Decidable (Fit labels arguments) :=
  inferInstanceAs (Decidable (_ ∧ _))

/-- The token that is passed under a label. -/
def passed? (arguments : List TokenArgument) (label : String) : Option Token :=
  arguments.lookup (some label)

end TokenArgument

open TokenArgument

/-- The tokens that the arguments of a padding set at its edges, and none where an
edge is left at zero. -/
def Edges.ofArguments? : List TokenArgument → Option (Edges (Option Token))
  | [(none, token)] => some (.uniform (some token))
  | arguments =>
    if Fit ["start", "top", "end", "bottom"] arguments then
      some ⟨passed? arguments "start", passed? arguments "top", passed? arguments "end",
        passed? arguments "bottom"⟩
    else if Fit ["horizontal", "vertical"] arguments then
      some ⟨passed? arguments "horizontal", passed? arguments "vertical",
        passed? arguments "horizontal", passed? arguments "vertical"⟩
    else none

/-- The tokens that the arguments of a rounded shape set at its corners, and none
where a corner is left at zero. -/
def Corners.ofArguments? : List TokenArgument → Option (Corners (Option Token))
  | [(none, token)] => some (.uniform (some token))
  | arguments =>
    if Fit ["topStart", "topEnd", "bottomEnd", "bottomStart"] arguments then
      some ⟨passed? arguments "topStart", passed? arguments "topEnd",
        passed? arguments "bottomEnd", passed? arguments "bottomStart"⟩
    else none

section reading

open Code Source

namespace TokenArgument

/-- The argument as it is written. -/
def argument (entry : TokenArgument) : Argument :=
  ⟨entry.1, .ofToken entry.2⟩

/-- A label as it stands before a token. -/
def labelText (label : Option String) : String :=
  label.elim "" fun word => word ++ " = "

/-- Labels are words, which is how they are found in a text. -/
def WordLabel (label : Option String) : Prop :=
  ∀ word ∈ label, word.toList.all Char.isAlpha = true

end TokenArgument

theorem Code.label?_labelText {label : Option String} (word : WordLabel label) :
    label? (labelText label).toList = some label := by
  cases label with
  | none => rfl
  | some text =>
      have letters : (text.toList ++ [' ', '=', ' ']).takeWhile Char.isAlpha = text.toList := by
        rw [List.takeWhile_append_of_pos (List.all_eq_true.mp (word text rfl))]
        simp [List.takeWhile]
      simp [label?, labelText, letters]

/-- Behind a text an argument is its label, joined to the text, and its token. -/
theorem ofText_append_argument {opening : String} (opens : opening ≠ "") (entry : TokenArgument)
    (rest : Code) :
    ofText opening ++ (labelled entry.argument ++ rest) =
      ⟨.text (opening ++ labelText entry.1) :: .token entry.2 :: rest.pieces⟩ := by
  rcases entry with ⟨label, token⟩
  have split : labelled (argument (label, token)) = ofText (labelText label) ++ ofToken token := by
    cases label <;> rfl
  have later : (ofToken token ++ rest).pieces = .token token :: rest.pieces := rfl
  rw [split, append_assoc, ← append_assoc, ← ofText_append_ofText, ofText_append, later]
  simp [Piece.before, opens]

theorem readArguments?_argumentList {opening : String} (opens : opening ≠ "")
    {entries : List TokenArgument} (words : ∀ entry ∈ entries, WordLabel entry.1)
    (any : entries ≠ []) :
    readArguments? opening.toList (ofText opening ++
      (argumentList (entries.map argument) ++ ofText ")")).pieces = some entries := by
  induction entries generalizing opening with
  | nil => exact absurd rfl any
  | cons entry rest ih =>
      have prefixed : opening.toList.isPrefixOf (opening ++ labelText entry.1).toList = true := by
        simp
      have between : (opening ++ labelText entry.1).toList.drop opening.toList.length =
          (labelText entry.1).toList := by simp
      have label := label?_labelText (words entry List.mem_cons_self)
      cases rest with
      | nil =>
          rw [List.map_singleton, argumentList, ofText_append_argument opens, readArguments?,
            prefixed, between, label]
          rfl
      | cons next others =>
          let tail := ofText ", " ++ (argumentList ((next :: others).map argument) ++ ofText ")")
          have later : readArguments? [',', ' '] tail.pieces = some (next :: others) :=
            ih (by decide : ", " ≠ "")
              (fun other member => words other (List.mem_cons_of_mem _ member)) (by simp)
          have goesOn : tail.pieces ≠ [.text ")"] := by
            intro ended
            rw [ended] at later
            cases later
          have list : ofText opening ++ (argumentList ((entry :: next :: others).map argument) ++
              ofText ")") = ofText opening ++ (labelled entry.argument ++ tail) := by
            simp only [List.map_cons, argumentList, append_assoc, tail]
          rw [list, ofText_append_argument opens, readArguments?, prefixed, between, label]
          simp [goesOn, later]

theorem arguments?_call (name : String) {entries : List TokenArgument}
    (words : ∀ entry ∈ entries, WordLabel entry.1) (any : entries ≠ []) :
    (call name (entries.map argument)).arguments? name = some entries :=
  readArguments?_argumentList (by simp) words any

end reading

section rules

open Source

variable {arguments : List (Option String × Option Token)} {labels : List String}

namespace TokenArgument

/-- The arguments whose tokens are there, as they are read. -/
def present (arguments : List (Option String × Option Token)) : List TokenArgument :=
  arguments.filterMap fun argument => argument.2.map fun token => (argument.1, token)

theorem tokenArguments_eq (arguments : List (Option String × Option Token)) :
    tokenArguments arguments = (present arguments).map argument := by
  rw [tokenArguments, present, List.map_filterMap]
  simp only [Option.map_map]
  rfl

theorem sublist_present (arguments : List (Option String × Option Token)) :
    ((present arguments).map Prod.fst).Sublist (arguments.map Prod.fst) := by
  induction arguments with
  | nil => exact .slnil
  | cons argument rest ih =>
      rcases argument with ⟨label, token⟩
      cases token with
      | none => exact ih.cons label
      | some token => exact ih.cons_cons label

/-- Where each label is used once, the arguments that are there fit. -/
theorem fit_present (distinct : labels.Nodup)
    (labelled : arguments.map Prod.fst = labels.map some) : Fit labels (present arguments) := by
  have sublist := sublist_present arguments
  rw [labelled] at sublist
  refine ⟨sublist.nodup (distinct.map (Option.some_injective _)), ?_⟩
  intro argument member
  exact sublist.subset (List.mem_map_of_mem member)

theorem passed?_present (distinct : labels.Nodup)
    (labelled : arguments.map Prod.fst = labels.map some) {label : String}
    {token : Option Token} (member : (some label, token) ∈ arguments) :
    passed? (present arguments) label = token := by
  have once : (arguments.map Prod.fst).Nodup :=
    labelled ▸ distinct.map (Option.some_injective _)
  clear labelled
  induction arguments with
  | nil => cases member
  | cons argument rest ih =>
      obtain ⟨fresh, others⟩ := List.nodup_cons.mp once
      rcases List.mem_cons.mp member with rfl | later
      · cases token with
        | none =>
            apply List.lookup_eq_none_iff.mpr
            intro entry entryMember
            have old := (sublist_present rest).subset (List.mem_map_of_mem entryMember)
            have different : some label ≠ entry.1 := fun same => fresh (same ▸ old)
            simpa using different
        | some token => simp [present, passed?]
      · have different : some label ≠ argument.1 :=
          fun same => fresh (same ▸ List.mem_map_of_mem later)
        rcases argument with ⟨other, passed⟩
        rw [← ih later others]
        cases passed with
        | none => rfl
        | some passed =>
            have differs : (some label == other) = false := by simpa using different
            simp [present, passed?, List.lookup_cons, differs]

theorem present_ne_nil (shown : (arguments.map Prod.snd).all Option.isNone = false) :
    present arguments ≠ [] := by
  intro none
  rw [List.all_eq_false] at shown
  obtain ⟨token, member, found⟩ := shown
  obtain ⟨argument, argumentMember, rfl⟩ := List.mem_map.mp member
  have absent := List.filterMap_eq_nil_iff.mp none argument argumentMember
  exact found (Option.isNone_iff_eq_none.mpr (Option.map_eq_none_iff.mp absent))

namespace Fit

variable {entries : List TokenArgument}

theorem ne_none (fit : Fit labels entries) : ∀ entry ∈ entries, entry.1 ≠ none := by
  intro entry member none
  have labelled := fit.2 entry member
  rw [none] at labelled
  simp at labelled

theorem words (fit : Fit labels entries)
    (letters : ∀ label ∈ labels, label.toList.all Char.isAlpha = true) :
    ∀ entry ∈ entries, WordLabel entry.1 := by
  intro entry member word same
  obtain ⟨label, labelMember, found⟩ := List.mem_map.mp (fit.2 entry member)
  obtain rfl : label = word := Option.some.inj (found.trans same)
  exact letters label labelMember

/-- Arguments that fit some labels fit no others. -/
theorem not_fit {others : List String} (fit : Fit labels entries) (any : entries ≠ [])
    (apart : ∀ label ∈ labels, label ∉ others) : ¬ Fit others entries := by
  intro otherFit
  obtain ⟨entry, member⟩ := List.exists_mem_of_ne_nil entries any
  obtain ⟨label, labelMember, found⟩ := List.mem_map.mp (fit.2 entry member)
  obtain ⟨other, otherMember, same⟩ := List.mem_map.mp (otherFit.2 entry member)
  obtain rfl : other = label := Option.some.inj (same.trans found.symm)
  exact apart other labelMember otherMember

end Fit

end TokenArgument

/-- Arguments with labels set each edge by itself, or each pair of edges. -/
theorem Edges.ofArguments?_labelled {entries : List TokenArgument}
    (labelled : ∀ entry ∈ entries, entry.1 ≠ none) :
    Edges.ofArguments? entries =
      if Fit ["start", "top", "end", "bottom"] entries then
        some ⟨passed? entries "start", passed? entries "top", passed? entries "end",
          passed? entries "bottom"⟩
      else if Fit ["horizontal", "vertical"] entries then
        some ⟨passed? entries "horizontal", passed? entries "vertical",
          passed? entries "horizontal", passed? entries "vertical"⟩
      else none := by
  unfold Edges.ofArguments?
  split
  case h_1 token => exact absurd rfl (labelled (none, token) List.mem_cons_self)
  case h_2 => rfl

theorem Corners.ofArguments?_labelled {entries : List TokenArgument}
    (labelled : ∀ entry ∈ entries, entry.1 ≠ none) :
    Corners.ofArguments? entries =
      if Fit ["topStart", "topEnd", "bottomEnd", "bottomStart"] entries then
        some ⟨passed? entries "topStart", passed? entries "topEnd", passed? entries "bottomEnd",
          passed? entries "bottomStart"⟩
      else none := by
  unfold Corners.ofArguments?
  split
  case h_1 token => exact absurd rfl (labelled (none, token) List.mem_cons_self)
  case h_2 => rfl

/-- The arguments of a padding can be read back and set each edge to its token. -/
theorem exists_paddingArguments {tokens : Edges (Option Token)}
    (shown : tokens.toList.all Option.isNone = false) :
    ∃ entries, paddingArguments tokens = entries.map argument ∧ entries ≠ [] ∧
      (∀ entry ∈ entries, WordLabel entry.1) ∧ Edges.ofArguments? entries = some tokens := by
  rcases tokens with ⟨left, top, right, bottom⟩
  unfold paddingArguments
  split
  case isTrue alike =>
    dsimp only at alike
    obtain ⟨isSome, rfl, rfl, rfl⟩ := alike
    obtain ⟨token, rfl⟩ := Option.isSome_iff_exists.mp isSome
    exact ⟨[(none, token)], rfl, by simp, by simp [WordLabel], rfl⟩
  case isFalse =>
    rw [tokenArguments_eq, tokenArguments_eq]
    split
    case isTrue pairs =>
      dsimp only at pairs
      obtain ⟨rfl, rfl⟩ := pairs
      let arguments := [(some "horizontal", left), (some "vertical", top)]
      have any : present arguments ≠ [] := by
        apply present_ne_nil
        cases left <;> simp_all [arguments, Edges.toList]
      have distinct : ["horizontal", "vertical"].Nodup := by decide
      have fit : Fit ["horizontal", "vertical"] (present arguments) := fit_present distinct rfl
      have passed : ∀ label token, (some label, token) ∈ arguments →
          passed? (present arguments) label = token :=
        fun _ _ => passed?_present distinct rfl
      refine ⟨present arguments, rfl, any, fit.words (by decide), ?_⟩
      rw [Edges.ofArguments?_labelled fit.ne_none, if_neg (fit.not_fit any (by decide)),
        if_pos fit, passed "horizontal" left (by simp [arguments]),
        passed "vertical" top (by simp [arguments])]
    case isFalse =>
      let arguments := [(some "start", left), (some "top", top), (some "end", right),
        (some "bottom", bottom)]
      have any : present arguments ≠ [] := present_ne_nil (by
        simpa [arguments, Edges.toList] using shown)
      have distinct : ["start", "top", "end", "bottom"].Nodup := by decide
      have fit : Fit ["start", "top", "end", "bottom"] (present arguments) :=
        fit_present distinct rfl
      have passed : ∀ label token, (some label, token) ∈ arguments →
          passed? (present arguments) label = token :=
        fun _ _ => passed?_present distinct rfl
      refine ⟨present arguments, rfl, any, fit.words (by decide), ?_⟩
      rw [Edges.ofArguments?_labelled fit.ne_none, if_pos fit,
        passed "start" left (by simp [arguments]),
        passed "top" top (by simp [arguments]),
        passed "end" right (by simp [arguments]),
        passed "bottom" bottom (by simp [arguments])]

theorem exists_shapeArguments {tokens : Corners (Option Token)}
    (shown : tokens.toList.all Option.isNone = false) :
    ∃ entries, shapeArguments tokens = entries.map argument ∧ entries ≠ [] ∧
      (∀ entry ∈ entries, WordLabel entry.1) ∧ Corners.ofArguments? entries = some tokens := by
  rcases tokens with ⟨topLeft, topRight, bottomRight, bottomLeft⟩
  unfold shapeArguments
  split
  case isTrue alike =>
    dsimp only at alike
    obtain ⟨isSome, rfl, rfl, rfl⟩ := alike
    obtain ⟨token, rfl⟩ := Option.isSome_iff_exists.mp isSome
    exact ⟨[(none, token)], rfl, by simp, by simp [WordLabel], rfl⟩
  case isFalse =>
    rw [tokenArguments_eq]
    let arguments := [(some "topStart", topLeft), (some "topEnd", topRight),
      (some "bottomEnd", bottomRight), (some "bottomStart", bottomLeft)]
    have any : present arguments ≠ [] := present_ne_nil (by
      simpa [arguments, Corners.toList] using shown)
    have distinct : ["topStart", "topEnd", "bottomEnd", "bottomStart"].Nodup := by decide
    have fit : Fit ["topStart", "topEnd", "bottomEnd", "bottomStart"] (present arguments) :=
      fit_present distinct rfl
    have passed : ∀ label token, (some label, token) ∈ arguments →
        passed? (present arguments) label = token :=
      fun _ _ => passed?_present distinct rfl
    refine ⟨present arguments, rfl, any, fit.words (by decide), ?_⟩
    rw [Corners.ofArguments?_labelled fit.ne_none, if_pos fit,
      passed "topStart" topLeft (by simp [arguments]),
      passed "topEnd" topRight (by simp [arguments]),
      passed "bottomEnd" bottomRight (by simp [arguments]),
      passed "bottomStart" bottomLeft (by simp [arguments])]

theorem edgesCall?_eq_none_iff {tokens : Edges (Option Token)} :
    edgesCall? tokens = none ↔ ∀ token ∈ tokens.toList, token = none := by
  simp [edgesCall?]

theorem cornersCall?_eq_none_iff {tokens : Corners (Option Token)} :
    cornersCall? tokens = none ↔ ∀ token ∈ tokens.toList, token = none := by
  simp [cornersCall?]

/-- The call of a padding sets each edge to its token. -/
theorem ofArguments?_edgesCall? (tokens : Edges (Option Token)) :
    ∀ code ∈ edgesCall? tokens,
      (code.arguments? "padding").bind Edges.ofArguments? = some tokens := by
  intro code called
  unfold edgesCall? at called
  split at called
  case isTrue => cases called
  case isFalse shown =>
    cases called
    obtain ⟨entries, written, any, words, sets⟩ :=
      exists_paddingArguments (Bool.not_eq_true _ ▸ shown)
    rw [written, arguments?_call "padding" words any]
    exact sets

/-- The call of a shape sets each corner to its token. -/
theorem ofArguments?_cornersCall? (tokens : Corners (Option Token)) :
    ∀ code ∈ cornersCall? tokens,
      (code.arguments? "RoundedCornerShape").bind Corners.ofArguments? = some tokens := by
  intro code called
  unfold cornersCall? at called
  split at called
  case isTrue => cases called
  case isFalse shown =>
    cases called
    obtain ⟨entries, written, any, words, sets⟩ :=
      exists_shapeArguments (Bool.not_eq_true _ ▸ shown)
    rw [written, arguments?_call "RoundedCornerShape" words any]
    exact sets

end rules

section sides

open Registering Source

variable {registry after : Registry}

/-- Of the values that were registered just the blank ones have no token. -/
theorem Registry.Takes.tokenOf_eq_none_iff {values : List DesignValue}
    (takes : registry.Takes values after) {value : DesignValue} (member : value ∈ values) :
    after.tokenOf value = none ↔ value.isBlank = true := by
  cases blank : value.isBlank with
  | true => simp [Registry.tokenOf, blank]
  | false =>
      obtain ⟨owns, asks, rfl⟩ := takes
      obtain ⟨own, ownMember, asked⟩ := DesignValue.mem_ownTokens asks member blank
      have found := TokenTable.get?_foldl_insertNew registry.table owns own.category own.id
      have present : (owns.find? fun token =>
          token.category = own.category ∧ token.id = own.id).isSome :=
        List.find?_isSome.mpr ⟨own, ownMember, by simp⟩
      have stored : (Registry.get? ⟨owns.foldl TokenTable.insertNew registry.table⟩ own.category
          own.id).isSome := by
        rw [Registry.get?, found, Option.isSome_or, present, Bool.or_true]
      simpa [Registry.tokenOf, blank, asked] using Option.isSome_iff_ne_none.mp stored

theorem tokenOf_eq_none_iff_isZero {values : List DesignValue} {category : Category}
    {length : Dimension} (takes : registry.Takes values after)
    (member : .of category length ∈ values) :
    after.tokenOf (.of category length) = none ↔ length.IsZero := by
  rw [takes.tokenOf_eq_none_iff member, DesignValue.isBlank_of, Property.isBlank_iff_isZero]

/-- The call of a padding, read back, sets each edge to the token that is
registered for it and leaves those edges at zero that are not there or zeros of
their own.  Where all edges are, there is no call.  The same holds of the
corners of a shape. -/
theorem Source.sides_of_calls (registry : Registry) :
    (∀ (padding : Padding) (call : Option Code) (after : Registry),
      (padding? padding).Gives registry call after →
      (call = none ↔ ∀ edge ∈ padding.toList, ∀ length ∈ edge, length.IsZero) ∧
      (∀ edge ∈ padding.toList, dimensionToken after.tokenOf edge = none ↔
        ∀ length ∈ edge, length.IsZero) ∧
      ∀ code ∈ call, (code.arguments? "padding").bind Edges.ofArguments? =
        some (padding.map (dimensionToken after.tokenOf))) ∧
    ∀ (shape : Shape) (call : Option Code) (after : Registry),
      (shape? shape).Gives registry call after →
      (call = none ↔ ∀ corner ∈ shape.toList, corner.IsZero) ∧
      (∀ corner ∈ shape.toList, after.tokenOf (.of .shape corner) = none ↔ corner.IsZero) ∧
      ∀ code ∈ call, (code.arguments? "RoundedCornerShape").bind Corners.ofArguments? =
        some (shape.map fun corner => after.tokenOf (.of .shape corner)) := by
  constructor
  · intro padding call after gives
    rw [padding?_eq] at gives
    obtain ⟨tokens, between, givesTokens, gives⟩ := gives_bind.mp gives
    obtain ⟨rfl, rfl⟩ := gives_pure.mp gives
    have shows := shows_edgeTokens givesTokens
    obtain rfl := shows.result_eq between fun _ _ _ found => found
    have each : ∀ edge ∈ padding.toList, dimensionToken between.tokenOf edge = none ↔
        ∀ length ∈ edge, length.IsZero := by
      intro edge member
      cases edge with
      | none => simp [dimensionToken]
      | some length =>
          have value : .of .padding length ∈ padding.toList.flatMap dimensionValues :=
            List.mem_flatMap.mpr ⟨some length, member, by simp [dimensionValues]⟩
          simpa [dimensionToken] using tokenOf_eq_none_iff_isZero shows.takes value
    refine ⟨?_, each, ofArguments?_edgesCall? _⟩
    have listed : (padding.map (dimensionToken between.tokenOf)).toList =
        padding.toList.map (dimensionToken between.tokenOf) := rfl
    rw [edgesCall?_eq_none_iff, listed, List.forall_mem_map]
    exact forall₂_congr each
  · intro shape call after gives
    rw [shape?_eq] at gives
    obtain ⟨tokens, between, givesTokens, gives⟩ := gives_bind.mp gives
    obtain ⟨rfl, rfl⟩ := gives_pure.mp gives
    have shows := shows_cornerTokens givesTokens
    obtain rfl := shows.result_eq between fun _ _ _ found => found
    have each : ∀ corner ∈ shape.toList,
        between.tokenOf (.of .shape corner) = none ↔ corner.IsZero := by
      intro corner member
      have value : .of .shape corner ∈ shapeValues (some shape) := by
        simpa [shapeValues] using ⟨corner, member, rfl⟩
      exact tokenOf_eq_none_iff_isZero shows.takes value
    refine ⟨?_, each, ofArguments?_cornersCall? _⟩
    have listed : Corners.toList ⟨between.tokenOf (.of .shape shape.topLeft),
        between.tokenOf (.of .shape shape.topRight),
        between.tokenOf (.of .shape shape.bottomRight),
        between.tokenOf (.of .shape shape.bottomLeft)⟩ =
        shape.toList.map fun corner => between.tokenOf (.of .shape corner) := rfl
    rw [cornersCall?_eq_none_iff, listed, List.forall_mem_map]
    exact forall₂_congr each

/-- Links of one name at opposite edges, beside a zero and an edge that is not
there, and a shape whose registry has another value for two of its corners. -/
theorem Source.sides_of_calls_shared : ∃ code after round roundAfter,
    (padding? ⟨some (.linked ⟨"V:1", "gap", 8.0⟩), some (.own 0.0),
      some (.linked ⟨"V:2", "gap", 4.0⟩), none⟩).Gives .empty (some code) after ∧
    code.arguments? "padding" = some [(some "horizontal", Token.named .padding "gap" "8.dp")] ∧
    (code.arguments? "padding").bind Edges.ofArguments? =
      some ⟨some (Token.named .padding "gap" "8.dp"), none,
        some (Token.named .padding "gap" "8.dp"), none⟩ ∧
    (shape? ⟨.own 4.0, .own 4.0, .linked ⟨"V:3", "none", 0.0⟩, .own (-0.0)⟩).Gives
      ⟨.ofList [Token.named .shape "4.dp" "5.dp"]⟩ (some round) roundAfter ∧
    (round.arguments? "RoundedCornerShape").bind Corners.ofArguments? =
      some ⟨some (Token.named .shape "4.dp" "5.dp"), some (Token.named .shape "4.dp" "5.dp"),
        some (Token.named .shape "none" "0.dp"), none⟩ := by
  have gives : (padding? ⟨some (.linked ⟨"V:1", "gap", 8.0⟩), some (.own 0.0),
      some (.linked ⟨"V:2", "gap", 4.0⟩), none⟩).Gives .empty
      (some ⟨[.text "padding(horizontal = ", .token (Token.named .padding "gap" "8.dp"),
        .text ")"]⟩) ⟨.ofList [Token.named .padding "gap" "8.dp"]⟩ := by
    decide +kernel
  have givesRound : (shape? ⟨.own 4.0, .own 4.0, .linked ⟨"V:3", "none", 0.0⟩,
      .own (-0.0)⟩).Gives ⟨.ofList [Token.named .shape "4.dp" "5.dp"]⟩
      (some ⟨[.text "RoundedCornerShape(topStart = ",
        .token (Token.named .shape "4.dp" "5.dp"), .text ", topEnd = ",
        .token (Token.named .shape "4.dp" "5.dp"), .text ", bottomEnd = ",
        .token (Token.named .shape "none" "0.dp"), .text ")"]⟩)
      ⟨.ofList [Token.named .shape "4.dp" "5.dp", Token.named .shape "none" "0.dp"]⟩ := by
    decide +kernel
  obtain ⟨-, -, sets⟩ := (sides_of_calls .empty).1 _ _ _ gives
  obtain ⟨-, -, rounds⟩ := (sides_of_calls _).2 _ _ _ givesRound
  exact ⟨_, _, _, _, gives, by decide, (sets _ rfl).trans (by decide), givesRound,
    (rounds _ rfl).trans (by decide +kernel)⟩

end sides

end DesignLayout
