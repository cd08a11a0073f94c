import HiddenContent.Proofs.LeftmostSpans
import HiddenContent.Proofs.Payload
import HiddenContent.Proofs.VisibleText

/-!
# What is searched is what is shown

A keyword is looked for in the stored text without its tokens. The search for them is one loop,
which goes from token to token; a view of the same text is made by the walk, which takes directives
and tokens together. On a text without a directive the walk finds tokens only, so it cuts the text
into the same pieces. Then the texts between the hidden nodes of the view are the text that is
searched.

What a token carries is never searched either. A token that is exchanged for another one leaves the
pieces around it as they were, even when an opening before it looks for its brace inside of it.
-/

namespace HiddenContent

/-- Readers that read alike everywhere in a text cut it alike. -/
theorem Piece.cut_congr {first second : Reader} (text : Text)
    (same : ∀ skip, first (text.drop skip) = second (text.drop skip)) :
    cut first text = cut second text := by
  suffices ∀ skip, cutFrom first skip text = cutFrom second skip text from this 0
  induction text with
  | nil => intro skip; cases skip <;> rfl
  | cons c rest inductionHypothesis =>
    have later : ∀ skip, cutFrom first skip rest = cutFrom second skip rest :=
      inductionHypothesis fun skip => same (skip + 1)
    have here : first (c :: rest) = second (c :: rest) := same 0
    intro skip
    cases skip with
    | zero => simp only [cutFrom, here, later]
    | succ skip => simp only [cutFrom, later]

/-- Where no directive is found, none is read at any place. -/
theorem Span.inlineHere?_drop_of_absent {text : Text} (absent : inlineFrom? text 0 = none)
    (skip : Nat) : inlineHere? (text.drop skip) 0 = none := by
  rw [Reader.inlineFrom?_eq, Reader.find, List.drop_zero] at absent
  rcases Reader.first?_cases (Reader.isLocal_all false) text 0 with
    ⟨_, nothing⟩ | ⟨_, _, found, _⟩
  · have refused := nothing skip
    rw [Reader.all, Tokens.here?] at refused
    cases read : inlineHere? (text.drop skip) 0 with
    | none => rfl
    | some directive => simp [read] at refused
  · rw [absent] at found
    exact absurd found (by simp)

/-- A text without a directive has the pieces of its tokens alone. -/
theorem Piece.cut_all_eq_cut_tokens {text : Text} (absent : Span.inlineFrom? text 0 = none) :
    cut (Reader.all true) text = cut Reader.tokens text := by
  apply cut_congr
  intro skip
  simp only [Reader.all, Tokens.here?, Span.inlineHere?_drop_of_absent absent skip, if_true]
  rfl

/-- What is shown of nodes that enclose nothing are the values of the texts among them. -/
theorem Node.shownTexts_of_childless (nodes : List Node)
    (childless : ∀ node ∈ nodes, node.children = []) :
    shownTexts nodes = (nodes.filter isText).flatMap valueText := by
  induction nodes with
  | nil => rfl
  | cons node rest inductionHypothesis =>
    obtain ⟨bare, bareRest⟩ := List.forall_mem_cons.mp childless
    rw [shownTexts_cons, inductionHypothesis bareRest, List.filter_cons]
    cases node with
    | element kind value children data =>
      have none : children = [] := bare
      by_cases isText : kind.text = textKind
      · have text : (element kind value children data).isText = true := beq_iff_eq.mpr isText
        rw [shownText, none, if_pos isText, ← none, if_pos text]
        simp [none, valueText, value?]
      · have other : ¬(element kind value children data).isText = true :=
          fun text => isText (beq_iff_eq.mp text)
        rw [shownText, none, if_neg isText, ← none, if_neg other]
        simp [none]
    | hiddenInline attributes payload label =>
      rw [isText_of_isHidden rfl]
      rfl
    | hiddenBlock attributes label children =>
      rw [isText_of_isHidden rfl]
      rfl

/-- A viewer of stored text reads exactly the text in which a keyword is looked for.

    Proof: the texts of a split text are what its pieces show, and without a directive these pieces
    are the ones that a search reads. -/
theorem Resolve.values_splitInline_eq_strip (settings : Settings) (content : Text)
    (absent : Span.inlineFrom? content 0 = none) :
    ((splitInline settings content).filter Node.isText).flatMap Node.valueText =
      Search.strip settings content := by
  have childless : ∀ node ∈ splitInline settings content, node.children = [] :=
    fun node member => (isFragment_splitInline settings content node member).childless
  calc ((splitInline settings content).filter Node.isText).flatMap Node.valueText
      = Node.shownTexts (splitInline settings content) :=
        (Node.shownTexts_of_childless _ childless).symm
    _ = settings.shownOf (Piece.cut (Reader.all true) content) :=
        shownTexts_splitInline settings content
    _ = settings.shownOf (Piece.cut Reader.tokens content) := by
        rw [Piece.cut_all_eq_cut_tokens absent]
    _ = Search.strip settings content := (Search.strip_eq settings content).symm

/-- Two tokens are hidden, the second with a blob over two lines. Between them a token of another
    action and an opening that is never closed are shown. -/
theorem Resolve.values_splitInline_eq_strip_mixed :
    Span.inlineFrom?
        "a[hide-inline][x-block] [hide-inline [hide-block\x7bk:v,\nm\x7d]b".toList 0 = none ∧
      ((splitInline {}
          "a[hide-inline][x-block] [hide-inline [hide-block\x7bk:v,\nm\x7d]b".toList).filter
        Node.isText).flatMap Node.valueText = "a[x-block] [hide-inline b".toList := by
  have absent : Span.inlineFrom?
      "a[hide-inline][x-block] [hide-inline [hide-block\x7bk:v,\nm\x7d]b".toList 0 = none := by
    decide
  refine ⟨absent, ?_⟩
  rw [values_splitInline_eq_strip {} _ absent, Search.strip_eq]
  decide

/-! ## What a token carries -/

/-- In a composed text, whose middle part is a token of the configured action, what stands before
    the token and after it is searched as if it stood alone. -/
theorem Search.strip_of_token (settings : Settings) (before token after : Text) (span : Span)
    (read : span ∈ Tokens.placeholders (before ++ token ++ after))
    (start : span.start = before.length) (stop : span.stop = before.length + token.length)
    (acts : settings.acts span.action = true) :
    strip settings (before ++ token ++ after) =
      strip settings before ++ strip settings after := by
  rw [List.append_assoc, Tokens.placeholders_eq_placed] at read
  obtain ⟨reading, rfl, _, pieces⟩ :=
    Piece.cut_of_covering Reader.isLocal_tokens before token after span read start stop
  rw [strip_eq, strip_eq, strip_eq, List.append_assoc, pieces, Settings.shownOf_append,
    Settings.shownOf_cons, settings.shownPiece_of_acts token reading acts, List.nil_append]

/-- Two texts that differ in one token only, whatever its attributes and its mode, are searched
    alike: the same text is left of both, and the same predicates match.

    Proof: what is left around a token is what is left before it and behind it, whatever the token
    says. -/
theorem Search.strip_eq_of_other_token (settings : Settings) (before after : Text)
    (first second : Text) (firstSpan secondSpan : Span)
    (firstRead : firstSpan ∈ Tokens.placeholders (before ++ first ++ after))
    (secondRead : secondSpan ∈ Tokens.placeholders (before ++ second ++ after))
    (firstPlace : firstSpan.start = before.length ∧
      firstSpan.stop = before.length + first.length)
    (secondPlace : secondSpan.start = before.length ∧
      secondSpan.stop = before.length + second.length)
    (firstActs : settings.acts firstSpan.action = true)
    (secondActs : settings.acts secondSpan.action = true) :
    strip settings (before ++ first ++ after) = strip settings (before ++ second ++ after) ∧
      ∀ predicates, isMatch settings (before ++ first ++ after) predicates =
        isMatch settings (before ++ second ++ after) predicates := by
  have same : strip settings (before ++ first ++ after) =
      strip settings (before ++ second ++ after) := by
    rw [strip_of_token settings before first after firstSpan firstRead firstPlace.1 firstPlace.2
        firstActs,
      strip_of_token settings before second after secondSpan secondRead secondPlace.1
        secondPlace.2 secondActs]
  refine ⟨same, fun predicates => ?_⟩
  rw [isMatch, isMatch, missing, missing, same]

/-- An opening before the token and a bracket after it do not make one form of it all. -/
theorem Search.strip_eq_of_other_token_open :
    strip {} ("[a-inline\x7b\x7d ".toList ++ "[hide-inline\x7bk:v\x7d]".toList ++ "]".toList) =
        strip {} ("[a-inline\x7b\x7d ".toList ++ "[hide-block]".toList ++ "]".toList) ∧
      ∀ predicates,
        isMatch {}
            ("[a-inline\x7b\x7d ".toList ++ "[hide-inline\x7bk:v\x7d]".toList ++ "]".toList)
            predicates =
          isMatch {} ("[a-inline\x7b\x7d ".toList ++ "[hide-block]".toList ++ "]".toList)
            predicates := by
  apply strip_eq_of_other_token {} "[a-inline\x7b\x7d ".toList "]".toList
    "[hide-inline\x7bk:v\x7d]".toList "[hide-block]".toList
    ⟨.inline, "hide".toList, 12, 30, "\x7bk:v\x7d".toList, [], true⟩
    ⟨.block, "hide".toList, 12, 24, [], [], true⟩
  · rw [Tokens.placeholders_eq_placed]
    decide
  · rw [Tokens.placeholders_eq_placed]
    decide
  all_goals decide

end HiddenContent
