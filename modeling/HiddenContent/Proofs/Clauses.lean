import HiddenContent.Proofs.Forms
import HiddenContent.Search
import Mathlib.Data.List.Infix

/-!
# Keywords are the clauses that were written

A predicate is read for clauses from left to right, and everything between them is passed over. A
`WrittenPredicate` is a predicate of which it is known where its clauses stand. A gap between them
may hold quotes, line feeds and pieces of clauses, as long as it holds no whole head of a clause.

The head of a clause ends with the only double quote in it. So no head ends with the beginning of
another, and none can begin in a gap and end in the clause behind it. What is read are therefore
the keywords that were written, in order, and a content matches when each of them stands in the
text without tokens.
-/

namespace HiddenContent

/-- A part is found exactly where it stands without a break. -/
theorem Text.occursIn_iff (part text : Text) : occursIn part text = true ↔ part <:+: text := by
  induction text with
  | nil => simp [occursIn]
  | cons c rest inductionHypothesis =>
    simp [occursIn, inductionHypothesis, List.infix_cons_iff]

namespace Search

/-! ## One clause -/

/-- A skip leaves out the characters it counts. -/
theorem keywordsFrom_eq_drop (skip : Nat) (text : Text) :
    keywordsFrom skip text = keywordsFrom 0 (text.drop skip) := by
  induction text generalizing skip with
  | nil => cases skip <;> rfl
  | cons c rest inductionHypothesis =>
    cases skip with
    | zero => rfl
    | succ skip => simpa [keywordsFrom] using inductionHypothesis skip

/-- The clause of a keyword. -/
def clause (keyword : Text) : Text := clauseHead ++ (keyword ++ clauseTail)

/-- A written clause is read wherever it stands, whatever follows it. -/
theorem clause?_append (keyword rest : Text) (inhabited : keyword ≠ [])
    (unquoted : '\x22' ∉ keyword) : clause? (clause keyword ++ rest) = some keyword := by
  have head : Text.after? clauseHead (clause keyword ++ rest) =
      some (keyword ++ (clauseTail ++ rest)) :=
    (Text.after?_eq_some_iff _ _ _).mpr (by simp [clause])
  have run : (keyword ++ (clauseTail ++ rest)).takeWhile (· != '\x22') = keyword := by
    apply Text.takeWhile_run
    · intro c present
      simpa using fun same : c = '\x22' => unquoted (same ▸ present)
    · simp [clauseTail, Text.stopsAt_cons]
  have tail : Text.after? clauseTail (clauseTail ++ rest) = some rest :=
    (Text.after?_eq_some_iff _ _ _).mpr rfl
  simp only [clause?, head, run, List.drop_left, tail]
  simp [inhabited]

/-- A clause gives its keyword, and the reading goes on behind it. -/
theorem keywordsFrom_clause (keyword rest : Text) (inhabited : keyword ≠ [])
    (unquoted : '\x22' ∉ keyword) :
    keywordsFrom 0 (clause keyword ++ rest) = keyword :: keywordsFrom 0 rest := by
  have read := clause?_append keyword rest inhabited unquoted
  have written : clause keyword ≠ [] := by simp [clause, inhabited]
  obtain ⟨c, more, whole⟩ := List.exists_cons_of_ne_nil written
  have length : clauseHead.length + keyword.length + clauseTail.length - 1 = more.length := by
    have size := congrArg List.length whole
    simp only [clause, List.length_append, List.length_cons] at size
    omega
  rw [whole, List.cons_append] at read ⊢
  simp only [keywordsFrom, read, length]
  rw [keywordsFrom_eq_drop, List.drop_left]

/-- One clause asks for its keyword and nothing else. -/
theorem keywords_clause (keyword : Text) (inhabited : keyword ≠ [])
    (unquoted : '\x22' ∉ keyword) : keywords [clause keyword] = [keyword] := by
  have read := keywordsFrom_clause keyword [] inhabited unquoted
  rw [List.append_nil] at read
  simp only [keywords, List.flatMap_cons, List.flatMap_nil, List.append_nil, read]
  rfl

/-- A content matches when every keyword stands in the stripped text. -/
theorem isMatch_iff (settings : Settings) (content : Text) (predicates : List Text) :
    isMatch settings content predicates = true ↔
      ∀ keyword ∈ keywords predicates, keyword <:+: strip settings content := by
  simp [isMatch, missing, Text.occursIn_iff]

/-- A clause matches when its keyword stands in the stripped text. -/
theorem isMatch_clause_iff (settings : Settings) (content keyword : Text)
    (inhabited : keyword ≠ []) (unquoted : '\x22' ∉ keyword) :
    isMatch settings content [clause keyword] = true ↔ keyword <:+: strip settings content := by
  rw [isMatch_iff, keywords_clause keyword inhabited unquoted, List.forall_mem_singleton]

/-! ## Gaps -/

/-- No head of a clause ends with the beginning of another: the double quote at its end stands
    nowhere else in it. -/
theorem clauseHead_unbordered :
    ∀ skip < clauseHead.length, 0 < skip → ¬clauseHead.drop skip <+: clauseHead := by decide

/-- A head of a clause does not begin in a text that holds none, when the text is the last one or a
    clause follows. -/
theorem clauseHead_not_begins {gap rest : Text} (inhabited : gap ≠ [])
    (free : ¬clauseHead <:+: gap) (follows : rest = [] ∨ clauseHead <+: rest) :
    ¬clauseHead <+: gap ++ rest := by
  intro begins
  by_cases short : clauseHead.length ≤ gap.length
  · exact free ((Text.prefix_append_iff clauseHead gap rest short).mp begins).isInfix
  · -- the head would go over the end of the gap, and its own end would begin what follows
    have ends : clauseHead.drop gap.length <+: rest := by
      have dropped := List.IsPrefix.drop begins gap.length
      rwa [List.drop_left] at dropped
    have left : (clauseHead.drop gap.length).length = clauseHead.length - gap.length :=
      List.length_drop
    rcases follows with rfl | head
    · rw [List.prefix_nil.mp ends, List.length_nil] at left
      omega
    · have border : clauseHead.drop gap.length <+: clauseHead :=
        List.prefix_of_prefix_length_le ends head (by omega)
      exact clauseHead_unbordered gap.length (by omega) (List.length_pos_iff.mpr inhabited) border

/-- Nothing is read where no clause begins. -/
theorem clause?_eq_none {text : Text} (begins : ¬clauseHead <+: text) : clause? text = none := by
  have absent : Text.after? clauseHead text = none := by
    rw [Text.after?, if_neg]
    exact fun starts => begins (List.isPrefixOf_iff_prefix.mp starts)
  rw [clause?, absent]

/-- A gap is passed over. -/
theorem keywordsFrom_gap {gap rest : Text} (free : ¬clauseHead <:+: gap)
    (follows : rest = [] ∨ clauseHead <+: rest) :
    keywordsFrom 0 (gap ++ rest) = keywordsFrom 0 rest := by
  induction gap with
  | nil => rfl
  | cons c more inductionHypothesis =>
    have refused := clause?_eq_none (clauseHead_not_begins (List.cons_ne_nil c more) free follows)
    rw [List.cons_append] at refused ⊢
    simp only [keywordsFrom, refused]
    exact inductionHypothesis fun inside => free (inside.trans (List.suffix_cons c more).isInfix)

/-! ## Written predicates -/

/-- What a clause can ask for: at least one character, and no double quote. -/
structure Keyword where
  text : Text
  inhabited : text ≠ []
  unquoted : '\x22' ∉ text

/-- What can stand between clauses: anything without a head of a clause. -/
structure Gap where
  text : Text
  free : ¬clauseHead <:+: text

/-- A predicate by its clauses, each with the gap before it, and the gap behind the last one. -/
structure WrittenPredicate where
  clauses : List (Gap × Keyword)
  last : Gap

namespace WrittenPredicate

/-- The characters of clauses and gaps. -/
def textFrom (last : Gap) : List (Gap × Keyword) → Text
  | [] => last.text
  | (gap, keyword) :: rest => gap.text ++ (clause keyword.text ++ textFrom last rest)

/-- The characters of a predicate. -/
def text (predicate : WrittenPredicate) : Text := textFrom predicate.last predicate.clauses

/-- The keywords of the clauses in order. -/
def keywords (predicate : WrittenPredicate) : List Text :=
  predicate.clauses.map fun (_, keyword) => keyword.text

/-- A written predicate is read as its keywords. -/
theorem keywordsFrom_text (predicate : WrittenPredicate) :
    keywordsFrom 0 predicate.text = predicate.keywords := by
  obtain ⟨clauses, last⟩ := predicate
  simp only [text, keywords]
  induction clauses with
  | nil =>
    have passed : keywordsFrom 0 (last.text ++ []) = keywordsFrom 0 [] :=
      keywordsFrom_gap last.free (Or.inl rfl)
    rwa [List.append_nil] at passed
  | cons first rest inductionHypothesis =>
    obtain ⟨gap, keyword⟩ := first
    have follows : clauseHead <+: clause keyword.text ++ textFrom last rest := by
      rw [clause, List.append_assoc]
      exact List.prefix_append _ _
    rw [textFrom, keywordsFrom_gap gap.free (Or.inr follows),
      keywordsFrom_clause keyword.text _ keyword.inhabited keyword.unquoted, inductionHypothesis,
      List.map_cons]

end WrittenPredicate

/-- The keywords of written predicates are those of their clauses, in order, and a content matches
    the predicates exactly when each of these keywords stands in the content without its tokens.

    Proof: the keywords of a predicate are read clause by clause. In a gap nothing is read, since no
    clause begins there and none can begin inside another. -/
theorem keywords_written (predicates : List WrittenPredicate) :
    keywords (predicates.map WrittenPredicate.text) =
        predicates.flatMap WrittenPredicate.keywords ∧
      ∀ settings content,
        isMatch settings content (predicates.map WrittenPredicate.text) = true ↔
          ∀ keyword ∈ predicates.flatMap WrittenPredicate.keywords,
            keyword <:+: strip settings content := by
  have read : keywords (predicates.map WrittenPredicate.text) =
      predicates.flatMap WrittenPredicate.keywords := by
    rw [keywords, List.flatMap_map]
    simp only [WrittenPredicate.keywordsFrom_text]
  refine ⟨read, ?_⟩
  intro settings content
  rw [isMatch_iff, read]

/-- A predicate whose gaps hold other quotes, a line feed, all but the last character of a head, and
    what would end a clause. -/
def quotedPredicate : WrittenPredicate where
  clauses :=
    [(⟨"x == \x22a\x22\n content.contains(".toList, by decide⟩,
        ⟨"b\nc".toList, by decide, by decide⟩),
      (⟨"\x22) content.contains(\n\x22".toList, by decide⟩, ⟨")".toList, by decide, by decide⟩)]
  last := ⟨"!content.con".toList, by decide⟩

/-- Its two keywords are read before that of a second predicate, which has no gaps, and all three
    stand in a content. -/
theorem keywords_written_quoted :
    keywords
        [("x == \x22a\x22\n content.contains(content.contains(\x22b\nc\x22)" ++
            "\x22) content.contains(\n\x22content.contains(\x22)\x22)!content.con").toList,
          "content.contains(\x22d\x22)".toList] =
        ["b\nc".toList, ")".toList, "d".toList] ∧
      isMatch {} "(ab\nc) d".toList
        [("x == \x22a\x22\n content.contains(content.contains(\x22b\nc\x22)" ++
            "\x22) content.contains(\n\x22content.contains(\x22)\x22)!content.con").toList,
          "content.contains(\x22d\x22)".toList] = true := by
  let bare : WrittenPredicate :=
    { clauses := [(⟨[], by decide⟩, ⟨"d".toList, by decide, by decide⟩)], last := ⟨[], by decide⟩ }
  obtain ⟨read, decides⟩ := keywords_written [quotedPredicate, bare]
  refine ⟨read, (decides {} "(ab\nc) d".toList).mpr ?_⟩
  have visible : strip {} "(ab\nc) d".toList = "(ab\nc) d".toList := by cbv
  rw [visible]
  decide

end Search

end HiddenContent
