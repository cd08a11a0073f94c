import HiddenContent.Proofs.OpenLines

/-!
# When encoding changes nothing

Encoding keeps a text exactly when there is nothing in it to hide: a hidden directive becomes a
token, which begins with another character, and a closed region becomes one line of two or more.
So encoding twice is encoding once exactly when the first result has nothing left to hide. This is
not so for every text. A token can close a blob that its directive broke off, and the head of that
blob is a directive then; and a directive over several lines can leave a closer line whose opener
it took away. A calm text is safe from the former, and a text whose spans stand on one line each is
safe from the latter too: encoding it line by line leaves openers and closers where they were.
-/

namespace HiddenContent

namespace Settings

/-- Inline encoding keeps a text exactly when none of its spans hides. -/
theorem encodeInline_fixed_iff (settings : Settings) (text : Text) :
    settings.encodeInline text = text ↔
      ∀ span ∈ Tokens.ofText text true, settings.hides span = false := by
  obtain ⟨scan, whole⟩ := Piece.scan_cut (Reader.isLocal_all true) text
  have same := settings.storedOf_eq_textOf_iff scan 0
  rw [whole] at same
  rw [encodeInline_eq, Tokens.ofText_eq_placed]
  exact same

/-- Inline encoding makes no more lines. -/
theorem length_lines_encodeInline (settings : Settings) (text : Text) :
    (settings.encodeInline text).lines.length ≤ text.lines.length := by
  obtain ⟨scan, whole⟩ := Piece.scan_cut (Reader.isLocal_all true) text
  have fewer := settings.count_storedOf scan
  rw [whole] at fewer
  rw [Text.length_lines, Text.length_lines, encodeInline_eq]
  exact Nat.add_le_add_right fewer 1

/-- Encoding keeps a text exactly when it finds neither a closed region nor a span that hides. -/
theorem encode_fixed_iff (settings : Settings) (text : Text) :
    settings.encode text = text ↔
      (Layout.ofLines settings.directiveAction text.lines).regions = [] ∧
        ∀ span ∈ Tokens.ofText text true, settings.hides span = false := by
  have unchanged
      (none : (Layout.ofLines settings.directiveAction text.lines).regions = []) :
      settings.encodeBlocks text = text := by
    rw [encodeBlocks]
    rw [settings.encodeLines_of_none ((Layout.regions_eq_nil_iff _ _).mp none), Text.ofLines_lines]
  constructor
  · intro same
    have none : (Layout.ofLines settings.directiveAction text.lines).regions = [] := by
      by_contra present
      have blocks := (settings.length_encodeLines text.lines).2 present
      have inlines := settings.length_lines_encodeInline (settings.encodeBlocks text)
      rw [settings.lines_encodeBlocks] at inlines
      have all := congrArg (fun stored => (Text.lines stored).length) same
      simp only [encode] at all
      omega
    refine ⟨none, (settings.encodeInline_fixed_iff text).mp ?_⟩
    rwa [encode, unchanged none] at same
  · rintro ⟨none, shown⟩
    rw [encode, unchanged none]
    exact (settings.encodeInline_fixed_iff text).mpr shown

/-- Encoding a text once is encoding it for good, when inline encoding meets a calm text in which
    every span stands on one line.

    Proof: the encoded blocks left no region that closes. Encoding them line by line keeps what
    every line counts for blocks, so no region closes in what is stored, and in what is stored of a
    calm text no span hides. -/
theorem encode_encode_of_calm (settings : Settings) (sealing : '}' ∈ settings.forbiddenCharacters)
    (text : Text) (calmly : settings.isCalmByLine (settings.encodeBlocks text) = true) :
    settings.encode (settings.encode text) = settings.encode text := by
  have byLine := settings.encodesByLine_of_calm _ calmly
  rw [isCalmByLine, Bool.and_eq_true] at calmly
  have again := settings.encodeInline_encodeInline_of_calm sealing _ calmly.1
  have absent := settings.first?_encodeLines text.lines
  rw [← settings.lines_encodeBlocks] at absent
  rw [settings.encode_fixed_iff, Layout.regions_eq_nil_iff]
  constructor
  · have related := byLine.alike (fun _ => ⟨rfl, rfl⟩) (settings.sameShape_encodeInline sealing)
    exact Region.first?_alike (fun _ _ same => same) _ related absent
  · exact (settings.encodeInline_fixed_iff _).mp again

/-- Encoding again keeps what was stored exactly when nothing in it hides. For inline directives
    it is enough that the text was calm, and for all directives that the text was calm without its
    blocks and had every span on one line then.

    Proof: encoding keeps a text exactly when it finds neither a closed region nor a span that
    hides. A calm text leaves no such span, and a text that is encoded line by line leaves no such
    region. -/
theorem encode_encode_iff (text : Text) :
    (encodeInline {} (encodeInline {} text) = encodeInline {} text ↔
      ∀ span ∈ Tokens.ofText (encodeInline {} text) true, hides {} span = false) ∧
    (isCalm {} text = true → encodeInline {} (encodeInline {} text) = encodeInline {} text) ∧
    (encode {} (encode {} text) = encode {} text ↔
      (Layout.ofLines "hide".toList (encode {} text).lines).regions = [] ∧
        ∀ span ∈ Tokens.ofText (encode {} text) true, hides {} span = false) ∧
    (isCalmByLine {} (encodeBlocks {} text) = true →
      encode {} (encode {} text) = encode {} text) :=
  ⟨encodeInline_fixed_iff {} (encodeInline {} text),
    encodeInline_encodeInline_of_calm {} (by decide) text,
    encode_fixed_iff {} (encode {} text),
    encode_encode_of_calm {} (by decide) text⟩

/-- A directive with line feeds in its payload is stored for good, and so are a block and the
    directives on the line behind it. -/
theorem encode_encode_calm :
    encodeInline {} (encodeInline {} "[a] :::hide\x7bk=v\x7d x\n\x7d:::".toList) =
        encodeInline {} "[a] :::hide\x7bk=v\x7d x\n\x7d:::".toList ∧
      encode {} (encode {} ":::hide\x7ba=1\x7d\nx\n:::\n[a] :::hide b::: :::note c:::".toList) =
        encode {} ":::hide\x7ba=1\x7d\nx\n:::\n[a] :::hide b::: :::note c:::".toList := by
  constructor
  · exact (encode_encode_iff "[a] :::hide\x7bk=v\x7d x\n\x7d:::".toList).2.1 (by decide)
  · have found : Region.first? "hide".toList
        (Text.lines ":::hide\x7ba=1\x7d\nx\n:::\n[a] :::hide b::: :::note c:::".toList) =
        some (⟨[], ⟨"hide".toList, "\x7ba=1\x7d".toList⟩, ["x".toList]⟩,
          ["[a] :::hide b::: :::note c:::".toList]) := by decide
    have blocks :
        encodeBlocks {} ":::hide\x7ba=1\x7d\nx\n:::\n[a] :::hide b::: :::note c:::".toList =
          "[hide-block\x7ba:1\x7d]\n[a] :::hide b::: :::note c:::".toList := by
      rw [encodeBlocks, encodeLines_of_first {} found, encodeLines_of_none {} (by decide)]
      decide
    refine (encode_encode_iff _).2.2.2 ?_
    rw [blocks, isCalmByLine, Tokens.ofText_eq_placed]
    decide

/-- The inner directive of this text takes a closing brace away, and the outer head reads on to the
    next one. -/
theorem encode_encode_ne :
    encodeInline {} (encodeInline {} ":::hide\x7b:::hide \x7d:::\x7d :::".toList) ≠
        encodeInline {} ":::hide\x7b:::hide \x7d:::\x7d :::".toList ∧
      encode {} (encode {} ":::hide\x7b:::hide \x7d:::\x7d :::".toList) ≠
        encode {} ":::hide\x7b:::hide \x7d:::\x7d :::".toList := by
  have first : encodeInline {} ":::hide\x7b:::hide \x7d:::\x7d :::".toList =
      ":::hide\x7b[hide-inline]\x7d :::".toList := by
    rw [encodeInline_eq]
    decide
  have second : encodeInline {} ":::hide\x7b[hide-inline]\x7d :::".toList =
      "[hide-inline]".toList := by
    rw [encodeInline_eq]
    decide
  have unblocked (text : Text) (none : Region.first? "hide".toList text.lines = none) :
      encode {} text = encodeInline {} text := by
    rw [encode, encodeBlocks, encodeLines_of_none {} none, Text.ofLines_lines]
  have once := unblocked ":::hide\x7b:::hide \x7d:::\x7d :::".toList (by decide)
  have twice := unblocked ":::hide\x7b[hide-inline]\x7d :::".toList (by decide)
  rw [once, first, twice, second]
  exact ⟨by decide, by decide⟩

end Settings

end HiddenContent
