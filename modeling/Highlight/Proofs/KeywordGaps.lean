import Highlight.Proofs.KeywordUnion

/-!
# The pieces of a plain span

Cutting the keywords out of a list of spans goes span by span: what is not plain text stays, and
each plain span gives way to its pieces. `IsSplit` says what these are in terms of the text alone.
The keywords among them are the keywords of the text, `KeywordAt`, and the other pieces are the
gaps between these, `GapAt`, each as long as it can be. The main theorem is `exists_pieces_split`.

That a gap is a piece is shown by counting bytes: some piece has the first byte of the gap. It is
no keyword, so it is a gap as well, and two gaps that share a byte are the same.
-/

namespace Highlight

open Text (byteSize IsCut)

/-! ## Rows of lexemes -/

namespace Lexeme

variable {lexeme next : Lexeme} {lexemes : List Lexeme} {R : Lexeme → Lexeme → Prop}
  {before after before' after' : List Char} {kind : SpanKind} {start stop : Nat}

/-- A lexeme of this kind takes the bytes from `start` to `stop` of the row. -/
def Fills (lexemes : List Lexeme) (kind : SpanKind) (start stop : Nat) : Prop :=
  ∃ before chars after, IsAt lexemes before ⟨kind, chars⟩ after ∧ byteSize before = start ∧
    byteSize (before ++ chars) = stop

/-- A lexeme at a place fills the bytes from there to its end. -/
theorem IsAt.fills (h : IsAt lexemes before lexeme after) :
    Fills lexemes lexeme.kind (byteSize before) (byteSize (before ++ lexeme.chars)) :=
  ⟨before, lexeme.chars, after, h, rfl, rfl⟩

/-- The spans of lexemes that are laid out are where the lexemes are in the row. -/
theorem exists_mem_layOut_iff (origin : Nat) :
    (∃ span ∈ layOut origin lexemes, span.kind = kind ∧ span.start = origin + start ∧
        span.stop = origin + stop) ↔ Fills lexemes kind start stop := by
  constructor
  · rintro ⟨span, hspan, rfl, hstart, hstop⟩
    obtain ⟨before, after, hat, hbefore⟩ := mem_layOut_iff.mp hspan
    refine ⟨before, span.text.toList, after, hat, by omega, ?_⟩
    rw [Span.stop, Span.size, ← Text.byteSize_toList] at hstop
    rw [Text.byteSize_append]
    omega
  · rintro ⟨before, chars, after, hat, rfl, rfl⟩
    refine ⟨⟨kind, origin + byteSize before, String.ofList chars⟩, ?_, rfl, rfl, ?_⟩
    · refine mem_layOut_iff.mpr ⟨before, after, ?_, rfl⟩
      rwa [Span.lexeme, String.toList_ofList]
    · rw [Span.stop_mk, Text.byteSize_append, Nat.add_assoc]

/-- Each byte of a row is in one of the lexemes. -/
theorem exists_isAt_of_lt {position : Nat} (h : position < byteSize (flatten lexemes)) :
    ∃ before lexeme after, IsAt lexemes before lexeme after ∧ byteSize before ≤ position ∧
      position < byteSize (before ++ lexeme.chars) := by
  induction lexemes generalizing position with
  | nil => exact absurd h (Nat.not_lt_zero position)
  | cons first rest ih =>
      rw [flatten_cons, Text.byteSize_append] at h
      by_cases hfirst : position < byteSize first.chars
      · exact ⟨[], first, flatten rest, isAt_cons.mpr (.inl ⟨rfl, rfl, rfl⟩), Nat.zero_le _, hfirst⟩
      · have hrest : position - byteSize first.chars < byteSize (flatten rest) := by omega
        obtain ⟨before, lexeme, after, hat, hle, hlt⟩ := ih hrest
        refine ⟨first.chars ++ before, lexeme, after, isAt_cons.mpr (.inr ⟨before, rfl, hat⟩), ?_⟩
        simp only [Text.byteSize_append] at hlt ⊢
        omega

/-- Of two different lexemes of a row, one ends before the other begins. -/
theorem IsAt.le_or_le (h : IsAt lexemes before lexeme after)
    (hnext : IsAt lexemes before' next after') (hne : lexeme ≠ next) :
    byteSize (before ++ lexeme.chars) ≤ byteSize before' ∨
      byteSize (before' ++ next.chars) ≤ byteSize before := by
  induction lexemes generalizing before before' with
  | nil => exact absurd h not_isAt_nil
  | cons first rest ih =>
      rcases isAt_cons.mp h with ⟨rfl, rfl, -⟩ | ⟨middle, rfl, hrest⟩
      · obtain ⟨middle, rfl, -⟩ := (isAt_cons_of_ne hne.symm).mp hnext
        refine .inl ?_
        rw [List.nil_append, Text.byteSize_append]
        exact Nat.le_add_right ..
      · rcases isAt_cons.mp hnext with ⟨rfl, rfl, -⟩ | ⟨middle', rfl, hrest'⟩
        · refine .inr ?_
          rw [List.nil_append, Text.byteSize_append]
          exact Nat.le_add_right ..
        · have hle := ih hrest hrest'
          simp only [Text.byteSize_append] at hle ⊢
          omega

/-- A lexeme that is not the first one has another one in front of it. -/
theorem IsAt.eq_nil_or_exists_before (h : IsAt lexemes before lexeme after)
    (hchain : lexemes.IsChain R) : before = [] ∨ ∃ front last,
      IsAt lexemes front last (lexeme.chars ++ after) ∧ before = front ++ last.chars ∧
        R last lexeme := by
  obtain ⟨left, right, rfl, rfl, rfl⟩ := h
  rcases List.eq_nil_or_concat left with rfl | ⟨init, last, rfl⟩
  · exact .inl rfl
  · refine .inr ⟨flatten init, last, ⟨init, lexeme :: right, by simp, rfl, rfl⟩, ?_, ?_⟩
    · rw [List.concat_eq_append, flatten_append, flatten_cons, flatten_nil, List.append_nil]
    · exact (List.isChain_append.mp hchain).2.2 last (by simp) lexeme rfl

/-- A lexeme that is not the last one has another one behind it. -/
theorem IsAt.eq_nil_or_exists_after (h : IsAt lexemes before lexeme after)
    (hchain : lexemes.IsChain R) : after = [] ∨ ∃ next back,
      IsAt lexemes (before ++ lexeme.chars) next back ∧ after = next.chars ++ back ∧
        R lexeme next := by
  obtain ⟨left, right, rfl, rfl, rfl⟩ := h
  cases right with
  | nil => exact .inl rfl
  | cons next right =>
      refine .inr ⟨next, flatten right, ⟨left ++ [lexeme], right, by simp, ?_, rfl⟩, rfl, ?_⟩
      · rw [flatten_append, flatten_cons, flatten_nil, List.append_nil]
      · exact (List.isChain_cons_cons.mp (List.isChain_append.mp hchain).2.1).1

end Lexeme

/-! ## Keywords and gaps of a text -/

namespace KeywordSet

open Lexeme (Fills)

variable {keywords : KeywordSet} {text : String} {start stop start' stop' : Nat}

/-- The bytes of the text from `start` to `stop` are a keyword: a word of the text and of the set
that no letter or digit of the text touches. -/
def KeywordAt (keywords : KeywordSet) (text : String) (start stop : Nat) : Prop :=
  ∃ before word after, IsCut text start stop before word after ∧
    keywords.IsKeyword before word after

/-- The bytes of the text from `start` to `stop` are a gap between keywords: no keyword has one of
them, and on either side there is a keyword or the end of the text. -/
structure GapAt (keywords : KeywordSet) (text : String) (start stop : Nat) : Prop where
  lt : start < stop
  begins : start = 0 ∨ ∃ first, keywords.KeywordAt text first start
  ends : stop = text.utf8ByteSize ∨ ∃ last, keywords.KeywordAt text stop last
  apart : ∀ first last, keywords.KeywordAt text first last → last ≤ start ∨ stop ≤ first

/-- A keyword is not empty. -/
theorem KeywordAt.lt (h : keywords.KeywordAt text start stop) : start < stop := by
  obtain ⟨before, word, after, ⟨-, rfl, rfl⟩, hkeyword⟩ := h
  have hword : byteSize word ≠ 0 := fun hzero =>
    hkeyword.ne_nil (Text.eq_nil_of_byteSize_eq_zero hzero)
  rw [Text.byteSize_append]
  omega

/-- A keyword ends within the text. -/
theorem KeywordAt.le (h : keywords.KeywordAt text start stop) : stop ≤ text.utf8ByteSize := by
  obtain ⟨before, word, after, ⟨htext, rfl, rfl⟩, -⟩ := h
  rw [← Text.byteSize_toList, htext, Text.byteSize_append (before ++ word)]
  exact Nat.le_add_right ..

/-- A gap ends within the text. -/
theorem GapAt.le (h : keywords.GapAt text start stop) : stop ≤ text.utf8ByteSize := by
  rcases h.ends with rfl | ⟨last, hlast⟩
  · exact Nat.le_refl _
  · exact Nat.le_trans (Nat.le_of_lt hlast.lt) hlast.le

/-- A gap begins no later than any other gap that it shares a byte with, and ends no earlier. -/
theorem GapAt.encloses (h : keywords.GapAt text start stop)
    (h' : keywords.GapAt text start' stop') (hstart : start < stop') (hstop : start' < stop) :
    start ≤ start' ∧ stop' ≤ stop := by
  constructor
  · rcases h.begins with rfl | ⟨first, hfirst⟩
    · exact Nat.zero_le _
    · have hlt := hfirst.lt
      have hapart := h'.apart first start hfirst
      omega
  · rcases h.ends with rfl | ⟨last, hlast⟩
    · exact h'.le
    · have hlt := hlast.lt
      have hapart := h'.apart stop last hlast
      omega

/-- Two gaps that share a byte are the same. -/
theorem GapAt.eq_of_lt (h : keywords.GapAt text start stop)
    (h' : keywords.GapAt text start' stop') (hstart : start < stop') (hstop : start' < stop) :
    start = start' ∧ stop = stop' := by
  have hleft := h.encloses h' hstart hstop
  have hright := h'.encloses h hstop hstart
  omega

/-! ## The pieces of a text -/

/-- Keywords fill just the places where the text has them. -/
theorem fills_keyword_iff : Fills (keywords.splitText text.toList) .keyword start stop ↔
    keywords.KeywordAt text start stop := by
  simp only [Fills, isAt_splitText_iff, KeywordAt]
  constructor
  · rintro ⟨before, word, after, ⟨htext, hkeyword⟩, hstart, hstop⟩
    exact ⟨before, word, after, ⟨htext, hstart, hstop⟩, hkeyword⟩
  · rintro ⟨before, word, after, ⟨htext, hstart, hstop⟩, hkeyword⟩
    exact ⟨before, word, after, ⟨htext, hkeyword⟩, hstart, hstop⟩

/-- A piece of a text is plain text or a keyword. -/
theorem kind_of_mem_splitText {chars : List Char} {lexeme : Lexeme}
    (h : lexeme ∈ keywords.splitText chars) : lexeme.kind = .normal ∨ lexeme.kind = .keyword := by
  have hlexical := lexical_of_mem_splitText h
  cases hkind : lexeme.kind with
  | normal => exact .inl rfl
  | keyword => exact .inr rfl
  | string | comment | error =>
      rw [hkind] at hlexical
      cases hlexical

/-- The plain pieces of a text are gaps. -/
theorem gapAt_of_fills (h : Fills (keywords.splitText text.toList) .normal start stop) :
    keywords.GapAt text start stop := by
  obtain ⟨before, gap, after, hat, rfl, rfl⟩ := h
  have hchain := isChain_splitText keywords text.toList
  have htext := hat.flatten_eq
  rw [flatten_splitText] at htext
  constructor
  · have hgap : byteSize gap ≠ 0 := fun hzero =>
      chars_ne_nil_of_mem_splitText hat.mem (Text.eq_nil_of_byteSize_eq_zero hzero)
    rw [Text.byteSize_append]
    omega
  · rcases hat.eq_nil_or_exists_before hchain with rfl | ⟨front, last, hlast, rfl, hmeet⟩
    · exact .inl rfl
    · have hkind := (kind_of_mem_splitText hlast.mem).resolve_left fun hnormal =>
        hmeet.1 ⟨hnormal, rfl⟩
      exact .inr ⟨_, fills_keyword_iff.mp (hkind ▸ hlast.fills)⟩
  · rcases hat.eq_nil_or_exists_after hchain with rfl | ⟨next, back, hnext, rfl, hmeet⟩
    · refine .inl ?_
      rw [← Text.byteSize_toList, htext, List.append_nil]
    · have hkind := (kind_of_mem_splitText hnext.mem).resolve_left fun hnormal =>
        hmeet.1 ⟨rfl, hnormal⟩
      exact .inr ⟨_, fills_keyword_iff.mp (hkind ▸ hnext.fills)⟩
  · intro first last hkeyword
    obtain ⟨front, word, back, hword, rfl, rfl⟩ := fills_keyword_iff.mpr hkeyword
    refine hword.le_or_le hat fun heq => ?_
    cases congrArg Lexeme.kind heq

/-- The plain pieces of a text are its gaps. -/
theorem fills_normal_iff : Fills (keywords.splitText text.toList) .normal start stop ↔
    keywords.GapAt text start stop := by
  refine ⟨gapAt_of_fills, fun h => ?_⟩
  have hlt := h.lt
  have hinside : start < byteSize (Lexeme.flatten (keywords.splitText text.toList)) := by
    rw [flatten_splitText, Text.byteSize_toList]
    exact Nat.lt_of_lt_of_le hlt h.le
  obtain ⟨before, piece, after, hat, hbegin, hend⟩ := Lexeme.exists_isAt_of_lt hinside
  have hfills := hat.fills
  rcases kind_of_mem_splitText hat.mem with hnormal | hkeyword
  · rw [hnormal] at hfills
    obtain ⟨rfl, rfl⟩ := (gapAt_of_fills hfills).eq_of_lt h (by omega) hend
    exact hfills
  · rw [hkeyword] at hfills
    have hapart := h.apart _ _ (fills_keyword_iff.mp hfills)
    omega

end KeywordSet

/-! ## The pieces of spans -/

/-- The pieces of a span as one span again, with keywords turned back into plain text. -/
def Span.rejoin (pieces : List Span) : Option Span :=
  pieces.head?.map fun first => ⟨first.kind.lexical, first.start, Span.concat pieces⟩

namespace KeywordSet

open Lexeme (layOut)

variable {keywords : KeywordSet} {span : Span}

/-- The pieces of a plain span: they make it up one after the other, the keywords among them are
the keywords of its text and the others are the gaps between these. -/
structure IsSplit (keywords : KeywordSet) (span : Span) (pieces : List Span) : Prop where
  consecutive : Grammar.Consecutive span.start pieces
  concat_eq : Span.concat pieces = span.text
  text_ne : ∀ piece ∈ pieces, piece.text ≠ ""
  kind_eq : ∀ piece ∈ pieces, piece.kind = .normal ∨ piece.kind = .keyword
  /-- The edges of each piece lie between characters, and its text is what they cut out. -/
  slice?_eq : ∀ piece ∈ pieces, ∃ start stop, piece.start = span.start + start ∧
    piece.stop = span.start + stop ∧ Text.slice? span.text start stop = some piece.text
  keyword_iff : ∀ start stop,
    (∃ piece ∈ pieces, piece.kind = .keyword ∧ piece.start = span.start + start ∧
        piece.stop = span.start + stop) ↔ keywords.KeywordAt span.text start stop
  normal_iff : ∀ start stop,
    (∃ piece ∈ pieces, piece.kind = .normal ∧ piece.start = span.start + start ∧
        piece.stop = span.start + stop) ↔ keywords.GapAt span.text start stop
  canMeet : pieces.IsChain fun left right => left.kind.CanMeet right.kind
  rejoin_eq : Span.rejoin pieces = if span.text = "" then none else some span

/-- Rejoined, the pieces of plain text are the text, or nothing if there is none. -/
theorem rejoin_layOut_splitText (keywords : KeywordSet) (start : Nat) (text : String) :
    Span.rejoin (layOut start (keywords.splitText text.toList)) =
      if text = "" then none else some ⟨.normal, start, text⟩ := by
  have htext := Lexeme.toList_concat_layOut start (keywords.splitText text.toList)
  rw [flatten_splitText, String.toList_inj] at htext
  cases hpieces : keywords.splitText text.toList with
  | nil =>
      rw [hpieces] at htext
      obtain rfl : text = "" := htext.symm
      rw [if_pos rfl]
      rfl
  | cons first rest =>
      have hfirst : first ∈ keywords.splitText text.toList := hpieces ▸ List.mem_cons_self
      have hne : text ≠ "" := by
        rintro rfl
        cases hpieces
      rw [hpieces] at htext
      rw [if_neg hne, Span.rejoin, htext]
      show some (⟨first.kind.lexical, start, text⟩ : Span) = _
      rw [lexical_of_mem_splitText hfirst]

/-- What a plain span is cut into are its pieces. -/
theorem isSplit_splitSpan (hspan : span.kind = .normal) :
    keywords.IsSplit span (keywords.splitSpan span) := by
  have hflatten := flatten_splitText keywords span.text.toList
  have hmem {piece : Span} (h : piece ∈ layOut span.start (keywords.splitText span.text.toList)) :=
    Lexeme.mem_layOut_iff.mp h
  rw [splitSpan, if_pos hspan]
  constructor
  · rw [← Grammar.layOut_map_lexeme_iff, Grammar.map_lexeme_layOut]
  · rw [← String.toList_inj, Lexeme.toList_concat_layOut, hflatten]
  · intro piece hpiece htext
    obtain ⟨before, after, hat, -⟩ := hmem hpiece
    exact chars_ne_nil_of_mem_splitText hat.mem (by rw [Span.lexeme, htext]; rfl)
  · intro piece hpiece
    obtain ⟨before, after, hat, -⟩ := hmem hpiece
    exact kind_of_mem_splitText hat.mem
  · intro piece hpiece
    obtain ⟨before, after, hat, hstart⟩ := hmem hpiece
    have hcut : IsCut span.text (byteSize before) (byteSize (before ++ piece.text.toList)) before
        piece.text.toList after := ⟨hflatten.symm.trans hat.flatten_eq, rfl, rfl⟩
    refine ⟨_, _, hstart, ?_, by rw [hcut.slice?_eq, String.ofList_toList]⟩
    rw [Span.stop, Span.size, ← Text.byteSize_toList, hstart, Text.byteSize_append, Nat.add_assoc]
  · intro start stop
    rw [Lexeme.exists_mem_layOut_iff, fills_keyword_iff]
  · intro start stop
    rw [Lexeme.exists_mem_layOut_iff, fills_normal_iff]
  · have hchain := isChain_splitText keywords span.text.toList
    rwa [← Grammar.map_lexeme_layOut span.start (keywords.splitText _), List.isChain_map] at hchain
  · rw [rejoin_layOut_splitText, ← hspan]

/-- Keywords are cut out span by span. What is not plain text stays in its place, and each plain
span gives way to its pieces. Rejoined, these are the spans that were given, without the empty ones
among the plain. -/
theorem exists_pieces_split (h : keywords.isEmpty = false) (spans : List Span) :
    ∃ pieces : Span → List Span, keywords.split spans = spans.flatMap pieces ∧
      (∀ span ∈ spans, span.kind ≠ .normal → pieces span = [span]) ∧
      (∀ span ∈ spans, span.kind = .normal → keywords.IsSplit span (pieces span)) ∧
      (spans.flatMap fun span =>
          if span.kind = .normal then (Span.rejoin (pieces span)).toList else pieces span) =
        spans.filter fun span => span.kind ≠ .normal ∨ span.text ≠ "" := by
  have hother (span : Span) (hspan : span.kind ≠ .normal) : keywords.splitSpan span = [span] := by
    rw [splitSpan, if_neg hspan]
  refine ⟨keywords.splitSpan, split_of_not_isEmpty (by simp [h]) spans,
    fun span _ => hother span, fun span _ => isSplit_splitSpan, ?_⟩
  induction spans with
  | nil => rfl
  | cons span rest ih =>
      rw [List.flatMap_cons, ih, List.filter_cons]
      by_cases hspan : span.kind = .normal
      · rw [if_pos hspan, (isSplit_splitSpan hspan).rejoin_eq]
        by_cases htext : span.text = "" <;> simp [hspan, htext]
      · rw [if_neg hspan, hother span hspan]
        simp [hspan]

end KeywordSet

end Highlight
