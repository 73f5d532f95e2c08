import Highlight.Keywords
import Highlight.Proofs.Grammar
import Mathlib.Data.List.Chain

/-!
# The pieces of a line

A line is read as lexemes, and the plain ones are cut up further at keywords. `Lexeme.IsAt` says
where among its neighbours a lexeme stands, and `mem_layOut_iff` that this is where its span lies.
`Line.wellRead_read` says what stands beside plain text in a line, whatever the line, and
`KeywordSet.split_layOut` that keywords can as well be cut out of lexemes as of spans.
-/

namespace Highlight

/-! ## Cuts -/

namespace Text

/-- The bytes of the line from `start` to `stop` are the text `middle`, between `before` and
`after`. -/
structure IsCut (line : String) (start stop : Nat) (before middle after : List Char) : Prop where
  line_eq : line.toList = before ++ middle ++ after
  start_eq : byteSize before = start
  stop_eq : byteSize (before ++ middle) = stop

/-- What is cut out of a line is what slicing it gives. -/
theorem IsCut.slice?_eq {line : String} {start stop : Nat} {before middle after : List Char}
    (h : IsCut line start stop before middle after) :
    slice? line start stop = some (String.ofList middle) := by
  refine slice?_eq_some_iff.mpr ⟨String.ofList before, String.ofList after, ?_, ?_, ?_⟩
  · apply String.toList_inj.mp
    simp [h.line_eq]
  · rw [← byteSize_toList, String.toList_ofList, h.start_eq]
  · rw [← byteSize_toList, String.toList_ofList, ← h.start_eq, ← byteSize_append, h.stop_eq]

end Text

/-! ## Lexemes in a row -/

/-- A span ends as many bytes behind its start as its characters take. -/
theorem Span.stop_mk (kind : SpanKind) (start : Nat) (chars : List Char) :
    Span.stop ⟨kind, start, String.ofList chars⟩ = start + Text.byteSize chars := by
  rw [stop, size, ← Text.byteSize_toList, String.toList_ofList]

/-- A span is known by its lexeme and its start. -/
theorem Span.eq_iff {span : Span} {lexeme : Lexeme} {start : Nat} :
    span = ⟨lexeme.kind, start, String.ofList lexeme.chars⟩ ↔
      span.lexeme = lexeme ∧ span.start = start := by
  constructor
  · rintro rfl
    simp [Span.lexeme]
  · rintro ⟨rfl, rfl⟩
    simp [Span.lexeme]

namespace Lexeme

variable {lexeme next : Lexeme} {lexemes rest left right : List Lexeme}
  {before after middle : List Char}

/-- Among the lexemes there is this one, with the texts `before` and `after` on its two sides. -/
def IsAt (lexemes : List Lexeme) (before : List Char) (lexeme : Lexeme) (after : List Char) :
    Prop :=
  ∃ front back, lexemes = front ++ lexeme :: back ∧ flatten front = before ∧ flatten back = after

/-- A lexeme stands in the text between what is before it and what is behind. -/
theorem IsAt.flatten_eq (h : IsAt lexemes before lexeme after) :
    flatten lexemes = before ++ lexeme.chars ++ after := by
  obtain ⟨front, back, rfl, rfl, rfl⟩ := h
  simp [flatten]

/-- A lexeme at a place is one of the lexemes. -/
theorem IsAt.mem (h : IsAt lexemes before lexeme after) : lexeme ∈ lexemes := by
  obtain ⟨front, back, rfl, -, -⟩ := h
  simp

/-- No lexemes have none at any place. -/
theorem not_isAt_nil : ¬ IsAt [] before lexeme after := by
  rintro ⟨front, back, hnil, -, -⟩
  simp at hnil

/-- A lexeme is the first one or among the others. -/
theorem isAt_cons : IsAt (next :: rest) before lexeme after ↔
    (lexeme = next ∧ before = [] ∧ after = flatten rest) ∨
      ∃ middle, before = next.chars ++ middle ∧ IsAt rest middle lexeme after := by
  constructor
  · rintro ⟨front, back, hlexemes, rfl, rfl⟩
    cases front with
    | nil =>
        obtain ⟨rfl, rfl⟩ := List.cons.inj hlexemes
        exact .inl ⟨rfl, rfl, rfl⟩
    | cons first front =>
        obtain ⟨rfl, rfl⟩ := List.cons.inj hlexemes
        exact .inr ⟨flatten front, rfl, front, back, rfl, rfl, rfl⟩
  · rintro (⟨rfl, rfl, rfl⟩ | ⟨middle, rfl, front, back, rfl, rfl, rfl⟩)
    · exact ⟨[], rest, rfl, rfl, rfl⟩
    · exact ⟨next :: front, back, rfl, rfl, rfl⟩

/-- If a lexeme is not the first one, it is among the others. -/
theorem isAt_cons_of_ne (hne : lexeme ≠ next) : IsAt (next :: rest) before lexeme after ↔
    ∃ middle, before = next.chars ++ middle ∧ IsAt rest middle lexeme after := by
  rw [isAt_cons, or_iff_right fun h => hne h.1]

/-- The texts of lexemes stand one after the other. -/
theorem flatten_append (left right : List Lexeme) :
    flatten (left ++ right) = flatten left ++ flatten right :=
  List.flatMap_append

/-- If lexemes are cut into pieces, the pieces make up what they did. -/
theorem flatten_flatMap {pieces : Lexeme → List Lexeme}
    (hpieces : ∀ whole, flatten (pieces whole) = whole.chars) (lexemes : List Lexeme) :
    flatten (lexemes.flatMap pieces) = flatten lexemes := by
  rw [flatten, List.flatMap_assoc]
  exact congrArg lexemes.flatMap (funext hpieces)

/-- A lexeme of two rows of lexemes is in one of them. -/
theorem isAt_append : IsAt (left ++ right) before lexeme after ↔
    (∃ middle, IsAt left before lexeme middle ∧ after = middle ++ flatten right) ∨
      ∃ middle, before = flatten left ++ middle ∧ IsAt right middle lexeme after := by
  induction left generalizing before with
  | nil => simp [not_isAt_nil]
  | cons next left ih =>
      rw [List.cons_append, isAt_cons, flatten_append, flatten_cons]
      constructor
      · rintro (⟨rfl, rfl, rfl⟩ | ⟨between, rfl, hrest⟩)
        · exact .inl ⟨flatten left, isAt_cons.mpr (.inl ⟨rfl, rfl, rfl⟩), rfl⟩
        · rcases ih.mp hrest with ⟨middle, hleft, rfl⟩ | ⟨middle, rfl, hright⟩
          · exact .inl ⟨middle, isAt_cons.mpr (.inr ⟨between, rfl, hleft⟩), rfl⟩
          · exact .inr ⟨middle, (List.append_assoc ..).symm, hright⟩
      · rintro (⟨middle, hleft, rfl⟩ | ⟨middle, rfl, hright⟩)
        · rcases isAt_cons.mp hleft with ⟨rfl, rfl, rfl⟩ | ⟨between, rfl, hrest⟩
          · exact .inl ⟨rfl, rfl, rfl⟩
          · exact .inr ⟨between, rfl, ih.mpr (.inl ⟨middle, hrest, rfl⟩)⟩
        · exact .inr ⟨_, List.append_assoc .., ih.mpr (.inr ⟨middle, rfl, hright⟩)⟩

/-- If lexemes are cut into pieces, a piece is one of a lexeme. -/
theorem isAt_flatMap {pieces : Lexeme → List Lexeme}
    (hpieces : ∀ whole, flatten (pieces whole) = whole.chars) :
    IsAt (lexemes.flatMap pieces) before lexeme after ↔
      ∃ front whole back left right, IsAt lexemes front whole back ∧
        IsAt (pieces whole) left lexeme right ∧ before = front ++ left ∧ after = right ++ back := by
  induction lexemes generalizing before with
  | nil => simp [not_isAt_nil]
  | cons next rest ih =>
      rw [List.flatMap_cons, isAt_append, hpieces, flatten_flatMap hpieces]
      constructor
      · rintro (⟨middle, hnext, rfl⟩ | ⟨middle, rfl, hrest⟩)
        · exact ⟨[], next, flatten rest, before, middle, isAt_cons.mpr (.inl ⟨rfl, rfl, rfl⟩),
            hnext, rfl, rfl⟩
        · obtain ⟨front, whole, back, left, right, hwhole, hpiece, rfl, rfl⟩ := ih.mp hrest
          exact ⟨next.chars ++ front, whole, back, left, right,
            isAt_cons.mpr (.inr ⟨front, rfl, hwhole⟩), hpiece, (List.append_assoc ..).symm, rfl⟩
      · rintro ⟨front, whole, back, left, right, hwhole, hpiece, rfl, rfl⟩
        rcases isAt_cons.mp hwhole with ⟨rfl, rfl, rfl⟩ | ⟨between, rfl, hrest⟩
        · exact .inl ⟨right, hpiece, rfl⟩
        · exact .inr ⟨between ++ left, List.append_assoc ..,
            ih.mpr ⟨between, whole, back, left, right, hrest, hpiece, rfl, rfl⟩⟩

/-- A span of laid out lexemes is one of the lexemes, placed behind the text before it. -/
theorem mem_layOut_iff {start : Nat} {span : Span} : span ∈ layOut start lexemes ↔
    ∃ before after, IsAt lexemes before span.lexeme after ∧
      span.start = start + Text.byteSize before := by
  induction lexemes generalizing start with
  | nil => simp [layOut, not_isAt_nil]
  | cons next rest ih =>
      rw [layOut, List.mem_cons, Span.eq_iff, ih, Span.stop_mk]
      constructor
      · rintro (⟨hlexeme, hstart⟩ | ⟨before, after, hat, hstart⟩)
        · exact ⟨[], _, isAt_cons.mpr (.inl ⟨hlexeme, rfl, rfl⟩), hstart⟩
        · refine ⟨next.chars ++ before, after, isAt_cons.mpr (.inr ⟨before, rfl, hat⟩), ?_⟩
          rw [hstart, Text.byteSize_append, Nat.add_assoc]
      · rintro ⟨before, after, hat, hstart⟩
        rcases isAt_cons.mp hat with ⟨hlexeme, rfl, -⟩ | ⟨middle, rfl, hrest⟩
        · exact .inl ⟨hlexeme, hstart⟩
        · refine .inr ⟨middle, after, hrest, ?_⟩
          rw [hstart, Text.byteSize_append, Nat.add_assoc]

/-- A span of lexemes that make up a line is one of the lexemes, and its text is cut out of the
line. -/
theorem mem_layOut_iff_isCut {line : String} (hline : flatten lexemes = line.toList)
    {span : Span} : span ∈ layOut 0 lexemes ↔ ∃ before after,
      IsAt lexemes before span.lexeme after ∧
        Text.IsCut line span.start span.stop before span.text.toList after := by
  rw [mem_layOut_iff]
  constructor
  · rintro ⟨before, after, hat, hstart⟩
    rw [Nat.zero_add] at hstart
    refine ⟨before, after, hat, hline ▸ hat.flatten_eq, hstart.symm, ?_⟩
    rw [Text.byteSize_append, Text.byteSize_toList, ← hstart]
    rfl
  · rintro ⟨before, after, hat, hcut⟩
    exact ⟨before, after, hat, by rw [Nat.zero_add, hcut.start_eq]⟩

/-- A lexeme at a place becomes the span at the byte there. -/
theorem IsAt.mem_layOut (h : IsAt lexemes before lexeme after) :
    (⟨lexeme.kind, Text.byteSize before, String.ofList lexeme.chars⟩ : Span) ∈
      layOut 0 lexemes := by
  refine mem_layOut_iff.mpr ⟨before, after, ?_, (Nat.zero_add _).symm⟩
  rwa [Span.lexeme, String.toList_ofList]

/-- Where the last of some lexemes ends. -/
theorem stop_getLast?_layOut (start : Nat) (lexemes : List Lexeme) :
    ((layOut start lexemes).getLast?.map Span.stop).getD start =
      start + Text.byteSize (flatten lexemes) := by
  induction lexemes generalizing start with
  | nil => rfl
  | cons lexeme rest ih =>
      rw [layOut, List.getLast?_cons, flatten_cons, Text.byteSize_append, ← Nat.add_assoc, ← ih,
        Span.stop_mk]
      cases (layOut _ rest).getLast? with
      | none => exact Span.stop_mk ..
      | some last => rfl

/-- Later lexemes are laid out where the earlier ones end. -/
theorem layOut_append (start : Nat) (left right : List Lexeme) :
    layOut start (left ++ right) =
      layOut start left ++ layOut (start + Text.byteSize (flatten left)) right := by
  induction left generalizing start with
  | nil => rfl
  | cons lexeme left ih =>
      rw [List.cons_append, layOut, layOut, ih, Span.stop_mk, flatten_cons, Text.byteSize_append,
        Nat.add_assoc]
      rfl

end Lexeme

/-! ## Neighbours in a scanned line -/

namespace Lexeme

/-- A character that stands at the edge of a comment or a string. -/
def IsEdge (c : Char) : Prop :=
  c = '/' ∨ c = '#' ∨ c = '"' ∨ c = '\''

/-- The two lexemes can follow one another in a line: no plain text follows plain text, and what
stands beside plain text shows it an edge. -/
structure Follows (left right : Lexeme) : Prop where
  not_normal : ¬ (left.kind = .normal ∧ right.kind = .normal)
  left_edge : right.kind = .normal → ∃ c, left.chars.getLast? = some c ∧ IsEdge c
  right_edge : left.kind = .normal → ∃ c, right.chars.head? = some c ∧ IsEdge c

end Lexeme

namespace Grammar

open Lexeme (IsEdge Follows)

variable {shellComments : Bool} {lexeme next : Lexeme} {later : List Lexeme}

/-- What ends with the first end of a comment ends with a slash. -/
theorem EndsAtFirst.getLast? {chars : List Char} (h : EndsAtFirst ['*', '/'] chars) :
    chars.getLast? = some '/' := by
  obtain ⟨front, rfl⟩ := h.1
  simp

/-- Other than plain text, a lexeme begins with an edge. -/
theorem Form.exists_head? (h : Form shellComments lexeme later) (hkind : lexeme.kind ≠ .normal) :
    ∃ c, lexeme.chars.head? = some c ∧ IsEdge c := by
  cases h with
  | blockComment | openComment | slashComment => exact ⟨'/', rfl, .inl rfl⟩
  | shellComment => exact ⟨'#', rfl, .inr (.inl rfl)⟩
  | string hmark | error hmark => exact ⟨_, rfl, .inr (.inr hmark)⟩
  | normal => exact absurd rfl hkind

/-- Other than plain text, a lexeme that is not the last one ends with an edge. -/
theorem Form.exists_getLast? (h : Form shellComments lexeme (next :: later))
    (hkind : lexeme.kind ≠ .normal) : ∃ c, lexeme.chars.getLast? = some c ∧ IsEdge c := by
  cases h with
  | @blockComment body _ hends =>
      obtain ⟨c, d, rest, rfl⟩ := hends.exists_cons
      exact ⟨'/', by simpa [List.getLast?_cons_cons] using hends.getLast?, .inl rfl⟩
  | @string mark body _ hmark =>
      exact ⟨mark, by rw [← List.cons_append, List.getLast?_concat], .inr (.inr hmark)⟩
  | normal => exact absurd rfl hkind

/-- Lexemes of a line follow each other as their forms allow. -/
theorem Form.follows (h : Form shellComments lexeme (next :: later))
    (hnext : Form shellComments next later) : Follows lexeme next := by
  have hnormal : lexeme.kind = .normal → next.kind ≠ .normal := by
    intro hkind
    cases h with
    | normal _ _ hafter => exact (hafter next rfl).1
    | blockComment | string => cases hkind
  refine ⟨fun hboth => hnormal hboth.1 hboth.2, fun hkind => ?_, fun hkind => ?_⟩
  · exact h.exists_getLast? fun hlexeme => hnormal hlexeme hkind
  · exact hnext.exists_head? (hnormal hkind)

/-- The rest of a block comment is followed by what can follow a block comment. -/
theorem Continues.follows (h : Continues lexeme (next :: later)) : Follows lexeme next := by
  obtain ⟨hkind, hends | ⟨-, hnil⟩⟩ := h
  · refine ⟨fun hboth => ?_, fun _ => ⟨'/', hends.getLast?, .inl rfl⟩, fun hnormal => ?_⟩
    · rw [hkind] at hboth
      cases hboth.1
    · rw [hkind] at hnormal
      cases hnormal
  · cases hnil

/-- A scan has no keywords. -/
theorem Form.kind_ne_keyword (h : Form shellComments lexeme later) : lexeme.kind ≠ .keyword := by
  cases h <;> simp

end Grammar

namespace Line

open Lexeme (IsAt IsEdge Follows)

variable {lexemes : List Lexeme} {front chars back : List Char}

/-- The lexemes of a line are not empty, none is a keyword yet, and each can follow the one before
it. -/
structure WellRead (lexemes : List Lexeme) : Prop where
  chars_ne_nil : ∀ lexeme ∈ lexemes, lexeme.chars ≠ []
  kind_ne_keyword : ∀ lexeme ∈ lexemes, lexeme.kind ≠ .keyword
  isChain_follows : lexemes.IsChain Follows

/-- A line without lexemes is well read. -/
theorem wellRead_nil : WellRead [] :=
  ⟨by simp, by simp, List.isChain_nil⟩

/-- A lexeme that may stand in front of a well-read line makes one with it. -/
theorem WellRead.cons {lexeme : Lexeme} {later : List Lexeme} (h : WellRead later)
    (hchars : lexeme.chars ≠ []) (hkind : lexeme.kind ≠ .keyword)
    (hfollows : ∀ next ∈ later.head?, Follows lexeme next) : WellRead (lexeme :: later) where
  chars_ne_nil := List.forall_mem_cons.mpr ⟨hchars, h.chars_ne_nil⟩
  kind_ne_keyword := List.forall_mem_cons.mpr ⟨hkind, h.kind_ne_keyword⟩
  isChain_follows := List.isChain_cons.mpr ⟨hfollows, h.isChain_follows⟩

/-- Lexemes that have their forms are well read. -/
theorem wellRead_of_forms {shellComments : Bool} {lexemes : List Lexeme}
    (h : Grammar.Forms shellComments lexemes) : WellRead lexemes := by
  induction lexemes with
  | nil => exact wellRead_nil
  | cons lexeme later ih =>
      obtain ⟨hform, hlater⟩ := h
      refine (ih hlater).cons hform.chars_ne_nil hform.kind_ne_keyword fun next hnext => ?_
      obtain ⟨rest, rfl⟩ := List.head?_eq_some_iff.mp hnext
      exact hform.follows hlater.1

/-- What is read from a line is well read, be its beginning inside a comment or not. -/
theorem wellRead_read (startsInComment shellComments : Bool) (line : String) :
    WellRead (read startsInComment shellComments line).lexemes := by
  rw [read]
  cases startsInComment with
  | false => exact wellRead_of_forms (Grammar.forms_readCode shellComments line.toList)
  | true =>
      rw [if_pos rfl]
      cases hchars : line.toList with
      | nil => exact wellRead_nil
      | cons c rest =>
          have hflatten := Lexeme.flatten_readComment shellComments (c :: rest)
          obtain ⟨first, later, hread, hcontinues, hlater⟩ :=
            Grammar.exists_readComment shellComments c rest
          rw [hread] at hflatten ⊢
          refine (wellRead_of_forms hlater).cons ?_ (by simp [hcontinues.1]) fun next hnext => ?_
          · intro hnil
            rcases hcontinues.2 with hends | ⟨-, rfl⟩
            · obtain ⟨d, e, tail, hcons⟩ := hends.exists_cons
              rw [hnil] at hcons
              cases hcons
            · simp [hnil] at hflatten
          · obtain ⟨tail, rfl⟩ := List.head?_eq_some_iff.mp hnext
            exact hcontinues.follows

/-- The character in front of plain text is the edge of a comment or string. -/
theorem WellRead.isEdge_before (h : WellRead lexemes)
    (hat : IsAt lexemes front ⟨.normal, chars⟩ back) : ∀ c ∈ front.getLast?, IsEdge c := by
  obtain ⟨left, right, rfl, rfl, -⟩ := hat
  obtain ⟨-, -, hfollows⟩ := List.isChain_append.mp h.isChain_follows
  intro c hc
  rcases List.eq_nil_or_concat left with rfl | ⟨init, last, rfl⟩
  · cases hc
  · obtain ⟨d, hd, hedge⟩ := (hfollows last (by simp) _ rfl).left_edge rfl
    rw [List.concat_eq_append, Lexeme.flatten_append, Lexeme.flatten_cons, Lexeme.flatten_nil,
      List.append_nil, List.getLast?_append, hd] at hc
    exact Option.some.inj hc ▸ hedge

/-- The character behind plain text is the edge of a comment or string. -/
theorem WellRead.isEdge_after (h : WellRead lexemes)
    (hat : IsAt lexemes front ⟨.normal, chars⟩ back) : ∀ c ∈ back.head?, IsEdge c := by
  obtain ⟨left, right, rfl, -, rfl⟩ := hat
  obtain ⟨-, hchain, -⟩ := List.isChain_append.mp h.isChain_follows
  intro c hc
  cases right with
  | nil => cases hc
  | cons next right =>
      obtain ⟨d, hd, hedge⟩ := (List.isChain_cons.mp hchain).1 next rfl |>.right_edge rfl
      rw [Lexeme.flatten_cons, List.head?_append, hd] at hc
      exact Option.some.inj hc ▸ hedge

end Line

/-! ## Keywords -/

namespace KeywordSet

open Lexeme (flatten layOut)

variable {keywords : KeywordSet} {lexeme next : Lexeme} {lexemes rest : List Lexeme}

/-- A run is a keyword if it is a word of the set and no letter or digit touches it. -/
theorem kindOf_eq_keyword_iff {first last : Option Char} {run : Run} :
    keywords.kindOf first run last = .keyword ↔
      run.isWord = true ∧ keywords.contains (String.ofList run.chars) = true ∧
        (∀ c ∈ first, Text.isAlphanumeric c = false) ∧
          ∀ c ∈ last, Text.isAlphanumeric c = false := by
  cases first <;> cases last <;> simp [kindOf, and_assoc]

/-- A lexeme with its keywords cut out if it is plain text. -/
def splitLexeme (keywords : KeywordSet) (lexeme : Lexeme) : List Lexeme :=
  if lexeme.kind = .normal then keywords.splitText lexeme.chars else [lexeme]

/-- The lexemes of a line with the keywords cut out of the plain ones. -/
def splitLexemes (keywords : KeywordSet) (lexemes : List Lexeme) : List Lexeme :=
  if keywords.isEmpty then lexemes else lexemes.flatMap keywords.splitLexeme

/-- Cutting a lexeme keeps its characters. -/
theorem flatten_splitLexeme (keywords : KeywordSet) (lexeme : Lexeme) :
    flatten (keywords.splitLexeme lexeme) = lexeme.chars := by
  rw [splitLexeme]
  split
  · exact flatten_splitText keywords lexeme.chars
  · simp

/-- Cutting out the keywords keeps the text. -/
theorem flatten_splitLexemes (keywords : KeywordSet) (lexemes : List Lexeme) :
    flatten (keywords.splitLexemes lexemes) = flatten lexemes := by
  rw [splitLexemes]
  split
  · rfl
  · exact Lexeme.flatten_flatMap (flatten_splitLexeme keywords) lexemes

/-- The pieces of a span are those of its lexeme, laid out from its start. -/
theorem splitSpan_eq_layOut (keywords : KeywordSet) (lexeme : Lexeme) (start : Nat) :
    keywords.splitSpan ⟨lexeme.kind, start, String.ofList lexeme.chars⟩ =
      layOut start (keywords.splitLexeme lexeme) := by
  rw [splitSpan, splitLexeme]
  split
  · rw [String.toList_ofList]
  · rfl

/-- Spans are cut as their lexemes are. -/
theorem flatMap_splitSpan_layOut (keywords : KeywordSet) (start : Nat) (lexemes : List Lexeme) :
    (layOut start lexemes).flatMap keywords.splitSpan =
      layOut start (lexemes.flatMap keywords.splitLexeme) := by
  induction lexemes generalizing start with
  | nil => rfl
  | cons lexeme rest ih =>
      rw [layOut, List.flatMap_cons, List.flatMap_cons, ih, splitSpan_eq_layOut,
        Lexeme.layOut_append, flatten_splitLexeme, Span.stop_mk]

/-- Keywords can be cut out before or after the lexemes are laid out. -/
theorem split_layOut (keywords : KeywordSet) (start : Nat) (lexemes : List Lexeme) :
    keywords.split (layOut start lexemes) = layOut start (keywords.splitLexemes lexemes) := by
  rw [split, splitLexemes]
  split
  · rfl
  · exact flatMap_splitSpan_layOut keywords start lexemes

end KeywordSet

end Highlight
