import Highlight.Proofs.Pieces
import Highlight.Proofs.WordRuns

/-!
# Keywords are whole words of the line

Keywords are looked for in one piece of plain text at a time, and only the neighbours of a word
within the piece are asked whether they make it longer. This finds the keywords of the whole line:
`isAt_splitText_iff` says which words become keywords in a text on its own, and at the ends of
plain text stand quotes and comment signs, which touch no word. `keyword_spans_exact` puts it
together. `IsKeyword` is about the line alone and knows nothing of pieces.
-/

namespace Highlight

open Text (byteSize IsCut)

/-! ## Keywords of a plain text -/

namespace KeywordSet

open Lexeme (IsAt isAt_cons isAt_cons_of_ne)

variable {keywords : KeywordSet} {lexeme next : Lexeme} {lexemes rest : List Lexeme}
  {runs : List Run} {before word after chars : List Char}

/-- In the text `before ++ word ++ after`, the middle is a keyword: it is a word of the text and of
the set, and no letter or digit touches it. -/
structure IsKeyword (keywords : KeywordSet) (before word after : List Char) : Prop
    extends IsWord before word after where
  contains : keywords.contains (String.ofList word) = true
  isAlphanumeric_before : ∀ c ∈ before.getLast?, Text.isAlphanumeric c = false
  isAlphanumeric_after : ∀ c ∈ after.head?, Text.isAlphanumeric c = false

/-- The first character of some runs is that of the first run. -/
theorem head?_flatMap_chars (h : ∀ run ∈ runs, run.chars ≠ []) :
    (runs.flatMap Run.chars).head? = runs.head?.bind fun run => run.chars.head? := by
  cases runs with
  | nil => rfl
  | cons run rest =>
      rw [List.flatMap_cons, List.head?_append_of_ne_nil _ (h run List.mem_cons_self)]
      rfl

/-- The last character of a text, or of what stands before it, is found piece by piece. -/
theorem getLast?_append_or {left : List Char} (h : left ≠ []) (right : List Char)
    (previous : Option Char) :
    (left ++ right).getLast?.or previous = right.getLast?.or left.getLast? := by
  rw [List.getLast?_append, List.getLast?_eq_getLast_of_ne_nil h]
  cases right.getLast? <;> rfl

/-- A marked lexeme is a run, with the kind that its neighbours give it. -/
theorem isAt_mark_iff (h : ∀ run ∈ runs, run.chars ≠ []) {previous : Option Char} :
    IsAt (keywords.mark previous runs) before lexeme after ↔
      ∃ front run back, runs = front ++ run :: back ∧ front.flatMap Run.chars = before ∧
        back.flatMap Run.chars = after ∧
          lexeme = ⟨keywords.kindOf (before.getLast?.or previous) run after.head?, run.chars⟩ := by
  induction runs generalizing before previous with
  | nil => simp [mark, Lexeme.not_isAt_nil]
  | cons first rest ih =>
      have hrest : ∀ run ∈ rest, run.chars ≠ [] :=
        fun run hrun => h run (List.mem_cons_of_mem _ hrun)
      -- The character before the later runs is the last one of this run.
      have hprevious (middle : List Char) : (first.chars ++ middle).getLast?.or previous =
          middle.getLast?.or first.chars.getLast? :=
        getLast?_append_or (h first List.mem_cons_self) middle previous
      rw [mark, isAt_cons, flatten_mark, ← head?_flatMap_chars hrest]
      constructor
      · rintro (⟨rfl, rfl, rfl⟩ | ⟨middle, rfl, hlater⟩)
        · exact ⟨[], first, rest, rfl, rfl, rfl, rfl⟩
        · obtain ⟨front, run, back, rfl, rfl, rfl, rfl⟩ := (ih hrest).mp hlater
          exact ⟨first :: front, run, back, rfl, rfl, rfl, by rw [hprevious]⟩
      · rintro ⟨front, run, back, hruns, rfl, rfl, rfl⟩
        cases front with
        | nil =>
            obtain ⟨rfl, rfl⟩ := List.cons.inj hruns
            exact .inl ⟨rfl, rfl, rfl⟩
        | cons run' front =>
            obtain ⟨rfl, rfl⟩ := List.cons.inj hruns
            refine .inr ⟨front.flatMap Run.chars, rfl, (ih hrest).mpr ?_⟩
            exact ⟨front, run, back, rfl, rfl, rfl, by rw [List.flatMap_cons, hprevious]⟩

/-- Joining plain text moves no keyword. -/
theorem isAt_joinNormal_iff (hkind : lexeme.kind = .keyword) :
    IsAt (joinNormal next rest) before lexeme after ↔ IsAt (next :: rest) before lexeme after := by
  cases rest with
  | nil => rfl
  | cons other rest =>
      rw [joinNormal]
      split
      · rename_i hboth
        have hne {plain : Lexeme} (hplain : plain.kind = .normal) : lexeme ≠ plain := by
          rintro rfl
          rw [hkind] at hplain
          cases hplain
        rw [isAt_cons_of_ne (hne rfl), isAt_cons_of_ne (hne hboth.1)]
        simp only [isAt_cons_of_ne (hne hboth.2), List.append_assoc]
        constructor
        · rintro ⟨middle, rfl, hrest⟩
          exact ⟨_, rfl, middle, rfl, hrest⟩
        · rintro ⟨_, rfl, middle, rfl, hrest⟩
          exact ⟨middle, rfl, hrest⟩
      · rfl

/-- Joining plain text leaves keywords where they are. -/
theorem isAt_foldr_joinNormal_iff (hkind : lexeme.kind = .keyword) :
    IsAt (lexemes.foldr joinNormal []) before lexeme after ↔ IsAt lexemes before lexeme after := by
  induction lexemes generalizing before with
  | nil => rfl
  | cons first rest ih =>
      rw [List.foldr_cons, isAt_joinNormal_iff hkind, isAt_cons, isAt_cons,
        flatten_foldr_joinNormal]
      simp only [ih]

/-- The keywords of a plain text are those that it has when it stands alone. -/
theorem isAt_splitText_iff : IsAt (keywords.splitText chars) before ⟨.keyword, word⟩ after ↔
    chars = before ++ word ++ after ∧ keywords.IsKeyword before word after := by
  have hruns : ∀ run ∈ Run.ofChars chars, run.chars ≠ [] :=
    fun run hrun => (Run.uniform_of_mem_ofChars hrun).chars_ne_nil
  rw [splitText, isAt_foldr_joinNormal_iff rfl, isAt_mark_iff hruns]
  constructor
  · rintro ⟨front, run, back, hchars, hbefore, hafter, hlexeme⟩
    obtain ⟨hkind, rfl⟩ := Lexeme.mk.inj hlexeme
    obtain ⟨hisWord, hcontains, hfirst, hlast⟩ := kindOf_eq_keyword_iff.mp hkind.symm
    obtain ⟨isWord, chars'⟩ := run
    obtain rfl : isWord = true := hisWord
    obtain ⟨htext, hword⟩ := Run.exists_ofChars_eq_iff.mp ⟨front, back, hchars, hbefore, hafter⟩
    rw [Option.or_none] at hfirst
    exact ⟨htext, hword, hcontains, hfirst, hlast⟩
  · rintro ⟨htext, hkeyword⟩
    obtain ⟨front, back, hchars, hbefore, hafter⟩ :=
      Run.exists_ofChars_eq_iff.mpr ⟨htext, hkeyword.toIsWord⟩
    have hkind : keywords.kindOf (before.getLast?.or none) ⟨true, word⟩ after.head? = .keyword := by
      rw [kindOf_eq_keyword_iff, Option.or_none]
      exact ⟨rfl, hkeyword.contains, hkeyword.isAlphanumeric_before,
        hkeyword.isAlphanumeric_after⟩
    exact ⟨front, ⟨true, word⟩, back, hchars, hbefore, hafter, by rw [hkind]⟩

end KeywordSet

/-! ## Plain text of a line -/

/-- No edge of a comment or string is a character of a word, ASCII or not. -/
theorem Lexeme.IsEdge.not_word {c : Char} (h : Lexeme.IsEdge c) :
    isWordChar c = false ∧ Text.isAlphanumeric c = false := by
  rcases h with rfl | rfl | rfl | rfl <;> decide +kernel

namespace KeywordSet

open Lexeme (IsAt IsEdge)

variable {keywords : KeywordSet} {lexemes : List Lexeme} {front left word right back : List Char}

/-- A condition that the end of the front meets is one on the end of what follows it. -/
theorem forall_getLast?_append_iff {p : Char → Prop} (h : ∀ c ∈ front.getLast?, p c)
    (left : List Char) : (∀ c ∈ (front ++ left).getLast?, p c) ↔ ∀ c ∈ left.getLast?, p c := by
  rw [List.getLast?_append]
  cases left.getLast? with
  | none => simpa using h
  | some c => simp

/-- A condition that the beginning of the back meets is one on the beginning of what stands before
it. -/
theorem forall_head?_append_iff {p : Char → Prop} (h : ∀ c ∈ back.head?, p c)
    (right : List Char) : (∀ c ∈ (right ++ back).head?, p c) ↔ ∀ c ∈ right.head?, p c := by
  rw [List.head?_append]
  cases right.head? with
  | none => simpa using h
  | some c => simp

/-- Whether a word of plain text is a keyword of the line shows in the plain text alone. -/
theorem isKeyword_iff_of_isEdge (hfront : ∀ c ∈ front.getLast?, IsEdge c)
    (hback : ∀ c ∈ back.head?, IsEdge c) :
    keywords.IsKeyword (front ++ left) word (right ++ back) ↔
      keywords.IsKeyword left word right := by
  have hwordBefore := forall_getLast?_append_iff (fun c hc => (hfront c hc).not_word.1) left
  have hwordAfter := forall_head?_append_iff (fun c hc => (hback c hc).not_word.1) right
  have hletterBefore := forall_getLast?_append_iff (fun c hc => (hfront c hc).not_word.2) left
  have hletterAfter := forall_head?_append_iff (fun c hc => (hback c hc).not_word.2) right
  constructor
  · rintro ⟨⟨hne, hword, hbefore, hafter⟩, hcontains, hfirst, hlast⟩
    exact ⟨⟨hne, hword, hwordBefore.mp hbefore, hwordAfter.mp hafter⟩, hcontains,
      hletterBefore.mp hfirst, hletterAfter.mp hlast⟩
  · rintro ⟨⟨hne, hword, hbefore, hafter⟩, hcontains, hfirst, hlast⟩
    exact ⟨⟨hne, hword, hwordBefore.mpr hbefore, hwordAfter.mpr hafter⟩, hcontains,
      hletterBefore.mpr hfirst, hletterAfter.mpr hlast⟩

/-- The empty set has no keywords. -/
theorem not_isKeyword_of_isEmpty (h : keywords.isEmpty = true) :
    ¬ keywords.IsKeyword left word right := by
  intro hkeyword
  have hcontains := hkeyword.contains
  rw [contains, List.isEmpty_iff.mp h] at hcontains
  cases hcontains

/-- The keywords among the pieces of a line are the keywords of the line that lie in plain text. -/
theorem isAt_splitLexemes_iff (h : Line.WellRead lexemes) {before after : List Char} :
    IsAt (keywords.splitLexemes lexemes) before ⟨.keyword, word⟩ after ↔
      keywords.IsKeyword before word after ∧
        ∃ front left right back, IsAt lexemes front ⟨.normal, left ++ word ++ right⟩ back ∧
          before = front ++ left ∧ after = right ++ back := by
  rw [splitLexemes]
  split
  · rename_i hempty
    constructor
    · intro hat
      exact absurd rfl (h.kind_ne_keyword _ hat.mem)
    · rintro ⟨hkeyword, -⟩
      exact absurd hkeyword (not_isKeyword_of_isEmpty hempty)
  · rw [Lexeme.isAt_flatMap (flatten_splitLexeme keywords)]
    constructor
    · rintro ⟨front, ⟨kind, chars⟩, back, left, right, hwhole, hpiece, rfl, rfl⟩
      rw [splitLexeme] at hpiece
      split at hpiece
      · rename_i hkind
        obtain rfl : kind = .normal := hkind
        obtain ⟨rfl, hkeyword⟩ := isAt_splitText_iff.mp hpiece
        refine ⟨?_, front, left, right, back, hwhole, rfl, rfl⟩
        exact (isKeyword_iff_of_isEdge (h.isEdge_before hwhole) (h.isEdge_after hwhole)).mpr
          hkeyword
      · obtain rfl : kind = .keyword := congrArg Lexeme.kind (List.mem_singleton.mp hpiece.mem).symm
        exact absurd rfl (h.kind_ne_keyword _ hwhole.mem)
    · rintro ⟨hkeyword, front, left, right, back, hwhole, rfl, rfl⟩
      refine ⟨front, _, back, left, right, hwhole, ?_, rfl, rfl⟩
      rw [splitLexeme, if_pos rfl]
      refine isAt_splitText_iff.mpr ⟨rfl, ?_⟩
      exact (isKeyword_iff_of_isEdge (h.isEdge_before hwhole) (h.isEdge_after hwhole)).mp hkeyword

end KeywordSet

/-! ## Keywords of a line -/

namespace KeywordSet

open Lexeme (IsAt IsEdge)

variable {keywords : KeywordSet} {line : String} {startsInComment shellComments : Bool}
  {start stop : Nat} {before word after : List Char} {plain : Span}

/-- Plain text of a scanned line cuts no word. -/
theorem inside_of_meets (hcut : IsCut line start stop before word after)
    (hword : IsWord before word after)
    (hplain : plain ∈ (Line.scan line startsInComment shellComments).spans)
    (hkind : plain.kind = .normal) (hstart : start < plain.stop) (hstop : plain.start < stop) :
    plain.start ≤ start ∧ stop ≤ plain.stop := by
  have hread := Line.wellRead_read startsInComment shellComments line
  obtain ⟨front, back, hat, hplainCut⟩ :=
    (Lexeme.mem_layOut_iff_isCut (Line.flatten_read ..)).mp hplain
  rw [Span.lexeme, hkind] at hat
  obtain ⟨hline, rfl, rfl⟩ := hcut
  obtain ⟨hline', hfront, hback⟩ := hplainCut
  rw [hline'] at hline
  have hfirst := hword.le_or_le_of_cut (List.append_assoc .. ▸ hline)
    (.inl fun c hc => (hread.isEdge_before hat c hc).not_word.1)
  have hlast := hword.le_or_le_of_cut hline
    (.inr fun c hc => (hread.isEdge_after hat c hc).not_word.1)
  omega

/-- The keyword spans of a line are its keywords in plain text. -/
theorem exists_keyword_span_iff :
    (∃ span ∈ keywords.split (Line.scan line startsInComment shellComments).spans,
        span.kind = .keyword ∧ span.start = start ∧ span.stop = stop) ↔
      ∃ before word after, IsCut line start stop before word after ∧
        keywords.IsKeyword before word after ∧
          ∃ plain ∈ (Line.scan line startsInComment shellComments).spans,
            plain.kind = .normal ∧ plain.start ≤ start ∧ stop ≤ plain.stop := by
  have hread := Line.wellRead_read startsInComment shellComments line
  have hflatten := Line.flatten_read startsInComment shellComments line
  have hpieces := (flatten_splitLexemes keywords _).trans hflatten
  rw [Line.scan, split_layOut]
  constructor
  · rintro ⟨span, hspan, hkind, rfl, rfl⟩
    obtain ⟨before, after, hat, hcut⟩ := (Lexeme.mem_layOut_iff_isCut hpieces).mp hspan
    rw [Span.lexeme, hkind] at hat
    obtain ⟨hkeyword, front, left, right, back, hwhole, rfl, rfl⟩ :=
      (isAt_splitLexemes_iff hread).mp hat
    refine ⟨_, _, _, hcut, hkeyword, ?_⟩
    refine ⟨_, hwhole.mem_layOut, rfl, ?_, ?_⟩
    · rw [← hcut.start_eq, Text.byteSize_append]
      exact Nat.le_add_right ..
    · rw [← hcut.stop_eq, Span.stop_mk]
      simp only [Text.byteSize_append]
      omega
  · rintro ⟨before, word, after, ⟨hline, rfl, rfl⟩, hkeyword, plain, hplain, hkind, hstart, hstop⟩
    obtain ⟨front, back, hat, hline', hfront, hback⟩ :=
      (Lexeme.mem_layOut_iff_isCut hflatten).mp hplain
    -- The word lies between the edges of the span, so it is the middle of the span's text.
    rw [hline', List.append_assoc, List.append_assoc] at hline
    obtain ⟨left, rfl, hrest⟩ := Text.exists_middle hline (hfront ▸ hstart)
    rw [← List.append_assoc] at hrest
    obtain ⟨right, hchars, rfl⟩ := Text.exists_middle hrest.symm (by
      rw [← hback] at hstop
      simp only [Text.byteSize_append] at hstop ⊢
      omega)
    rw [Span.lexeme, hkind, hchars] at hat
    have hword := (isAt_splitLexemes_iff hread).mpr
      ⟨hkeyword, front, left, right, back, hat, rfl, rfl⟩
    refine ⟨⟨.keyword, byteSize (front ++ left), String.ofList word⟩, ?_, rfl, rfl, ?_⟩
    · exact hword.mem_layOut
    · rw [Span.stop_mk, ← Text.byteSize_append]

/-- A byte range of a line is a keyword span if and only if it is a word of the line and of the set
that no letter or digit touches and lies in plain text. Plain text has words of the line in it or
beside it, but no part of one. -/
theorem keyword_spans_exact (keywords : KeywordSet) (line : String)
    (startsInComment shellComments : Bool) :
    (∀ start stop,
      (∃ span ∈ keywords.split (Line.scan line startsInComment shellComments).spans,
          span.kind = .keyword ∧ span.start = start ∧ span.stop = stop) ↔
        ∃ before word after, IsCut line start stop before word after ∧
          keywords.IsKeyword before word after ∧
            ∃ plain ∈ (Line.scan line startsInComment shellComments).spans,
              plain.kind = .normal ∧ plain.start ≤ start ∧ stop ≤ plain.stop) ∧
      ∀ start stop before word after, IsCut line start stop before word after →
        IsWord before word after →
          ∀ plain ∈ (Line.scan line startsInComment shellComments).spans, plain.kind = .normal →
            start < plain.stop → plain.start < stop → plain.start ≤ start ∧ stop ≤ plain.stop :=
  ⟨fun _ _ => exists_keyword_span_iff, fun _ _ _ _ _ hcut hword _ => inside_of_meets hcut hword⟩

/-- Beside a string stands a keyword. -/
theorem keyword_spans_exact_beside_string :
    IsCut "\"int\"int*éif" 5 8 ['"', 'i', 'n', 't', '"'] ['i', 'n', 't'] ['*', 'é', 'i', 'f'] ∧
      IsWord ['"', 'i', 'n', 't', '"'] ['i', 'n', 't'] ['*', 'é', 'i', 'f'] ∧
      ⟨.normal, 5, "int*éif"⟩ ∈ (Line.scan "\"int\"int*éif" false false).spans ∧
      (∃ span ∈ (ofList ["if", "int"]).split (Line.scan "\"int\"int*éif" false false).spans,
        span.kind = .keyword ∧ span.start = 5 ∧ span.stop = 8) ∧
      Span.start ⟨.normal, 5, "int*éif"⟩ ≤ 5 ∧ 8 ≤ Span.stop ⟨.normal, 5, "int*éif"⟩ := by
  have hcut : IsCut "\"int\"int*éif" 5 8 ['"', 'i', 'n', 't', '"'] ['i', 'n', 't']
      ['*', 'é', 'i', 'f'] := by
    constructor <;> decide +kernel
  have hword : ∀ c ∈ ['i', 'n', 't'], isWordChar c = true :=
    List.all_eq_true.mp (by decide)
  have hkeyword : (ofList ["if", "int"]).IsKeyword ['"', 'i', 'n', 't', '"'] ['i', 'n', 't']
      ['*', 'é', 'i', 'f'] := by
    refine ⟨⟨List.cons_ne_nil _ _, hword, ?_, ?_⟩, by decide +kernel, ?_, ?_⟩
    all_goals
      rintro _ ⟨⟩
      decide +kernel
  have hplain : ⟨.normal, 5, "int*éif"⟩ ∈ (Line.scan "\"int\"int*éif" false false).spans := by
    have hspans : (Line.scan "\"int\"int*éif" false false).spans =
        [⟨.string, 0, "\"int\""⟩, ⟨.normal, 5, "int*éif"⟩] := by decide +kernel
    simp [hspans]
  obtain ⟨hexact, hinside⟩ :=
    keyword_spans_exact (ofList ["if", "int"]) "\"int\"int*éif" false false
  refine ⟨hcut, hkeyword.toIsWord, hplain, ?_, ?_⟩
  · exact (hexact 5 8).mpr ⟨_, _, _, hcut, hkeyword, _, hplain, rfl, by decide, by decide +kernel⟩
  · exact hinside 5 8 _ _ _ hcut hkeyword.toIsWord _ hplain rfl (by decide +kernel) (by decide)

end KeywordSet

end Highlight
