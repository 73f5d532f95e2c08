import Highlight.Proofs.TextLabels
import Highlight.Proofs.Tiling
import Highlight.Proofs.WholeWords

/-!
# Keywords of several sets

Cutting out the keywords of one set and then those of another gives what the words of both sets,
taken together, give at once. The reason is that a keyword stands apart: beside it there is neither
a letter nor a digit nor an underscore. So a text is cut at a keyword as if it ended before it and
began anew behind it, `splitText_append`, and what a second set finds in a piece does not depend on
the cuts of the first one. The main theorem, `split_split`, is about any spans.
-/

namespace Highlight

namespace KeywordSet

open Lexeme (IsAt)

variable {keywords : KeywordSet} {before word after chars : List Char}

/-! ## A text and its keywords -/

/-- Only words become keywords, whatever stands beside them. -/
theorem kindOf_of_not_isWord {run : Run} (h : run.isWord = false) (first last : Option Char) :
    keywords.kindOf first run last = .normal := by
  simp [kindOf, h]

/-- What stands before the runs matters to a word only. -/
theorem mark_eq_of_not_isWord {runs : List Run} (h : ∀ run ∈ runs.head?, run.isWord = false)
    (first other : Option Char) : keywords.mark first runs = keywords.mark other runs := by
  cases runs with
  | nil => rfl
  | cons run rest =>
      have hrun := h run rfl
      rw [mark, mark, kindOf_of_not_isWord hrun, kindOf_of_not_isWord hrun]

/-- Runs that do not end with a word are marked as if nothing followed them. -/
theorem mark_append {runs : List Run} (h : ∀ run ∈ runs.getLast?, run.isWord = false)
    (hruns : ∀ run ∈ runs, run.chars ≠ []) (first : Option Char) (later : List Run) :
    keywords.mark first (runs ++ later) = keywords.mark first runs ++
      keywords.mark ((runs.flatMap Run.chars).getLast?.or first) later := by
  induction runs generalizing first with
  | nil => rfl
  | cons run rest ih =>
      rw [List.forall_mem_cons] at hruns
      rw [List.flatMap_cons, getLast?_append_or hruns.1]
      cases rest with
      | nil =>
          have hrun : run.isWord = false := h run rfl
          rw [List.singleton_append, mark, mark, kindOf_of_not_isWord hrun,
            kindOf_of_not_isWord hrun]
          rfl
      | cons next rest =>
          have hrest := ih (by simpa [List.getLast?_cons_cons] using h) hruns.2 run.chars.getLast?
          rw [List.cons_append, mark, hrest, mark]
          rfl

/-- At a keyword plain text is not joined. -/
theorem foldr_joinNormal_append {lexeme : Lexeme} (h : lexeme.kind = .keyword)
    (left right : List Lexeme) :
    (left ++ lexeme :: right).foldr joinNormal [] =
      left.foldr joinNormal [] ++ lexeme :: right.foldr joinNormal [] := by
  have hlexeme : ¬ lexeme.kind = .normal := by
    rw [h]
    exact SpanKind.noConfusion
  induction left with
  | nil =>
      show joinNormal lexeme (right.foldr joinNormal []) = _
      cases right.foldr joinNormal [] with
      | nil => rfl
      | cons next rest => exact if_neg fun hboth => hlexeme hboth.1
  | cons first left ih =>
      rw [List.cons_append, List.foldr_cons, ih, List.foldr_cons]
      cases left.foldr joinNormal [] with
      | nil => exact if_neg fun hboth => hlexeme hboth.2
      | cons next rest =>
          rw [List.cons_append, joinNormal, joinNormal]
          split <;> rfl

/-- A text is cut at a keyword as if it ended before it and began anew behind it. -/
theorem splitText_append (h : keywords.IsKeyword before word after) :
    keywords.splitText (before ++ word ++ after) =
      keywords.splitText before ++ ⟨.keyword, word⟩ :: keywords.splitText after := by
  have hruns (chars : List Char) : ∀ run ∈ Run.ofChars chars, run.chars ≠ [] :=
    fun run hrun => (Run.uniform_of_mem_ofChars hrun).chars_ne_nil
  have hkind : keywords.kindOf (before.getLast?.or none) ⟨true, word⟩ after.head? = .keyword := by
    rw [kindOf_eq_keyword_iff, Option.or_none]
    exact ⟨rfl, h.contains, h.isAlphanumeric_before, h.isAlphanumeric_after⟩
  have hmark : keywords.mark none (Run.ofChars before ++ ⟨true, word⟩ :: Run.ofChars after) =
      keywords.mark none (Run.ofChars before) ++
        ⟨.keyword, word⟩ :: keywords.mark none (Run.ofChars after) := by
    rw [mark_append (Run.isWord_of_mem_getLast?_ofChars h.isWordChar_before) (hruns before),
      Run.flatMap_chars_ofChars, mark, ← head?_flatMap_chars (hruns after),
      Run.flatMap_chars_ofChars, hkind,
      mark_eq_of_not_isWord (Run.isWord_of_mem_head?_ofChars h.isWordChar_after) _ none]
  rw [splitText, Run.ofChars_of_isWord h.toIsWord, hmark, foldr_joinNormal_append rfl]
  rfl

/-- Some word of the text is a keyword. -/
def HasKeyword (keywords : KeywordSet) (chars : List Char) : Prop :=
  ∃ before word after, chars = before ++ word ++ after ∧ keywords.IsKeyword before word after

/-- A text without keywords has plain pieces only. -/
theorem kind_eq_normal_of_mem_splitText (h : ¬ keywords.HasKeyword chars) {lexeme : Lexeme}
    (hlexeme : lexeme ∈ keywords.splitText chars) : lexeme.kind = .normal := by
  have hlexical := lexical_of_mem_splitText hlexeme
  obtain ⟨front, back, hsplit⟩ := List.append_of_mem hlexeme
  obtain ⟨kind, word⟩ := lexeme
  cases kind with
  | normal => rfl
  | keyword =>
      have hat : IsAt (keywords.splitText chars) (Lexeme.flatten front) ⟨.keyword, word⟩
          (Lexeme.flatten back) := ⟨front, back, hsplit, rfl, rfl⟩
      exact absurd ⟨_, _, _, isAt_splitText_iff.mp hat⟩ h
  | string | comment | error => cases hlexical

/-- A text without keywords is one piece, or none if it is empty. -/
theorem splitText_of_not_hasKeyword (h : ¬ keywords.HasKeyword chars) :
    keywords.splitText chars = if chars = [] then [] else [⟨.normal, chars⟩] := by
  have hnormal : ∀ lexeme ∈ keywords.splitText chars, lexeme.kind = .normal :=
    fun lexeme => kind_eq_normal_of_mem_splitText h
  have hflatten := flatten_splitText keywords chars
  have hne : ∀ lexeme ∈ keywords.splitText chars, lexeme.chars ≠ [] :=
    fun lexeme => chars_ne_nil_of_mem_splitText
  have hchain := isChain_splitText keywords chars
  -- Two pieces of plain text would be one.
  match hsplit : keywords.splitText chars with
  | [] =>
      rw [hsplit] at hflatten
      obtain rfl : chars = [] := hflatten.symm
      rw [if_pos rfl]
  | [⟨kind, piece⟩] =>
      rw [hsplit] at hnormal hflatten hne
      obtain rfl : kind = .normal := hnormal _ List.mem_cons_self
      obtain rfl : piece = chars := by simpa using hflatten
      rw [if_neg (hne _ List.mem_cons_self)]
  | first :: next :: rest =>
      rw [hsplit] at hnormal hchain
      have hmeet := (List.isChain_cons_cons.mp hchain).1
      exact absurd ⟨hnormal first (by simp), hnormal next (by simp)⟩ hmeet.1

/-- What holds of texts without keywords, and of a text with a keyword if it holds of the texts
before and behind that, holds of all texts. -/
theorem induction_on_keywords (keywords : KeywordSet) {motive : List Char → Prop}
    (none : ∀ chars, ¬ keywords.HasKeyword chars → motive chars)
    (keyword : ∀ before word after, keywords.IsKeyword before word after → motive before →
      motive after → motive (before ++ word ++ after)) (chars : List Char) : motive chars := by
  by_cases h : keywords.HasKeyword chars
  · obtain ⟨before, word, after, hchars, hkeyword⟩ := h
    have hlength : chars.length = before.length + word.length + after.length := by
      rw [hchars, List.length_append, List.length_append]
    have hword := List.length_pos_of_ne_nil hkeyword.ne_nil
    rw [hchars]
    exact keyword before word after hkeyword (induction_on_keywords keywords none keyword before)
      (induction_on_keywords keywords none keyword after)
  · exact none chars h
termination_by chars.length

/-- A keyword before another keyword is none the less a keyword of the whole text. -/
theorem IsKeyword.hasKeyword_before {other : KeywordSet} (h : other.IsKeyword before word after)
    (hbefore : keywords.HasKeyword before) : keywords.HasKeyword (before ++ word ++ after) := by
  obtain ⟨front, found, back, rfl, hfound⟩ := hbefore
  have hback := hfound.after_ne_nil h.isWordChar_before
  have hhead : (back ++ (word ++ after)).head? = back.head? := List.head?_append_of_ne_nil _ hback
  refine ⟨front, found, back ++ (word ++ after), by simp, ?_⟩
  exact { hfound with
    isWordChar_after := hhead ▸ hfound.isWordChar_after
    isAlphanumeric_after := hhead ▸ hfound.isAlphanumeric_after }

/-- Nor does it matter to a keyword that another one stands before it. -/
theorem IsKeyword.hasKeyword_after {other : KeywordSet} (h : other.IsKeyword before word after)
    (hafter : keywords.HasKeyword after) : keywords.HasKeyword (before ++ word ++ after) := by
  obtain ⟨front, found, back, rfl, hfound⟩ := hafter
  have hfront := hfound.before_ne_nil h.isWordChar_after
  have hlast : (before ++ word ++ front).getLast? = front.getLast? :=
    List.getLast?_append_of_ne_nil _ hfront
  refine ⟨before ++ word ++ front, found, back, by simp, ?_⟩
  exact { hfound with
    isWordChar_before := hlast ▸ hfound.isWordChar_before
    isAlphanumeric_before := hlast ▸ hfound.isAlphanumeric_before }

/-! ## Two sets -/

/-- The words of two sets. -/
def union (first second : KeywordSet) : KeywordSet :=
  .ofList (first.words ++ second.words)

variable {first second : KeywordSet}

/-- A union has the words of both sets. -/
@[simp]
theorem contains_union (first second : KeywordSet) (word : String) :
    (first.union second).contains word = (first.contains word || second.contains word) := by
  rw [union, contains_ofList, List.contains_append, contains, contains]

/-- A word is a keyword of a union if it is one of either set. -/
theorem isKeyword_union_iff : (first.union second).IsKeyword before word after ↔
    first.IsKeyword before word after ∨ second.IsKeyword before word after := by
  constructor
  · intro h
    have hcontains := h.contains
    rw [contains_union, Bool.or_eq_true] at hcontains
    exact hcontains.imp (fun hfirst => { h with contains := hfirst })
      fun hsecond => { h with contains := hsecond }
  · intro h
    rcases h with hfirst | hsecond
    · exact { hfirst with contains := by rw [contains_union, hfirst.contains, Bool.true_or] }
    · exact { hsecond with contains := by rw [contains_union, hsecond.contains, Bool.or_true] }

/-- A text has a keyword of a union if it has one of either set. -/
theorem hasKeyword_union_iff : (first.union second).HasKeyword chars ↔
    first.HasKeyword chars ∨ second.HasKeyword chars := by
  simp only [HasKeyword, isKeyword_union_iff, and_or_left, exists_or]

/-- Where the first set has no keywords, both together find what the second one finds. -/
theorem splitText_union_of_not_hasKeyword (h : ¬ first.HasKeyword chars) :
    (first.union second).splitText chars = second.splitText chars := by
  induction chars using induction_on_keywords second with
  | none chars hnone =>
      rw [splitText_of_not_hasKeyword hnone, splitText_of_not_hasKeyword]
      rw [hasKeyword_union_iff]
      exact not_or.mpr ⟨h, hnone⟩
  | keyword before word after hkeyword ihbefore ihafter =>
      rw [splitText_append hkeyword, splitText_append (isKeyword_union_iff.mpr (.inr hkeyword)),
        ihbefore (mt hkeyword.hasKeyword_before h), ihafter (mt hkeyword.hasKeyword_after h)]

/-- Cut at the keywords of the first set and the pieces at those of the second, a text is cut at
the keywords of both. -/
theorem flatMap_splitText (first second : KeywordSet) (chars : List Char) :
    (first.splitText chars).flatMap second.splitLexeme = (first.union second).splitText chars := by
  induction chars using induction_on_keywords first with
  | none chars hnone =>
      rw [splitText_union_of_not_hasKeyword hnone, splitText_of_not_hasKeyword hnone]
      split
      · rename_i hempty
        rw [hempty]
        rfl
      · rw [List.flatMap_singleton, splitLexeme, if_pos rfl]
  | keyword before word after hkeyword ihbefore ihafter =>
      rw [splitText_append hkeyword, splitText_append (isKeyword_union_iff.mpr (.inl hkeyword)),
        List.flatMap_append, List.flatMap_cons, ihbefore, ihafter]
      rfl

/-! ## Spans -/

/-- A set is empty if it contains no word. -/
theorem isEmpty_iff_contains :
    keywords.isEmpty = true ↔ ∀ word, keywords.contains word = false := by
  rw [isEmpty, List.isEmpty_iff, List.eq_nil_iff_forall_not_mem]
  simp [contains]

/-- A union is empty if both sets are. -/
theorem isEmpty_union_iff : (first.union second).isEmpty = true ↔
    first.isEmpty = true ∧ second.isEmpty = true := by
  simp only [isEmpty_iff_contains, contains_union, Bool.or_eq_false_iff, forall_and]

/-- Sets with the same words mark the same runs. -/
theorem mark_congr (h : ∀ word, first.contains word = second.contains word)
    (previous : Option Char) (runs : List Run) :
    first.mark previous runs = second.mark previous runs := by
  induction runs generalizing previous with
  | nil => rfl
  | cons run rest ih => rw [mark, mark, ih, kindOf, kindOf, h]

/-- What a set cuts out depends on its members only. -/
theorem split_congr (h : ∀ word, first.contains word = second.contains word) (spans : List Span) :
    first.split spans = second.split spans := by
  have hempty : first.isEmpty = second.isEmpty := by
    rw [Bool.eq_iff_iff, isEmpty_iff_contains, isEmpty_iff_contains]
    simp only [h]
  have hspan : first.splitSpan = second.splitSpan := by
    funext span
    rw [splitSpan, splitSpan, splitText, splitText, mark_congr h]
  rw [split, split, hempty, hspan]

/-- Cutting a span by one set and its pieces by another is cutting it by the union. -/
theorem flatMap_splitSpan (first second : KeywordSet) (span : Span) :
    (first.splitSpan span).flatMap second.splitSpan = (first.union second).splitSpan span := by
  rw [splitSpan, splitSpan]
  split
  · rw [flatMap_splitSpan_layOut, flatMap_splitText]
  · rename_i hkind
    rw [List.flatMap_singleton, splitSpan, if_neg hkind]

/-- The empty set changes nothing. -/
theorem split_of_isEmpty (h : keywords.isEmpty = true) (spans : List Span) :
    keywords.split spans = spans :=
  if_pos h

/-- Any other set cuts span by span. -/
theorem split_of_not_isEmpty (h : ¬ keywords.isEmpty = true) (spans : List Span) :
    keywords.split spans = spans.flatMap keywords.splitSpan :=
  if_neg h

/-- The keywords of two sets can be cut out one set after the other. -/
theorem split_split (first second : KeywordSet) (spans : List Span) :
    second.split (first.split spans) = (first.union second).split spans := by
  by_cases hfirst : first.isEmpty = true
  · have hsame : ∀ word, second.contains word = (first.union second).contains word := by
      intro word
      rw [contains_union, isEmpty_iff_contains.mp hfirst, Bool.false_or]
    rw [split_of_isEmpty hfirst, split_congr hsame]
  · by_cases hsecond : second.isEmpty = true
    · have hsame : ∀ word, first.contains word = (first.union second).contains word := by
        intro word
        rw [contains_union, isEmpty_iff_contains.mp hsecond, Bool.or_false]
      rw [split_of_isEmpty hsecond, split_congr hsame]
    · have hboth : ¬ (first.union second).isEmpty = true :=
        fun hempty => hfirst (isEmpty_union_iff.mp hempty).1
      rw [split_of_not_isEmpty hfirst, split_of_not_isEmpty hsecond, split_of_not_isEmpty hboth,
        List.flatMap_assoc]
      exact congrArg spans.flatMap (funext (flatMap_splitSpan first second))

/-- A letter of two bytes makes a word longer, whichever set is asked. -/
example : (ofList ["class"]).split ((ofList ["int"]).split [⟨.normal, 0, "int éint class"⟩]) =
    [⟨.keyword, 0, "int"⟩, ⟨.normal, 3, " éint "⟩, ⟨.keyword, 10, "class"⟩] := by
  decide +kernel

/-- Cutting out the keywords of two sets one after the other cuts out those of both at once. So it
does not matter which set comes first, and a set finds nothing more when it comes again. -/
theorem split_as_union (first second : KeywordSet) (spans : List Span) :
    second.split (first.split spans) = (first.union second).split spans ∧
      first.split (first.split spans) = first.split spans ∧
      second.split (first.split spans) = first.split (second.split spans) := by
  have hself : ∀ word, (first.union first).contains word = first.contains word := by simp
  have hswap : ∀ word, (first.union second).contains word = (second.union first).contains word := by
    simp [Bool.or_comm]
  refine ⟨split_split first second spans, ?_, ?_⟩
  · rw [split_split, split_congr hself]
  · rw [split_split, split_split, split_congr hswap]

end KeywordSet

end Highlight
