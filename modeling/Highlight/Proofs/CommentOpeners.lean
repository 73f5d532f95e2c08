import Highlight.Proofs.CacheHistory
import Highlight.Proofs.Edges

/-!
# Which line opened a comment

Whether a line begins inside a block comment was defined by the scans of all lines before it. Here
it is told by one of them: the opener, whose last span opens a comment that the lines behind it do
not end. `Line.endsInComment_iff` says what one line hands on, `beginsInComment_iff` that a line
begins inside a comment if it has an opener, and `IsOpener.eq` that it never has two. The main
theorem, `query_empty_iff_opener`, is about the answers of a new cache.
-/

namespace Highlight

open Lexeme (readCode layOut flatten)

/-! ## One line -/

/-- The line ends in a block comment that it opens itself. The span in which a line begins that
begins inside a comment opens none, whatever its text. -/
structure Line.OpensComment (line : String) (startsInComment shellComments : Bool) : Prop where
  endsInComment : (Line.scan line startsInComment shellComments).endsInComment = true
  exists_last : ∃ init last, (Line.scan line startsInComment shellComments).spans = init ++ [last] ∧
    ['/', '*'] <+: last.text.toList ∧ (startsInComment = true → init ≠ [])

namespace Line

variable {line : String} {startsInComment shellComments : Bool} {lead : List Lexeme}
  {code : List Char}

/-- The text of a line that begins inside a comment is not read as code from its front. -/
theorem IsLead.ne_nil (h : IsLead true lead) : lead ≠ [] := by
  rintro rfl
  have hempty := h.read_eq false []
  rw [readCode] at hempty
  cases hempty

/-- A line opens a comment if the code behind its lead leaves one open. -/
theorem opensComment_iff_of_isLead (hlead : IsLead startsInComment lead)
    (hline : line.toList = flatten lead ++ code) :
    OpensComment line startsInComment shellComments ↔
      (readCode shellComments code).inComment = true := by
  have hread := hlead.read_eq shellComments code
  rw [← hline, String.ofList_toList] at hread
  constructor
  · intro hopens
    have hends := hopens.endsInComment
    rwa [scan, hread] at hends
  · intro hcode
    obtain ⟨last, hlast, body, rfl, -⟩ := (Lexeme.inComment_readCode_iff _ _).mp hcode
    obtain ⟨front, hlexemes⟩ := List.getLast?_eq_some_iff.mp hlast
    constructor
    · rw [scan, hread]
      exact hcode
    · refine ⟨layOut 0 (lead ++ front),
        ⟨.comment, Text.byteSize (flatten (lead ++ front)), String.ofList ('/' :: '*' :: body)⟩,
        ?_, ?_, ?_⟩
      · rw [scan, hread, hlexemes, ← List.append_assoc, Lexeme.layOut_append, Nat.zero_add]
        rfl
      · rw [String.toList_ofList]
        exact List.prefix_append ['/', '*'] body
      · rintro rfl
        obtain ⟨first, rest, rfl⟩ := List.exists_cons_of_ne_nil hlead.ne_nil
        exact List.cons_ne_nil _ _

/-- Without an end marker a line that begins inside a comment is one comment. -/
theorem read_true_of_not_infix (h : ¬ ['*', '/'] <:+: line.toList) (shellComments : Bool) :
    read true shellComments line =
      ⟨if line.toList = [] then [] else [⟨.comment, line.toList⟩], true⟩ := by
  rw [read, if_pos rfl]
  rw [← Grammar.blockEnd?_eq_none_iff] at h
  cases hchars : line.toList with
  | nil => rfl
  | cons c rest =>
      rw [hchars] at h
      rw [Lexeme.readComment, h, if_neg (List.cons_ne_nil c rest)]

/-- A line ends inside a comment if it opens one that it does not end, or if it begins inside one
and has no end marker. -/
theorem endsInComment_iff :
    endsInComment line startsInComment shellComments = true ↔
      OpensComment line startsInComment shellComments ∨
        startsInComment = true ∧ ¬ ['*', '/'] <:+: line.toList := by
  cases startsInComment with
  | false =>
      have hline : line.toList = flatten [] ++ line.toList := rfl
      rw [opensComment_iff_of_isLead isLead_nil hline]
      simp [endsInComment, read]
  | true =>
      by_cases hmarker : ['*', '/'] <:+: line.toList
      · cases hend : Lexeme.blockEnd? line.toList with
        | none => exact absurd hmarker (Grammar.blockEnd?_eq_none_iff.mp hend)
        | some parts =>
            have hlead := isLead_singleton (Grammar.endsAtFirst_of_blockEnd? hend)
            have hline : line.toList = flatten [⟨.comment, parts.1⟩] ++ parts.2 := by
              simpa using Lexeme.append_of_blockEnd? hend
            have hread := hlead.read_eq shellComments parts.2
            rw [← hline, String.ofList_toList] at hread
            rw [opensComment_iff_of_isLead hlead hline, endsInComment, hread]
            simp [hmarker]
      · rw [endsInComment, read_true_of_not_infix hmarker]
        exact iff_of_true rfl (.inr ⟨rfl, hmarker⟩)

/-- Before a line can open a comment, it has to end the one in which it begins. -/
theorem OpensComment.infix_of_startsInComment (h : OpensComment line true shellComments) :
    ['*', '/'] <:+: line.toList := by
  obtain ⟨init, last, hspans, -, hinit⟩ := h.exists_last
  -- Without an end marker there would be one span only.
  by_contra hmarker
  have hone : (scan line true shellComments).spans.length ≤ 1 := by
    rw [scan, read_true_of_not_infix hmarker]
    split <;> simp [layOut]
  have hpos := List.length_pos_of_ne_nil (hinit rfl)
  rw [hspans, List.length_append, List.length_singleton] at hone
  omega

/-- A line that opens a comment has the opening marker. -/
theorem OpensComment.infix (h : OpensComment line startsInComment shellComments) :
    ['/', '*'] <:+: line.toList := by
  obtain ⟨init, last, hspans, hmarker, -⟩ := h.exists_last
  have hline := concat_scan line startsInComment shellComments
  rw [hspans] at hline
  have hsuffix : last.text.toList <:+ line.toList := by
    rw [← hline]
    simp [Span.concat, String.toList_join]
  exact hmarker.isInfix.trans hsuffix.isInfix

end Line

/-! ## All lines before -/

variable {α : Type} [LineSource α] {lines : α} {shellComments : Bool} {line opener other : Nat}

open LineSource (lineText beginsInComment)

/-- The line opens the comment in which a later line begins. -/
structure LineSource.IsOpener (lines : α) (shellComments : Bool) (line opener : Nat) : Prop where
  lt : opener < line
  opensComment : Line.OpensComment (lineText lines opener)
    (beginsInComment lines shellComments opener) shellComments
  /-- No line in between ends the comment. -/
  not_infix : ∀ between, opener < between → between < line →
    ¬ ['*', '/'] <:+: (lineText lines between).toList

namespace LineSource

/-- The opener of a line is the line before it, or the opener of that line. -/
theorem isOpener_succ : IsOpener lines shellComments (line + 1) opener ↔
    opener = line ∧ Line.OpensComment (lineText lines line)
        (beginsInComment lines shellComments line) shellComments ∨
      IsOpener lines shellComments line opener ∧
        ¬ ['*', '/'] <:+: (lineText lines line).toList := by
  constructor
  · intro h
    rcases Nat.eq_or_lt_of_le (Nat.le_of_lt_succ h.lt) with rfl | hlt
    · exact .inl ⟨rfl, h.opensComment⟩
    · refine .inr ⟨⟨hlt, h.opensComment, fun between hfrom hto => ?_⟩, ?_⟩
      · exact h.not_infix between hfrom (Nat.lt_succ_of_lt hto)
      · exact h.not_infix line hlt (Nat.lt_succ_self line)
  · rintro (⟨rfl, hopens⟩ | ⟨h, hlast⟩)
    · refine ⟨Nat.lt_succ_self _, hopens, fun between hfrom hto => ?_⟩
      omega
    · refine ⟨Nat.lt_succ_of_lt h.lt, h.opensComment, fun between hfrom hto => ?_⟩
      rcases Nat.eq_or_lt_of_le (Nat.le_of_lt_succ hto) with rfl | hlt
      · exact hlast
      · exact h.not_infix between hfrom hlt

/-- A line begins inside a comment if and only if it has an opener. -/
theorem beginsInComment_iff : beginsInComment lines shellComments line = true ↔
    ∃ opener, IsOpener lines shellComments line opener := by
  induction line with
  | zero =>
      refine iff_of_false Bool.false_ne_true ?_
      rintro ⟨opener, h⟩
      exact Nat.not_lt_zero opener h.lt
  | succ line ih =>
      simp only [beginsInComment, Line.endsInComment_iff, ih, isOpener_succ, exists_or,
        exists_eq_left, exists_and_right]

/-- Of two openers the later one would have to end the comment of the other first. -/
theorem IsOpener.not_lt (h : IsOpener lines shellComments line opener)
    (hother : IsOpener lines shellComments line other) : ¬ opener < other := by
  intro hlt
  have hbegins : beginsInComment lines shellComments other = true :=
    beginsInComment_iff.mpr ⟨opener, hlt, h.opensComment, fun between hfrom hto =>
      h.not_infix between hfrom (Nat.lt_trans hto hother.lt)⟩
  have hopens := hother.opensComment
  rw [hbegins] at hopens
  exact h.not_infix other hlt hother.lt hopens.infix_of_startsInComment

/-- A line has one opener at most. -/
theorem IsOpener.eq (h : IsOpener lines shellComments line opener)
    (hother : IsOpener lines shellComments line other) : opener = other :=
  Nat.le_antisymm (Nat.le_of_not_lt (hother.not_lt h)) (Nat.le_of_not_lt (h.not_lt hother))

end LineSource

namespace CommentCache

/-- A new cache says of a line that it begins inside a comment if and only if the line has an
opener, which is then the only one. Without an opening marker in the lines before it says so of no
line, whatever else they hold. -/
theorem query_empty_iff_opener (lines : α) (shellComments : Bool) {line : Nat}
    (hline : line < max (lineCount lines) 1) :
    (empty.query lines line shellComments).map Prod.fst =
        .ok (beginsInComment lines shellComments line) ∧
      (beginsInComment lines shellComments line = true ↔
        ∃ opener, LineSource.IsOpener lines shellComments line opener) ∧
      (∀ opener other, LineSource.IsOpener lines shellComments line opener →
        LineSource.IsOpener lines shellComments line other → opener = other) ∧
      ((∀ before < line, ¬ ['/', '*'] <:+: (lineText lines before).toList) →
        beginsInComment lines shellComments line = false) := by
  refine ⟨?_, LineSource.beginsInComment_iff, fun opener other => LineSource.IsOpener.eq,
    fun hmarkers => ?_⟩
  · rw [(accurateTo_empty lines shellComments).map_query trivial, if_pos hline]
  · rw [Bool.eq_false_iff, ne_eq, LineSource.beginsInComment_iff]
    rintro ⟨opener, h⟩
    exact hmarkers opener h.lt h.opensComment.infix

/-- The first line has its markers in a string. The second opens a comment with a slash behind its
marker, and the marker of the third is a part of that comment. -/
theorem query_empty_iff_opener_behind_string :
    3 < max (lineCount ["a */ \"/*\"", "b /*/ c", "/* d", "e"]) 1 ∧
      LineSource.IsOpener ["a */ \"/*\"", "b /*/ c", "/* d", "e"] false 3 1 ∧
      (empty.query ["a */ \"/*\"", "b /*/ c", "/* d", "e"] 3 false).map Prod.fst = .ok true ∧
      ∀ other, LineSource.IsOpener ["a */ \"/*\"", "b /*/ c", "/* d", "e"] false 3 other →
        other = 1 := by
  have hopens : Line.OpensComment "b /*/ c" false false :=
    ⟨by decide +kernel, [⟨.normal, 0, "b "⟩], ⟨.comment, 2, "/*/ c"⟩, by decide +kernel,
      by decide, fun hstarts => by cases hstarts⟩
  have hopener : LineSource.IsOpener ["a */ \"/*\"", "b /*/ c", "/* d", "e"] false 3 1 := by
    refine ⟨by decide, ?_, fun between hfrom hto => ?_⟩
    · have hstarts : beginsInComment ["a */ \"/*\"", "b /*/ c", "/* d", "e"] false 1 = false := by
        decide +kernel
      rw [hstarts]
      exact hopens
    · obtain rfl : between = 2 := by omega
      decide
  have hline : 3 < max (lineCount ["a */ \"/*\"", "b /*/ c", "/* d", "e"]) 1 := by decide
  obtain ⟨hquery, hbegins, hunique, -⟩ := query_empty_iff_opener _ false hline
  rw [hbegins.mpr ⟨1, hopener⟩] at hquery
  exact ⟨hline, hopener, hquery, fun other hother => hunique other 1 hother hopener⟩

end CommentCache

end Highlight
