import Highlight.Proofs.CacheHistory
import Highlight.Proofs.Repaint

/-!
# Edits that are missed

An edit whose window shows no marker leaves the cache alone, although it may have changed a comment.
If it adds and removes no line break, it changes one line (`Indexed.lineText_eq_of_turns_of_ne`),
and the entries of the cache up to that line stay right. Those behind it are right as long as the
line hands on the state that it did, and no longer: `AccurateTo.changed_iff`. As a wrong entry is
answered with, the styler answers rightly in exactly these cases. The main theorem is
`answers_as_fresh_iff_of_missed_edit`.
-/

namespace Highlight

open LineSource (lineText beginsInComment)

/-! ## The line of an edit -/

/-- An edit without line breaks changes one line, which is counted by the line breaks before its
offset. -/
theorem Edit.Turns.exists_lines {edit : Edit} {old new : List Char} (h : edit.Turns old new)
    (hbreak : '\n' ∉ edit.text.toList) :
    ∃ init before after tail, init.length = (new.take edit.offset).count '\n' ∧
      Text.lines old = init ++ before :: tail ∧ Text.lines new = init ++ after :: tail := by
  obtain ⟨front, back, hfront, hturns⟩ := h
  obtain ⟨init, left, right, tail, hlength, -, -, hshort, hlong⟩ :=
    Text.exists_lines_insert front hbreak back
  cases hkind : edit.kind with
  | insertion =>
      rw [hkind] at hturns
      obtain ⟨rfl, rfl⟩ := hturns
      refine ⟨init, _, _, tail, ?_, hshort, hlong⟩
      rw [← hfront, List.append_assoc, List.take_left, hlength]
  | removal =>
      rw [hkind] at hturns
      obtain ⟨rfl, rfl⟩ := hturns
      refine ⟨init, _, _, tail, ?_, hlong, hshort⟩
      rw [← hfront, List.take_left, hlength]

namespace TextBuffer

variable {buffer edited : TextBuffer} {edit : Edit}

/-- An edit without line breaks neither adds nor removes a line. -/
theorem Indexed.lineCount_eq_of_turns (hbuffer : buffer.Indexed) (hedited : edited.Indexed)
    (hturns : edit.Turns buffer.text.toList edited.text.toList)
    (hbreak : '\n' ∉ edit.text.toList) : lineCount buffer = lineCount edited := by
  obtain ⟨init, before, after, tail, -, hold, hnew⟩ := hturns.exists_lines hbreak
  rw [hbuffer.lineCount_eq, hedited.lineCount_eq, hold, hnew, List.length_append,
    List.length_append, List.length_cons, List.length_cons]

/-- An edit without line breaks leaves all lines but its own as they were. -/
theorem Indexed.lineText_eq_of_turns_of_ne (hbuffer : buffer.Indexed) (hedited : edited.Indexed)
    (hturns : edit.Turns buffer.text.toList edited.text.toList)
    (hbreak : '\n' ∉ edit.text.toList) {line : Nat}
    (hline : line ≠ edited.lineIndexOf edit.offset) :
    lineText buffer line = lineText edited line := by
  obtain ⟨init, before, after, tail, hlength, hold, hnew⟩ := hturns.exists_lines hbreak
  rw [hedited.lineIndexOf_eq, ← hlength] at hline
  rw [hbuffer.lineText_eq, hedited.lineText_eq, hold, hnew,
    Text.getElem?_append_cons_of_ne hline before after]

end TextBuffer

/-! ## The entries behind a changed line -/

namespace CommentCache

variable {α β : Type} [LineSource α] [LineSource β] {cache : CommentCache} {lines : α} {others : β}
  {shellComments : Bool}

/-- A cache that was right about all lines is right about lines that differ in one place if and only
if it does not know the lines behind that place or they begin as before. -/
theorem AccurateTo.changed_iff (h : AccurateTo .all cache lines shellComments) {changed : Nat}
    (hsame : ∀ line, line ≠ changed → lineText lines line = lineText others line) :
    AccurateTo .all cache others shellComments ↔
      cache.horizon ≤ changed ∨
        Line.endsInComment (lineText lines changed) (beginsInComment lines shellComments changed)
            shellComments =
          Line.endsInComment (lineText others changed)
            (beginsInComment lines shellComments changed) shellComments := by
  have hbefore : ∀ line ≤ changed,
      beginsInComment lines shellComments line = beginsInComment others shellComments line := by
    have habove : ∀ index < changed, lineText lines index = lineText others index :=
      fun index hindex => hsame index (Nat.ne_of_lt hindex)
    exact fun line hline => LineSource.beginsInComment_congr habove shellComments hline
  constructor
  · intro hothers
    rcases Nat.lt_or_ge changed cache.horizon with hknown | hhorizon
    · -- The entry behind the changed line is known, and it is right about both.
      have hentry := (h _ hknown trivial).symm.trans (hothers _ hknown trivial)
      rw [beginsInComment, beginsInComment, ← hbefore changed (Nat.le_refl _)] at hentry
      exact .inr hentry
    · exact .inl hhorizon
  · intro hcases
    rcases hcases with hhorizon | hends
    · intro line hline _
      rw [h line hline trivial, hbefore line (Nat.le_trans hline hhorizon)]
    · exact h.of_beginsInComment_eq (LineSource.beginsInComment_congr_of_ne changed hsame hends)

/-- A cache that knows lines which exist answers about all lines what a new one answers if and only
if it is right about those that it knows. -/
theorem answers_as_empty_iff (hcount : cache.horizon < lineCount lines) :
    (∀ line < lineCount lines, (cache.query lines line shellComments).map Prod.fst =
        (empty.query lines line shellComments).map Prod.fst) ↔
      AccurateTo .all cache lines shellComments := by
  have hempty := accurateTo_empty lines shellComments
  constructor
  · intro hanswers line hline _
    have hline' : line < lineCount lines := Nat.lt_of_le_of_lt hline hcount
    have hanswer := hanswers line hline'
    rw [hempty.map_query trivial, map_query, extendTo_of_le hline,
      if_pos (Nat.lt_of_lt_of_le hline' (Nat.le_max_left _ _)),
      if_pos (Nat.lt_of_lt_of_le hline' (Nat.le_max_left _ _))] at hanswer
    exact Except.ok.inj hanswer
  · intro haccurate line _
    rw [haccurate.map_query trivial, hempty.map_query trivial]

end CommentCache

/-! ## Stylers -/

namespace Styler

/-- The answer of a styler is that of its cache. -/
theorem map_startsInComment {α : Type} [LineSource α] (styler : Styler) (lines : α) (line : Nat) :
    (styler.startsInComment lines line).map Prod.fst =
      (styler.cache.query lines line styler.shellComments).map Prod.fst := by
  unfold startsInComment
  cases styler.cache.query lines line styler.shellComments with
  | error error => rfl
  | ok answer => rfl

/-- A styler that knew where the lines of a text begin is told of an edit that shows no marker and
has no line break. From then on it answers for all lines what a new styler answers if and only if it
knew no line behind that of the edit, or the line of the edit hands on the state that it did. -/
theorem answers_as_fresh_iff_of_missed_edit (fileName? : Option String) (text : String)
    (commands : List Command) (styler : Styler) {request : Request} {edited : TextBuffer}
    {edit : Edit} :
    let start : TextBuffer := { TextBuffer.ofText text with fileName? := fileName? }
    let buffer := (Command.runAll TextBuffer.respond start commands).1
    let changed := edited.lineIndexOf request.offset
    let starts := beginsInComment buffer styler.shellComments changed
    styler.cache.AccurateTo .all buffer styler.shellComments →
      styler.cache.horizon < lineCount buffer →
      buffer.perform request = .ok (edited, edit) → '\n' ∉ edit.text.toList →
      edited.touchesMarker edit = false →
      ((∀ line < lineCount edited,
          ((styler.noteEdit edited edit).1.startsInComment edited line).map Prod.fst =
            (styler.fresh.startsInComment edited line).map Prod.fst) ↔
        styler.cache.horizon ≤ changed ∨
          Line.endsInComment (lineText buffer changed) starts styler.shellComments =
            Line.endsInComment (lineText edited changed) starts styler.shellComments) := by
  intro start buffer changed starts haccurate hhorizon hperform hbreak htouches
  have hstart : start.Holds text.toList := ⟨TextBuffer.indexed_ofText text, rfl⟩
  have hindexed : buffer.Indexed := (hstart.runAll commands).2.indexed
  obtain ⟨hedited, hturns⟩ := hindexed.perform hperform
  have hsame : ∀ line, line ≠ changed → lineText buffer line = lineText edited line := by
    intro line hline
    refine hindexed.lineText_eq_of_turns_of_ne hedited hturns hbreak ?_
    rwa [TextBuffer.offset_of_perform hperform]
  have hmissed : (styler.noteEdit edited edit).1 = styler := by
    rw [noteEdit, htouches]
    rfl
  rw [hindexed.lineCount_eq_of_turns hedited hturns hbreak] at hhorizon
  rw [hmissed, ← haccurate.changed_iff hsame, ← CommentCache.answers_as_empty_iff hhorizon]
  simp only [map_startsInComment]
  exact Iff.rfl

/-- A quote goes in front of the opener of a comment, and the line after it was known. -/
theorem not_answers_as_fresh_behind_quote :
    let buffer := TextBuffer.ofText "é /* a\nint b"
    let styler := (Styler.ofLanguage ⟨"c", [], ["int"], false⟩).askedFor buffer 1
    let edited : TextBuffer := ⟨"\"é /* a\nint b", #[0, 9], none⟩
    let edit : Edit := ⟨.insertion, 0, "\""⟩
    buffer.perform (.insert 0 "\"") = .ok (edited, edit) ∧ edited.touchesMarker edit = false ∧
      ¬ ∀ line < lineCount edited,
        ((styler.noteEdit edited edit).1.startsInComment edited line).map Prod.fst =
          (styler.fresh.startsInComment edited line).map Prod.fst := by
  intro buffer styler edited edit
  have hperform : buffer.perform (.insert 0 "\"") = .ok (edited, edit) := by
    simp only [buffer, edited, edit]
    rfl
  have htouches : edited.touchesMarker edit = false := by decide +kernel
  have haccurate : styler.cache.AccurateTo .all buffer styler.shellComments :=
    (CommentCache.accurateTo_empty buffer false).extendTo 1
  have hhorizon : styler.cache.horizon < lineCount buffer := by decide +kernel
  have hiff := answers_as_fresh_iff_of_missed_edit none "é /* a\nint b" [] styler haccurate hhorizon
    hperform (by decide) htouches
  refine ⟨hperform, htouches, fun hanswers => ?_⟩
  have hneither : ¬ (styler.cache.horizon ≤ 0 ∨
      Line.endsInComment (lineText buffer 0) false false =
        Line.endsInComment (lineText edited 0) false false) := by decide +kernel
  exact hneither (hiff.mp hanswers)

end Styler

end Highlight
