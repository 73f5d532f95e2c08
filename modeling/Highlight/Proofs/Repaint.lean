import Highlight.Proofs.BufferHistory

/-!
# Repainting after an edit

When an edit touches a comment marker, the styler asks for a repaint of its text from some line on.
Whoever paints the lines may leave those above as they are: an edit leaves the lines before its own
alone (`Indexed.line?_eq_of_turns`), and comments reach only downwards, so that what comes before
the edit looks as it did (`seesAlike_of_turns`). The main theorem is `repaint_covers_changes`.
-/

namespace Highlight

open LineSource (lineText beginsInComment)

/-- The offset at which an edit is asked for. -/
def Request.offset : Request → Nat
  | insert offset _ => offset
  | remove offset _ => offset

namespace TextBuffer

variable {buffer edited : TextBuffer} {edit : Edit}

/-- An edit is reported at the offset at which it was asked for. -/
theorem offset_of_perform {request : Request} (h : buffer.perform request = .ok (edited, edit)) :
    edit.offset = request.offset := by
  have hchars := map_perform buffer request
  rw [h] at hchars
  cases request with
  | insert offset text =>
      simp only [Text.perform, Text.insert] at hchars
      split at hchars
      · exact congrArg Edit.offset (Prod.mk.inj (Except.ok.inj hchars)).2
      · cases hchars
  | remove offset count =>
      simp only [Text.perform, Text.remove] at hchars
      split at hchars
      · exact congrArg Edit.offset (Prod.mk.inj (Except.ok.inj hchars)).2
      · cases hchars

/-- An offset lies in a line that there is. -/
theorem Indexed.lineIndexOf_lt (h : buffer.Indexed) (offset : Nat) :
    buffer.lineIndexOf offset < lineCount buffer := by
  rw [h.lineIndexOf_eq, h.lineCount_eq, Text.length_lines]
  exact Nat.lt_succ_of_le ((List.take_sublist offset _).count_le '\n')

/-- An edit is in the same line before and after it was made. -/
theorem Indexed.lineIndexOf_eq_of_turns (hbuffer : buffer.Indexed) (hedited : edited.Indexed)
    (hturns : edit.Turns buffer.text.toList edited.text.toList) :
    buffer.lineIndexOf edit.offset = edited.lineIndexOf edit.offset := by
  obtain ⟨front, old, new, hfront, hold, hnew⟩ := hturns.exists_common_front
  rw [hbuffer.lineIndexOf_eq, hedited.lineIndexOf_eq, hold, hnew, ← hfront, List.take_left,
    List.take_left]

/-- The lines before that of an edit are the same before and after it was made. -/
theorem Indexed.line?_eq_of_turns (hbuffer : buffer.Indexed) (hedited : edited.Indexed)
    (hturns : edit.Turns buffer.text.toList edited.text.toList) {line : Nat}
    (hline : line < edited.lineIndexOf edit.offset) : buffer.line? line = edited.line? line := by
  obtain ⟨front, old, new, hfront, hold, hnew⟩ := hturns.exists_common_front
  rw [hedited.lineIndexOf_eq, hnew, ← hfront, List.take_left] at hline
  rw [hbuffer.line?_eq, hedited.line?_eq, hold, hnew, Text.getElem?_lines_append hline,
    Text.getElem?_lines_append hline]

end TextBuffer

namespace Styler

/-- A styler with the same settings that has seen nothing yet. -/
def fresh (styler : Styler) : Styler :=
  { styler with cache := .empty }

/-- A styler that has seen nothing answers what follows from the text. -/
theorem answers_fresh {α : Type} [LineSource α] (styler : Styler) {lines : α} {line : Nat}
    (hline : line < lineCount lines) :
    styler.fresh.Answers lines line (beginsInComment lines styler.shellComments line)
      (styler.keywords.split (Line.scan (lineText lines line)
        (beginsInComment lines styler.shellComments line) styler.shellComments).spans) := by
  have haccurate : styler.fresh.cache.AccurateTo .all lines styler.shellComments :=
    CommentCache.accurateTo_empty lines styler.shellComments
  exact answers_of_accurate haccurate hline trivial

/-- A line is there in both texts, with the same characters, and the styler answers the same for
it. -/
structure SeesAlike (styler : Styler) (before after : TextBuffer) (line : Nat) : Prop where
  lt_before : line < lineCount before
  lt_after : line < lineCount after
  line?_eq : before.line? line = after.line? line
  answers : ∃ starts spans, styler.Answers before line starts spans ∧
    styler.Answers after line starts spans

variable {buffer edited : TextBuffer} {edit : Edit}

/-- The lines before that of an edit look as they did before it was made. -/
theorem seesAlike_of_turns (styler : Styler) (hbuffer : buffer.Indexed) (hedited : edited.Indexed)
    (hturns : edit.Turns buffer.text.toList edited.text.toList) {line : Nat}
    (hline : line < edited.lineIndexOf edit.offset) :
    styler.fresh.SeesAlike buffer edited line := by
  have hsame : ∀ earlier < edited.lineIndexOf edit.offset,
      lineText buffer earlier = lineText edited earlier :=
    fun earlier => hbuffer.lineText_eq_of_turns hedited hturns
  have hbefore : line < lineCount buffer := by
    rw [← hbuffer.lineIndexOf_eq_of_turns hedited hturns] at hline
    exact Nat.lt_trans hline (hbuffer.lineIndexOf_lt edit.offset)
  have hafter : line < lineCount edited := Nat.lt_trans hline (hedited.lineIndexOf_lt edit.offset)
  refine ⟨hbefore, hafter, hbuffer.line?_eq_of_turns hedited hturns hline, _, _,
    styler.answers_fresh hbefore, ?_⟩
  rw [hsame line hline, LineSource.beginsInComment_congr hsame _ (Nat.le_of_lt hline)]
  exact styler.answers_fresh hafter

/-- A styler that is told of an edit asks for one repaint if the edit touches a comment marker, and
otherwise for none and stays as it is. The repaint is from its horizon on, which it has moved back
to the line of the edit, and all lines above look as they did before the edit. -/
theorem repaint_covers_changes (fileName? : Option String) (text : String)
    (commands : List Command) (styler : Styler) {request : Request} {edited : TextBuffer}
    {edit : Edit} :
    let start : TextBuffer := { TextBuffer.ofText text with fileName? := fileName? }
    let buffer := (Command.runAll TextBuffer.respond start commands).1
    buffer.perform request = .ok (edited, edit) →
      edit.offset = request.offset ∧
      (edited.touchesMarker edit = false → styler.noteEdit edited edit = (styler, none)) ∧
      (edited.touchesMarker edit = true → ∃ noted first,
        styler.noteEdit edited edit = (noted, some first) ∧
        first = noted.cache.horizon ∧
        first = min styler.cache.horizon (edited.lineIndexOf edit.offset) ∧
        ∀ line < first, styler.fresh.SeesAlike buffer edited line) := by
  intro start buffer hperform
  have hstart : start.Holds text.toList := ⟨TextBuffer.indexed_ofText text, rfl⟩
  have hindexed : buffer.Indexed := (hstart.runAll commands).2.indexed
  obtain ⟨hedited, hturns⟩ := hindexed.perform hperform
  refine ⟨TextBuffer.offset_of_perform hperform, fun htouches => ?_, fun htouches => ?_⟩
  · rw [noteEdit, htouches]
    rfl
  · rw [noteEdit, htouches]
    refine ⟨_, _, rfl, rfl, Nat.min_comm .., fun line hline => ?_⟩
    exact seesAlike_of_turns styler hindexed hedited hturns
      (Nat.lt_of_lt_of_le hline (Nat.min_le_left _ _))

/-- The opener of a comment is removed from the third line of a text that was edited before. -/
theorem repaint_covers_changes_of_opener :
    let buffer := (Command.runAll TextBuffer.respond (.ofText "x\n/* a\nb\nc")
      [.edit (.insert 1 "é\n")]).1
    let styler := (Styler.ofLanguage ⟨"c", [], ["int"], false⟩).askedFor buffer 4
    let edited : TextBuffer := ⟨"xé\n\n a\nb\nc", #[0, 4, 5, 8, 10], none⟩
    let edit : Edit := ⟨.removal, 4, "/*"⟩
    buffer.perform (.remove 4 2) = .ok (edited, edit) ∧ edited.touchesMarker edit = true ∧
      ∃ noted, styler.noteEdit edited edit = (noted, some 2) ∧ noted.cache.horizon = 2 ∧
        ∀ line < 2, styler.fresh.SeesAlike buffer edited line := by
  intro buffer styler edited edit
  have hperform : buffer.perform (.remove 4 2) = .ok (edited, edit) := by
    simp only [buffer, edited, edit]
    rfl
  have htouches : edited.touchesMarker edit = true := by decide +kernel
  have hline : min styler.cache.horizon (edited.lineIndexOf edit.offset) = 2 := by decide +kernel
  obtain ⟨-, -, hrepaint⟩ := repaint_covers_changes none _ _ styler hperform
  obtain ⟨noted, first, hnoted, hfirst, hmin, habove⟩ := hrepaint htouches
  rw [hline] at hmin
  subst hmin
  exact ⟨hperform, htouches, noted, hnoted, hfirst.symm, habove⟩

end Styler

end Highlight
