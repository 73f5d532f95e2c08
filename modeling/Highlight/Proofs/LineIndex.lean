import Highlight.TextBuffer

/-!
# The lines of a buffer

A buffer keeps the byte offsets at which its lines start and moves them with every edit.
`TextBuffer.Indexed` says that they are the offsets a new index of the text would hold. It is true
of a new buffer, and `Indexed.insert` and `Indexed.remove` show that edits keep it. An indexed
buffer has the lines that its line breaks cut the text into, so `lineCount_eq`, `line?_eq` and
`lineIndexOf_eq` speak about characters where the buffer works with bytes.
-/

namespace Highlight

namespace Text

/-- The lines of a text, which its line breaks divide. -/
def lines (chars : List Char) : List (List Char) :=
  chars.splitOn '\n'

/-- Every text is one line, or a line with a line break and a text after it. -/
theorem induction_on_lines {motive : List Char → Prop}
    (single : ∀ line, '\n' ∉ line → motive line)
    (more : ∀ line rest, '\n' ∉ line → motive rest → motive (line ++ '\n' :: rest))
    (chars : List Char) : motive chars := by
  by_cases hbreak : '\n' ∈ chars
  · obtain ⟨line, rest, rfl, hline⟩ := List.eq_append_cons_of_mem hbreak
    exact more line rest hline (induction_on_lines single more rest)
  · exact single chars hbreak
termination_by chars.length
decreasing_by
  simp_all only [List.length_append, List.length_cons]
  omega

/-- A text without breaks is one line. -/
theorem lines_of_not_mem {line : List Char} (h : '\n' ∉ line) : lines line = [line] :=
  List.splitOn_eq_singleton h

/-- The first line ends at the first break. -/
theorem lines_append_break {line : List Char} (h : '\n' ∉ line) (rest : List Char) :
    lines (line ++ '\n' :: rest) = line :: lines rest :=
  List.splitOn_append_cons_self_of_not_mem h rest

/-- Every text has a line. -/
theorem lines_ne_nil (chars : List Char) : lines chars ≠ [] :=
  List.splitOn_ne_nil '\n' chars

/-- There is one line more than there are line breaks. -/
theorem length_lines (chars : List Char) : (lines chars).length = chars.count '\n' + 1 := by
  induction chars using induction_on_lines with
  | single line hline => rw [lines_of_not_mem hline, List.count_eq_zero.mpr hline]; rfl
  | more line rest hline ih =>
      rw [lines_append_break hline, List.length_cons, ih, List.count_append,
        List.count_eq_zero.mpr hline, List.count_cons_self]
      omega

/-- The last line of a text is apart from those that a line break ends. -/
theorem exists_lines_eq_append (chars : List Char) :
    ∃ init last, lines chars = init ++ [last] ∧ init.length = chars.count '\n' := by
  refine ⟨(lines chars).dropLast, (lines chars).getLast (lines_ne_nil chars), ?_, ?_⟩
  · exact (List.dropLast_concat_getLast (lines_ne_nil chars)).symm
  · rw [List.length_dropLast, length_lines, Nat.add_sub_cancel]

/-- A text without line breaks goes in front of the first line. -/
theorem lines_append_of_not_mem {line right first : List Char} {tail : List (List Char)}
    (hline : '\n' ∉ line) (hright : lines right = first :: tail) :
    lines (line ++ right) = (line ++ first) :: tail := by
  induction right using induction_on_lines with
  | single right hsingle =>
      rw [lines_of_not_mem hsingle] at hright
      obtain ⟨rfl, rfl⟩ := List.cons.inj hright
      exact lines_of_not_mem (by simp [hline, hsingle])
  | more right rest hmore _ =>
      rw [lines_append_break hmore] at hright
      obtain ⟨rfl, rfl⟩ := List.cons.inj hright
      rw [← List.append_assoc]
      exact lines_append_break (by simp [hline, hmore]) rest

/-- Where two texts meet, the last line of one and the first line of the other are joined. -/
theorem lines_append {left right last first : List Char} {init tail : List (List Char)}
    (hleft : lines left = init ++ [last]) (hright : lines right = first :: tail) :
    lines (left ++ right) = init ++ (last ++ first) :: tail := by
  induction left using induction_on_lines generalizing init with
  | single line hline =>
      rw [lines_of_not_mem hline] at hleft
      cases init with
      | nil =>
          obtain rfl := List.singleton_inj.mp hleft
          exact lines_append_of_not_mem hline hright
      | cons other init => simp at hleft
  | more line rest hline ih =>
      rw [lines_append_break hline] at hleft
      cases init with
      | nil => exact absurd (List.cons.inj hleft).2 (lines_ne_nil rest)
      | cons other init =>
          obtain ⟨rfl, hrest⟩ := List.cons.inj hleft
          rw [List.append_assoc, List.cons_append, lines_append_break hline, ih hrest]
          rfl

/-- The lines that a text's line breaks end do not depend on what is put behind the text. -/
theorem getElem?_lines_append {left : List Char} {index : Nat} (h : index < left.count '\n')
    (right : List Char) : (lines (left ++ right))[index]? = (lines left)[index]? := by
  obtain ⟨init, last, hleft, hlength⟩ := exists_lines_eq_append left
  obtain ⟨first, tail, hright⟩ := List.exists_cons_of_ne_nil (lines_ne_nil right)
  rw [lines_append hleft hright, hleft, List.getElem?_append_left (hlength ▸ h),
    List.getElem?_append_left (hlength ▸ h)]

/-- A line has no line break in it. -/
theorem not_mem_of_mem_lines {chars line : List Char} (h : line ∈ lines chars) : '\n' ∉ line := by
  induction chars using induction_on_lines with
  | single only honly =>
      rw [lines_of_not_mem honly] at h
      exact List.mem_singleton.mp h ▸ honly
  | more first rest hfirst ih =>
      rw [lines_append_break hfirst] at h
      rcases List.mem_cons.mp h with rfl | hrest
      · exact hfirst
      · exact ih hrest

/-- A text ends with its last line. -/
theorem suffix_of_lines_eq_append {chars last : List Char} {init : List (List Char)}
    (h : lines chars = init ++ [last]) : last <:+ chars := by
  induction chars using induction_on_lines generalizing init with
  | single only honly =>
      rw [lines_of_not_mem honly] at h
      cases init with
      | nil => exact List.singleton_inj.mp h ▸ List.suffix_rfl
      | cons other init => simp at h
  | more first rest hfirst ih =>
      rw [lines_append_break hfirst] at h
      cases init with
      | nil => exact absurd (List.cons.inj h).2 (lines_ne_nil rest)
      | cons other init =>
          have hrest := ih (List.cons.inj h).2
          exact (hrest.trans (List.suffix_cons '\n' rest)).trans (List.suffix_append first _)

/-- A text begins with its first line. -/
theorem prefix_of_lines_eq_cons {chars first : List Char} {tail : List (List Char)}
    (h : lines chars = first :: tail) : first <+: chars := by
  by_cases hbreak : '\n' ∈ chars
  · obtain ⟨line, rest, rfl, hline⟩ := List.eq_append_cons_of_mem hbreak
    rw [lines_append_break hline] at h
    exact (List.cons.inj h).1 ▸ List.prefix_append line _
  · rw [lines_of_not_mem hbreak] at h
    exact (List.cons.inj h).1 ▸ List.prefix_rfl

/-- A text without line breaks that is put into another one goes into one of its lines, which is
counted by the line breaks before it. -/
theorem exists_lines_insert (front : List Char) {inserted : List Char} (hbreak : '\n' ∉ inserted)
    (back : List Char) :
    ∃ init left right tail, init.length = front.count '\n' ∧ left <:+ front ∧ right <+: back ∧
      lines (front ++ back) = init ++ (left ++ right) :: tail ∧
      lines (front ++ inserted ++ back) = init ++ (left ++ inserted ++ right) :: tail := by
  obtain ⟨init, left, hfront, hlength⟩ := exists_lines_eq_append front
  obtain ⟨right, tail, hback⟩ := List.exists_cons_of_ne_nil (lines_ne_nil back)
  refine ⟨init, left, right, tail, hlength, suffix_of_lines_eq_append hfront,
    prefix_of_lines_eq_cons hback, lines_append hfront hback, ?_⟩
  rw [List.append_assoc, lines_append hfront (lines_append_of_not_mem hbreak hback),
    List.append_assoc]

/-- Lines that differ in one place are the same in all others. -/
theorem getElem?_append_cons_of_ne {init tail : List (List Char)} {index : Nat}
    (h : index ≠ init.length) (line other : List Char) :
    (init ++ line :: tail)[index]? = (init ++ other :: tail)[index]? := by
  rcases Nat.lt_or_gt_of_ne h with hlt | hgt
  · rw [List.getElem?_append_left hlt, List.getElem?_append_left hlt]
  · have hpositive : index - init.length ≠ 0 := by omega
    rw [List.getElem?_append_right (Nat.le_of_lt hgt),
      List.getElem?_append_right (Nat.le_of_lt hgt), List.getElem?_cons, List.getElem?_cons,
      if_neg hpositive, if_neg hpositive]

/-- What stands before a line: the lines before it with their line breaks. -/
def beforeLine (chars : List Char) (index : Nat) : List Char :=
  ((lines chars).take index).flatMap (· ++ ['\n'])

/-- Nothing stands before the first line. -/
theorem beforeLine_zero (chars : List Char) : beforeLine chars 0 = [] := rfl

/-- Before the next line stands one line more, with its break. -/
theorem beforeLine_succ {chars line : List Char} {index : Nat}
    (h : (lines chars)[index]? = some line) :
    beforeLine chars (index + 1) = beforeLine chars index ++ line ++ ['\n'] := by
  rw [beforeLine, List.take_add_one, h, List.flatMap_append, ← beforeLine]
  simp

/-- Before a later line stand the first one, its break, and what is before the line in the rest. -/
theorem beforeLine_append_break {line : List Char} (h : '\n' ∉ line) (rest : List Char)
    (index : Nat) : beforeLine (line ++ '\n' :: rest) (index + 1) =
      line ++ '\n' :: beforeLine rest index := by
  rw [beforeLine, lines_append_break h, List.take_succ_cons, List.flatMap_cons, List.append_assoc]
  rfl

end Text

/-- The edit takes a text to another one. Only what it inserts or removes tells them apart, and its
offset is where they begin to differ. -/
def Edit.Turns (edit : Edit) (old new : List Char) : Prop :=
  ∃ front back, front.length = edit.offset ∧
    match edit.kind with
    | .insertion => old = front ++ back ∧ new = front ++ edit.text.toList ++ back
    | .removal => old = front ++ edit.text.toList ++ back ∧ new = front ++ back

/-- Before its offset an edit changes nothing. -/
theorem Edit.Turns.exists_common_front {edit : Edit} {old new : List Char}
    (h : edit.Turns old new) :
    ∃ front oldBack newBack, front.length = edit.offset ∧ old = front ++ oldBack ∧
      new = front ++ newBack := by
  obtain ⟨front, back, hfront, hturns⟩ := h
  cases hkind : edit.kind with
  | insertion =>
      rw [hkind] at hturns
      exact ⟨front, back, edit.text.toList ++ back, hfront, hturns.1,
        hturns.2.trans (List.append_assoc ..)⟩
  | removal =>
      rw [hkind] at hturns
      exact ⟨front, edit.text.toList ++ back, back, hfront,
        hturns.1.trans (List.append_assoc ..), hturns.2⟩

namespace TextBuffer

/-! ## Line starts -/

/-- The starts of lines in two texts, the second where the first ends. -/
theorem startsAfterBreaks_append (position : Nat) (left right : List Char) :
    startsAfterBreaks position (left ++ right) =
      startsAfterBreaks position left ++
        startsAfterBreaks (position + Text.byteSize left) right := by
  induction left generalizing position with
  | nil => rfl
  | cons c left ih =>
      simp only [List.cons_append, startsAfterBreaks, ih, Text.byteSize_cons, Nat.add_assoc]
      split <;> rfl

/-- Without breaks no line starts behind one. -/
theorem startsAfterBreaks_of_not_mem {chars : List Char} (h : '\n' ∉ chars) (position : Nat) :
    startsAfterBreaks position chars = [] := by
  induction chars generalizing position with
  | nil => rfl
  | cons c rest ih =>
      obtain ⟨hc, hrest⟩ := List.ne_and_not_mem_of_not_mem_cons h
      rw [startsAfterBreaks, if_neg (Ne.symm hc), ih hrest]

/-- Each line break starts a line. -/
theorem length_startsAfterBreaks (position : Nat) (chars : List Char) :
    (startsAfterBreaks position chars).length = chars.count '\n' := by
  induction chars generalizing position with
  | nil => rfl
  | cons c rest ih =>
      rw [startsAfterBreaks, List.count_cons]
      split
      · rename_i hc
        rw [List.length_cons, ih, if_pos (by simpa using hc)]
      · rename_i hc
        rw [ih, if_neg (by simpa using hc), Nat.add_zero]

/-- A line break is behind the position at which its text begins, and the line after it starts
within the text. -/
theorem bounds_of_mem_startsAfterBreaks {position start : Nat} {chars : List Char}
    (h : start ∈ startsAfterBreaks position chars) :
    position < start ∧ start ≤ position + Text.byteSize chars := by
  induction chars generalizing position with
  | nil => simp [startsAfterBreaks] at h
  | cons c rest ih =>
      have hsize := c.utf8Size_pos
      rw [startsAfterBreaks] at h
      rw [Text.byteSize_cons]
      split at h
      · rcases List.mem_cons.mp h with rfl | h
        · omega
        · have := ih h
          omega
      · have := ih h
        omega

/-- Moving a text moves the starts of its lines. -/
theorem map_add_startsAfterBreaks (position amount : Nat) (chars : List Char) :
    (startsAfterBreaks position chars).map (· + amount) =
      startsAfterBreaks (position + amount) chars := by
  induction chars generalizing position with
  | nil => rfl
  | cons c rest ih =>
      simp only [startsAfterBreaks, Nat.add_right_comm position amount, ← ih]
      split <;> rfl

/-- Cut at the end of the first part of a text, its line starts are the index of that part and the
starts of the lines that break off in the second part. -/
theorem span_indexLines (left right : List Char) :
    (indexLines (left ++ right)).takeWhile (· ≤ Text.byteSize left) = indexLines left ∧
      (indexLines (left ++ right)).dropWhile (· ≤ Text.byteSize left) =
        startsAfterBreaks (Text.byteSize left) right := by
  have happend : indexLines (left ++ right) =
      indexLines left ++ startsAfterBreaks (Text.byteSize left) right := by
    rw [indexLines, startsAfterBreaks_append, Nat.zero_add, indexLines, List.cons_append]
  have hleft : ∀ start ∈ indexLines left, decide (start ≤ Text.byteSize left) = true := by
    intro start hstart
    rcases List.mem_cons.mp hstart with rfl | hstart
    · exact decide_eq_true (Nat.zero_le _)
    · have := bounds_of_mem_startsAfterBreaks hstart
      exact decide_eq_true (by omega)
  rw [happend, List.takeWhile_append_of_pos hleft, List.dropWhile_append_of_pos hleft]
  cases hright : startsAfterBreaks (Text.byteSize left) right with
  | nil => simp
  | cons start starts =>
      have hbounds := bounds_of_mem_startsAfterBreaks (hright ▸ List.mem_cons_self)
      have hstart : ¬ decide (start ≤ Text.byteSize left) = true := by simpa using hbounds.1
      simp [hstart]

/-- Inserting a text into another one gives the index of the outcome. -/
theorem startsAfterInsert_indexLines (left inserted right : List Char) :
    startsAfterInsert (indexLines (left ++ right)) (Text.byteSize left) inserted =
      indexLines (left ++ inserted ++ right) := by
  obtain ⟨htake, hdrop⟩ := span_indexLines left right
  rw [startsAfterInsert, htake, hdrop, map_add_startsAfterBreaks, indexLines, indexLines,
    startsAfterBreaks_append, startsAfterBreaks_append, Text.byteSize_append, Nat.zero_add,
    Nat.zero_add]
  rfl

/-- Removing a text from another one gives the index of the outcome. -/
theorem startsAfterRemove_indexLines (left removed right : List Char) :
    startsAfterRemove (indexLines (left ++ removed ++ right)) (Text.byteSize left)
        (Text.byteSize (left ++ removed)) = indexLines (left ++ right) := by
  obtain ⟨-, hdrop⟩ := span_indexLines (left ++ removed) right
  have htake := (span_indexLines left (removed ++ right)).1
  rw [← List.append_assoc] at htake
  have hback : (startsAfterBreaks (Text.byteSize (left ++ removed)) right).map
      (· - Text.byteSize removed) = startsAfterBreaks (Text.byteSize left) right := by
    rw [Text.byteSize_append, ← map_add_startsAfterBreaks, List.map_map]
    exact List.map_id'' (fun start => Nat.add_sub_cancel start _) _
  rw [startsAfterRemove, htake, hdrop, Text.byteSize_append, Nat.add_sub_cancel_left,
    ← Text.byteSize_append, hback, indexLines, indexLines, startsAfterBreaks_append, Nat.zero_add]
  rfl

/-! ## Indexed buffers -/

/-- The line starts of a buffer are those that a new index of its text would hold. -/
def Indexed (buffer : TextBuffer) : Prop :=
  buffer.lineStarts.toList = indexLines buffer.text.toList

/-- A new buffer is indexed. -/
theorem indexed_ofText (text : String) : (ofText text).Indexed :=
  rfl

/-- A buffer is indexed after its text was replaced. -/
theorem indexed_replaceAll (buffer : TextBuffer) (text : String) :
    (buffer.replaceAll text).Indexed :=
  rfl

variable {buffer edited : TextBuffer} {edit : Edit}

/-- A buffer into which text was inserted is indexed again, and the edit that is reported says what
was done. -/
theorem Indexed.insert (hindexed : buffer.Indexed) {offset : Nat} {inserted : String}
    (h : buffer.insert offset inserted = .ok (edited, edit)) :
    edited.Indexed ∧ edit.Turns buffer.text.toList edited.text.toList := by
  rw [insert_eq] at h
  split at h
  · rename_i hle
    obtain ⟨rfl, rfl⟩ := Prod.mk.inj (Except.ok.inj h)
    obtain ⟨front, back, hchars, hlength⟩ : ∃ front back,
        buffer.text.toList = front ++ back ∧ front.length = offset :=
      ⟨_, _, (List.take_append_drop offset _).symm, List.length_take_of_le hle⟩
    subst hlength
    simp only [withInserted, Indexed, Edit.Turns, Text.byteOffset,
      String.toList_ofList] at hindexed ⊢
    rw [hindexed, hchars, List.take_left, List.drop_left]
    exact ⟨startsAfterInsert_indexLines front inserted.toList back, front, back, rfl, rfl, rfl⟩
  · cases h

/-- A text of which `count` characters from `offset` on are set apart. -/
theorem exists_parts {chars : List Char} {offset count : Nat} (h : offset + count ≤ chars.length) :
    ∃ front middle back, chars = front ++ middle ++ back ∧ front.length = offset ∧
      middle.length = count := by
  refine ⟨chars.take offset, (chars.drop offset).take count, chars.drop (offset + count),
    ?_, ?_, ?_⟩
  · rw [← List.drop_drop, List.append_assoc, List.take_append_drop, List.take_append_drop]
  · exact List.length_take_of_le (by omega)
  · exact List.length_take_of_le (by rw [List.length_drop]; omega)

/-- A buffer from which text was removed is indexed again, and the edit that is reported says what
was done. -/
theorem Indexed.remove (hindexed : buffer.Indexed) {offset count : Nat}
    (h : buffer.remove offset count = .ok (edited, edit)) :
    edited.Indexed ∧ edit.Turns buffer.text.toList edited.text.toList := by
  rw [remove_eq] at h
  split at h
  · split at h
    · rename_i hle
      obtain ⟨rfl, rfl⟩ := Prod.mk.inj (Except.ok.inj h)
      obtain ⟨front, middle, back, hchars, rfl, rfl⟩ := exists_parts hle
      have hfront : (front ++ middle ++ back).take front.length = front := by
        rw [List.append_assoc, List.take_left]
      have hmiddle : ((front ++ middle ++ back).drop front.length).take middle.length = middle := by
        rw [List.append_assoc, List.drop_left, List.take_left]
      simp only [withRemoved, Indexed, Edit.Turns, Text.byteOffset,
        String.toList_ofList] at hindexed ⊢
      rw [hindexed, hchars, hfront, hmiddle, ← List.length_append, List.take_left, List.drop_left]
      exact ⟨startsAfterRemove_indexLines front middle back, front, back, rfl, rfl, rfl⟩
    · cases h
  · cases h

/-! ## The lines of an indexed buffer -/

/-- The lines of an indexed buffer are counted by its line breaks. -/
theorem Indexed.lineCount_eq (h : buffer.Indexed) :
    lineCount buffer = (Text.lines buffer.text.toList).length := by
  rw [Text.length_lines, ← length_startsAfterBreaks 0]
  show buffer.lineStarts.toList.length = (indexLines buffer.text.toList).length
  exact congrArg List.length h

/-- The line that holds an offset is counted by the line breaks before the offset. -/
theorem Indexed.lineIndexOf_eq (h : buffer.Indexed) (offset : Nat) :
    buffer.lineIndexOf offset = (buffer.text.toList.take offset).count '\n' := by
  have htake := (span_indexLines (buffer.text.toList.take offset)
    (buffer.text.toList.drop offset)).1
  rw [List.take_append_drop] at htake
  rw [lineIndexOf, h, Text.byteOffset, htake, indexLines, List.length_cons, Nat.add_sub_cancel,
    length_startsAfterBreaks]

/-- Where a line starts and where the next one does, when the text begins at byte `position`. -/
theorem exists_line_parts {chars line : List Char} {index : Nat} (position : Nat)
    (h : (Text.lines chars)[index]? = some line) :
    ∃ before after, chars = before ++ line ++ after ∧
      (position :: startsAfterBreaks position chars)[index]? =
        some (position + Text.byteSize before) ∧
      (match (position :: startsAfterBreaks position chars)[index + 1]? with
        | some next => next - 1
        | none => position + Text.byteSize chars) =
          position + Text.byteSize before + Text.byteSize line := by
  induction chars using Text.induction_on_lines generalizing position index with
  | single only honly =>
      rw [Text.lines_of_not_mem honly] at h
      rw [startsAfterBreaks_of_not_mem honly]
      cases index with
      | zero =>
          obtain rfl := Option.some.inj h
          exact ⟨[], [], by simp, rfl, by simp⟩
      | succ index => simp at h
  | more first rest hfirst ih =>
      rw [Text.lines_append_break hfirst] at h
      have hstarts : startsAfterBreaks position (first ++ '\n' :: rest) =
          (position + Text.byteSize first + 1) ::
            startsAfterBreaks (position + Text.byteSize first + 1) rest := by
        rw [startsAfterBreaks_append, startsAfterBreaks_of_not_mem hfirst]
        rfl
      rw [hstarts]
      cases index with
      | zero =>
          obtain rfl := Option.some.inj h
          exact ⟨[], '\n' :: rest, by simp, rfl, by simp⟩
      | succ index =>
          obtain ⟨before, after, hrest, hstart, hstop⟩ :=
            ih (position + Text.byteSize first + 1) h
          refine ⟨first ++ '\n' :: before, after, by simp [hrest], ?_, ?_⟩
          · rw [List.getElem?_cons_succ, hstart, Text.byteSize_append, Text.byteSize_cons,
              show '\n'.utf8Size = 1 from rfl]
            congr 1
            omega
          · simp only [List.getElem?_cons_succ, Text.byteSize_append, Text.byteSize_cons,
              show '\n'.utf8Size = 1 from rfl] at hstop ⊢
            rw [← Nat.add_assoc, ← Nat.add_assoc, hstop]
            omega

/-- The lines of an indexed buffer are those of its text. -/
theorem Indexed.line?_eq (h : buffer.Indexed) (index : Nat) :
    buffer.line? index = ((Text.lines buffer.text.toList)[index]?).map String.ofList := by
  have hstarts (i : Nat) : buffer.lineStarts[i]? = (indexLines buffer.text.toList)[i]? := by
    rw [← Array.getElem?_toList, h]
  cases hline : (Text.lines buffer.text.toList)[index]? with
  | none =>
      have hout : (indexLines buffer.text.toList)[index]? = none := by
        rw [List.getElem?_eq_none_iff] at hline ⊢
        rw [indexLines, List.length_cons, length_startsAfterBreaks, ← Text.length_lines]
        exact hline
      rw [line?, hstarts, hout]
      rfl
  | some line =>
      obtain ⟨before, after, hchars, hstart, hstop⟩ := exists_line_parts 0 hline
      rw [Nat.zero_add] at hstart
      rw [line?, hstarts, hstarts, indexLines, hstart]
      have htext : buffer.text =
          String.ofList before ++ String.ofList line ++ String.ofList after :=
        String.toList_inj.mp (by simp [hchars])
      have hsize (chars : List Char) :
          (String.ofList chars).utf8ByteSize = Text.byteSize chars := by
        rw [← Text.byteSize_toList, String.toList_ofList]
      rw [Nat.zero_add, Nat.zero_add, Text.byteSize_toList] at hstop
      rw [← hsize before, ← hsize line] at hstop
      refine Text.slice?_eq_some_iff.mpr ⟨_, _, htext, hsize before, ?_⟩
      rw [← hsize before]
      exact hstop.symm

/-- The text of a line of an indexed buffer. Lines that the text does not have are empty. -/
theorem Indexed.lineText_eq (h : buffer.Indexed) (index : Nat) :
    LineSource.lineText buffer index =
      String.ofList ((Text.lines buffer.text.toList)[index]?.getD []) := by
  have hline : LineSource.line? buffer index = _ := h.line?_eq index
  rw [LineSource.lineText, hline]
  cases (Text.lines buffer.text.toList)[index]? <;> rfl

/-- An edit leaves the lines before its own as they were. -/
theorem Indexed.lineText_eq_of_turns (hbuffer : buffer.Indexed) (hedited : edited.Indexed)
    (hturns : edit.Turns buffer.text.toList edited.text.toList) {index : Nat}
    (hindex : index < edited.lineIndexOf edit.offset) :
    LineSource.lineText buffer index = LineSource.lineText edited index := by
  obtain ⟨front, old, new, hfront, hold, hnew⟩ := hturns.exists_common_front
  rw [hedited.lineIndexOf_eq, hnew, ← hfront, List.take_left] at hindex
  rw [hbuffer.lineText_eq, hedited.lineText_eq, hold, hnew, Text.getElem?_lines_append hindex,
    Text.getElem?_lines_append hindex]

end TextBuffer

end Highlight
