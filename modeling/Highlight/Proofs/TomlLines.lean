import Highlight.Proofs.TomlValues

/-!
# How TOML documents are written

The relations for keys and values go on here to statements, lines and whole documents, with blanks
and comments wherever they may stand and line breaks of either kind. `WritesLines.readLines_eq` says
that the statements are read from the lines however they are written, and `WritesDocument.parse?_eq`
that a document comes to what its statements come to. Statements that can be written make up
documents (`exists_writesDocument`).
-/

namespace Highlight.Toml

variable {key : String} {datum : Datum}
  {text chars front rest blanks moreBlanks : List Char}

/-! ## Written lines -/

/-- The ways to write a key with its value, and the header of one more table under a key. -/
inductive WritesStatement : Statement → List Char → Prop
  | assign {key : String} {datum : Datum} {keyChars blanks moreBlanks valueChars : List Char}
      (hkey : WritesKey key keyChars) (hblanks : ∀ c ∈ blanks, isBlank c = true)
      (hmore : ∀ c ∈ moreBlanks, isBlank c = true) (hvalue : WritesDatum datum valueChars) :
      WritesStatement (.assign ⟨[], key⟩ datum.toValue)
        (keyChars ++ (blanks ++ '=' :: (moreBlanks ++ valueChars)))
  | element {key : String} {keyChars blanks moreBlanks : List Char}
      (hkey : WritesKey key keyChars) (hblanks : ∀ c ∈ blanks, isBlank c = true)
      (hmore : ∀ c ∈ moreBlanks, isBlank c = true) :
      WritesStatement (.element ⟨[], key⟩)
        ('[' :: '[' :: (blanks ++ (keyChars ++ (moreBlanks ++ [']', ']']))))

/-- What may stand at the end of a line: blanks and a comment. -/
inductive LineTail : List Char → Prop
  | blanks {blanks : List Char} (hblanks : ∀ c ∈ blanks, isBlank c = true) : LineTail blanks
  | comment {blanks text : List Char} (hblanks : ∀ c ∈ blanks, isBlank c = true)
      (htext : ∀ c ∈ text, isTextChar c = true) : LineTail (blanks ++ '#' :: text)

/-- The ways to write a line, which has at most one statement, without the line break behind it. -/
inductive WritesLine : List Statement → List Char → Prop
  | empty {tail : List Char} (htail : LineTail tail) : WritesLine [] tail
  | statement {statement : Statement} {blanks chars tail : List Char}
      (hblanks : ∀ c ∈ blanks, isBlank c = true) (hstatement : WritesStatement statement chars)
      (htail : LineTail tail) : WritesLine [statement] (blanks ++ (chars ++ tail))

/-- The ways to write statements on lines. The last line may be empty, or its line break is
missing. -/
inductive WritesLines : List Statement → List Char → Prop
  | last {statements : List Statement} {chars : List Char} (hline : WritesLine statements chars) :
      WritesLines statements chars
  | cons {statements later : List Statement} {front back : List Char}
      (hline : WritesLine statements front) (hrest : WritesLines later back) :
      WritesLines (statements ++ later) (front ++ '\n' :: back)

/-- The text is the characters with carriage returns before some of the line breaks. -/
inductive BreaksAs : List Char → List Char → Prop
  | nil : BreaksAs [] []
  | same {c : Char} {chars text : List Char} (hreturn : c ≠ '\r') (hrest : BreaksAs chars text) :
      BreaksAs (c :: chars) (c :: text)
  | pair {chars text : List Char} (hrest : BreaksAs chars text) :
      BreaksAs ('\n' :: chars) ('\r' :: '\n' :: text)

/-- The ways to write a document whose lines have the statements. -/
def WritesDocument (statements : List Statement) (document : String) : Prop :=
  ∃ chars, WritesLines statements chars ∧ BreaksAs chars document.toList

variable {statement : Statement} {statements : List Statement} {tail : List Char}

/-- A statement does not begin as something does that stands between statements. -/
theorem WritesStatement.exists_cons (h : WritesStatement statement chars) :
    ∃ first later, chars = first :: later ∧ (isKeyStart first = true ∨ first = '[') := by
  cases h with
  | assign hkey =>
      obtain ⟨first, later, rfl, hfirst⟩ := hkey.exists_cons
      exact ⟨first, _, rfl, .inl hfirst⟩
  | element => exact ⟨_, _, rfl, .inr rfl⟩

/-- A key with its value is read, whatever follows. -/
theorem readKeyValue_append {valueChars : List Char} (hkey : WritesKey key chars)
    (hblanks : ∀ c ∈ blanks, isBlank c = true) (hmore : ∀ c ∈ moreBlanks, isBlank c = true)
    (hvalue : WritesDatum datum valueChars) (hrest : rest.head? ≠ some '"') (depth : Nat) :
    readKeyValue (readValue (depth + 1))
        (chars ++ (blanks ++ '=' :: (moreBlanks ++ (valueChars ++ rest)))) =
      some (⟨[], key⟩, datum.toValue, rest) := by
  have hkeyRead : readKey (chars ++ (blanks ++ '=' :: (moreBlanks ++ (valueChars ++ rest)))) =
      some (⟨[], key⟩, '=' :: (moreBlanks ++ (valueChars ++ rest))) :=
    readKey_append hkey (List.forall_mem_nil _) hblanks (.inl rfl) _
  have hskip : skipBlanks (moreBlanks ++ (valueChars ++ rest)) = valueChars ++ rest := by
    obtain ⟨first, later, rfl, hfirst⟩ := hvalue.exists_cons
    rw [skipBlanks_append hmore, List.cons_append, skipBlanks_cons hfirst]
  rw [readKeyValue, hkeyRead]
  show Option.bind (readValue (depth + 1)
    (skipBlanks (moreBlanks ++ (valueChars ++ rest)))) _ = _
  rw [hskip, readValue_append hvalue hrest depth]
  rfl

/-- A statement is read up to its end. -/
theorem readStatement_append (h : WritesStatement statement chars)
    (hrest : rest.head? ≠ some '"') : readStatement (chars ++ rest) = some (statement, rest) := by
  cases h with
  | assign hkey hblanks hmore hvalue =>
      have hread := readKeyValue_append hkey hblanks hmore hvalue hrest 78
      have hdepth : maxDepth = 78 + 1 := rfl
      obtain ⟨first, later, rfl, hfirst⟩ := hkey.exists_cons
      have hbracket : first ≠ '[' := by rintro rfl; cases hfirst
      simp only [List.append_assoc, List.cons_append] at hread ⊢
      simp [readStatement, hbracket, hdepth, hread]
  | @element key keyChars blanks moreBlanks hkey hblanks hmore =>
      have hread := readKey_append hkey hblanks hmore (.inr rfl) (']' :: rest)
      simp only [List.append_assoc, List.cons_append, List.nil_append]
      rw [readStatement, hread]
      rfl

/-- The end of a line is left with the line break behind it. -/
theorem endLine?_append (h : LineTail tail) (hrest : ∀ c ∈ rest.head?, c = '\n') :
    endLine? (tail ++ rest) = some rest.tail := by
  have hbreak : rest = [] ∨ ∃ later, rest = '\n' :: later := by
    cases rest with
    | nil => exact .inl rfl
    | cons c later => exact .inr ⟨later, by rw [hrest c rfl]⟩
  cases h with
  | blanks hblanks =>
      rw [endLine?, skipBlanks_append hblanks]
      rcases hbreak with rfl | ⟨later, rfl⟩ <;> rfl
  | @comment blanks text hblanks htext =>
      have hcomment : (text ++ rest).dropWhile isTextChar = rest := by
        rw [List.dropWhile_append_of_pos htext]
        rcases hbreak with rfl | ⟨later, rfl⟩ <;> rfl
      have hmark : skipBlanks ('#' :: (text ++ rest)) = '#' :: (text ++ rest) :=
        skipBlanks_cons rfl _
      simp only [endLine?, List.append_assoc, List.cons_append, skipBlanks_append hblanks, hmark,
        hcomment]
      rcases hbreak with rfl | ⟨later, rfl⟩ <;> rfl

/-- Blanks do not bring another character to the front. -/
theorem head?_blanks_append_ne {other : Char} (hblanks : ∀ c ∈ blanks, isBlank c = true)
    (hother : isBlank other = false) (hrest : rest.head? ≠ some other) :
    (blanks ++ rest).head? ≠ some other := by
  cases blanks with
  | nil => exact hrest
  | cons blank later =>
      intro heq
      cases Option.some.inj heq
      cases (hblanks _ (.head _)).symm.trans hother

/-- The end of a line begins with nothing but a blank or the mark of a comment. -/
theorem LineTail.head?_append_ne {other : Char} (h : LineTail tail) (hblank : isBlank other = false)
    (hcomment : other ≠ '#') (hrest : rest.head? ≠ some other) :
    (tail ++ rest).head? ≠ some other := by
  cases h with
  | blanks hblanks => exact head?_blanks_append_ne hblanks hblank hrest
  | comment hblanks =>
      rw [List.append_assoc]
      exact head?_blanks_append_ne hblanks hblank fun heq => hcomment (Option.some.inj heq).symm

/-- A line is read and the lines behind it are left. -/
theorem readLines_line {later : List Statement} {count : Nat} (hline : WritesLine statements front)
    (hrest : ∀ c ∈ rest.head?, c = '\n') (hlater : readLines count rest.tail = some later) :
    readLines (count + 1) (front ++ rest) = some (statements ++ later) := by
  cases hline with
  | empty htail =>
      cases htail with
      | blanks hblanks =>
          rw [readLines, skipBlanks_append hblanks]
          cases rest with
          | nil =>
              -- Nothing is left, and no more lines are asked for.
              obtain ⟨less, rfl⟩ : ∃ less, count = less + 1 := by
                cases count with
                | zero => cases hlater
                | succ less => exact ⟨less, rfl⟩
              exact hlater
          | cons c rest =>
              obtain rfl := hrest c rfl
              exact hlater
      | @comment blanks text hblanks htext =>
          have hend : endLine? ('#' :: (text ++ rest)) = some rest.tail :=
            endLine?_append (.comment (List.forall_mem_nil _) htext) hrest
          rw [List.append_assoc, readLines, skipBlanks_append hblanks]
          show Option.bind (endLine? ('#' :: (text ++ rest))) _ = _
          rw [hend]
          exact hlater
  | @statement statement blanks chars tail hblanks hstatement htail =>
      have hquote : rest.head? ≠ some '"' := fun heq => by cases hrest _ heq
      have hread := readStatement_append hstatement
        (htail.head?_append_ne rfl (by decide) hquote)
      have hend := endLine?_append htail hrest
      obtain ⟨first, others, rfl, hfirst⟩ := hstatement.exists_cons
      have hblank : isBlank first = false := by
        rcases hfirst with hfirst | rfl
        · exact isBlank_of_isKeyStart hfirst
        · rfl
      have hbreak : first ≠ '\n' := by
        rintro rfl
        rcases hfirst with hfirst | hfirst <;> cases hfirst
      have hcomment : first ≠ '#' := by
        rintro rfl
        rcases hfirst with hfirst | hfirst <;> cases hfirst
      simp only [List.append_assoc, List.cons_append] at hread ⊢
      simp [readLines, skipBlanks_append hblanks, skipBlanks_cons hblank, hbreak, hcomment, hread,
        hend, hlater]

/-- A line without characters has no statement. -/
theorem WritesLine.eq_nil (h : WritesLine statements chars) (hchars : chars = []) :
    statements = [] := by
  cases h with
  | empty => rfl
  | statement _ hstatement =>
      obtain ⟨first, later, rfl, -⟩ := hstatement.exists_cons
      simp at hchars

/-- The statements on lines are read. One line more than there are characters is enough. -/
theorem WritesLines.readLines_eq (h : WritesLines statements chars) {count : Nat}
    (hcount : chars.length < count) : readLines count chars = some statements := by
  induction h generalizing count with
  | @last statements chars hline =>
      obtain ⟨count, rfl⟩ := Nat.exists_eq_add_one.mpr (Nat.zero_lt_of_lt hcount)
      by_cases hchars : chars = []
      · rw [hchars, hline.eq_nil hchars]
        rfl
      · have hpos : 0 < count :=
          Nat.lt_of_lt_of_le (List.length_pos_iff.mpr hchars) (Nat.le_of_lt_succ hcount)
        obtain ⟨count, rfl⟩ := Nat.exists_eq_add_one.mpr hpos
        have hread : readLines (count + 1 + 1) (chars ++ []) = some (statements ++ []) :=
          readLines_line hline (by simp) rfl
        simpa using hread
  | cons hline _ ih =>
      obtain ⟨count, rfl⟩ := Nat.exists_eq_add_one.mpr (Nat.zero_lt_of_lt hcount)
      simp only [List.length_append, List.length_cons] at hcount
      exact readLines_line hline (by simp) (ih (by omega))

/-! ## Documents -/

/-- All line breaks are read as the one that stands for them. -/
theorem BreaksAs.normalizeBreaks_eq (h : BreaksAs chars text) : normalizeBreaks text = chars := by
  induction h with
  | nil => rfl
  | @same c chars text hreturn _ ih =>
      have hstep : normalizeBreaks (c :: text) = c :: normalizeBreaks text := by
        cases text <;> simp [normalizeBreaks, hreturn]
      rw [hstep, ih]
  | pair _ ih => rw [normalizeBreaks, ih]

/-- A line does not begin with a byte order mark. -/
theorem WritesLine.head?_append_ne (h : WritesLine statements front)
    (hrest : rest.head? ≠ some '\ufeff') : (front ++ rest).head? ≠ some '\ufeff' := by
  cases h with
  | empty htail => exact htail.head?_append_ne rfl (by decide) hrest
  | statement hblanks hstatement =>
      rw [List.append_assoc]
      refine head?_blanks_append_ne hblanks rfl ?_
      obtain ⟨first, later, rfl, hfirst⟩ := hstatement.exists_cons
      intro heq
      cases Option.some.inj heq
      rcases hfirst with hfirst | hfirst <;> cases hfirst

/-- Lines do not begin with a byte order mark. -/
theorem WritesLines.head?_ne (h : WritesLines statements chars) : chars.head? ≠ some '\ufeff' := by
  cases h with
  | last hline =>
      have hne : (chars ++ []).head? ≠ some '\ufeff' := hline.head?_append_ne (by simp)
      rwa [List.append_nil] at hne
  | cons hline => exact hline.head?_append_ne (by simp)

/-- Without a byte order mark nothing is skipped. -/
theorem BreaksAs.skipByteOrderMark_eq (h : BreaksAs chars text)
    (hchars : chars.head? ≠ some '\ufeff') : skipByteOrderMark text = text := by
  cases h with
  | nil => rfl
  | @same c =>
      have hmark : c ≠ '\ufeff' := fun heq => hchars (congrArg some heq)
      simp [skipByteOrderMark, hmark]
  | pair => rfl

/-- A document comes to what the statements on its lines come to, however they are written. -/
theorem WritesDocument.parse?_eq {document : String} (h : WritesDocument statements document) :
    parse? document = (statements.foldlM Draft.add Draft.empty).map Draft.root := by
  obtain ⟨chars, hlines, hbreaks⟩ := h
  rw [parse?, hbreaks.skipByteOrderMark_eq hlines.head?_ne, hbreaks.normalizeBreaks_eq]
  show Option.bind (readLines (chars.length + 1) chars) _ = _
  rw [hlines.readLines_eq (Nat.lt_succ_self _)]
  show Option.bind (statements.foldlM Draft.add Draft.empty) _ = _
  cases statements.foldlM Draft.add Draft.empty <;> rfl

/-! ## Every document can be written -/

/-- Every key and value can be written as a statement. -/
theorem exists_writesStatement_assign (key : String) (datum : Datum) :
    ∃ chars, WritesStatement (.assign ⟨[], key⟩ datum.toValue) chars ∧ '\r' ∉ chars := by
  obtain ⟨keyChars, hkey, hkeyChars⟩ := exists_writesKey key
  obtain ⟨valueChars, hvalue, hvalueChars⟩ := exists_writesDatum datum
  exact ⟨_, .assign hkey (List.forall_mem_nil _) (List.forall_mem_nil _) hvalue,
    by simp [hkeyChars, hvalueChars]⟩

/-- Every header of a table among several can be written. -/
theorem exists_writesStatement_element (key : String) :
    ∃ chars, WritesStatement (.element ⟨[], key⟩) chars ∧ '\r' ∉ chars := by
  obtain ⟨keyChars, hkey, hkeyChars⟩ := exists_writesKey key
  exact ⟨_, .element hkey (List.forall_mem_nil _) (List.forall_mem_nil _), by simp [hkeyChars]⟩

/-- Without carriage returns the line breaks can stay as they are. -/
theorem breaksAs_self (h : '\r' ∉ chars) : BreaksAs chars chars := by
  induction chars with
  | nil => exact .nil
  | cons c chars ih =>
      rw [List.mem_cons, not_or] at h
      exact .same (Ne.symm h.1) (ih h.2)

/-- Statements that can be written one by one make up a document. -/
theorem exists_writesDocument
    (h : ∀ statement ∈ statements, ∃ chars, WritesStatement statement chars ∧ '\r' ∉ chars) :
    ∃ document, WritesDocument statements document := by
  obtain ⟨chars, hlines, hchars⟩ : ∃ chars, WritesLines statements chars ∧ '\r' ∉ chars := by
    induction statements with
    | nil =>
        have hline : WritesLine [] [] := .empty (.blanks (List.forall_mem_nil _))
        exact ⟨[], .last hline, List.not_mem_nil⟩
    | cons statement statements ih =>
        rw [List.forall_mem_cons] at h
        obtain ⟨front, hstatement, hfront⟩ := h.1
        obtain ⟨back, hrest, hback⟩ := ih h.2
        have hline : WritesLine [statement] ([] ++ (front ++ [])) :=
          .statement (List.forall_mem_nil _) hstatement (.blanks (List.forall_mem_nil _))
        exact ⟨_, .cons hline hrest, by simp [hfront, hback]⟩
  refine ⟨String.ofList chars, chars, hlines, ?_⟩
  rw [String.toList_ofList]
  exact breaksAs_self hchars

end Highlight.Toml
