import Highlight.Proofs.CommentState
import Highlight.Proofs.LineIndex
import Mathlib.Tactic.SplitIfs

/-!
# A character automaton for comments and strings

Lexemes are found by looking ahead for end markers and by counting escape marks backwards.
`Automaton.Mode.next` reads the same languages one character at a time with a mode and no other
memory, and `Automaton.pass` labels the characters of a whole text on the way. A character whose
label hangs on what follows it waits: a slash in code, and the characters of a string that is not
closed yet. `outcome_readCode` and `outcome_readComment` show that on one line both readings agree.
-/

namespace Highlight

/-- The kind before keywords were cut out of plain text. -/
@[simp]
def SpanKind.lexical : SpanKind → SpanKind
  | .keyword => .normal
  | kind => kind

namespace Automaton

open Lexeme (Reading opening plainRun blockEnd? firstLexeme readCode readComment)

/-- Where the automaton stands. -/
inductive Mode where
  /-- In code. `slash` says that the character before was a slash that can open a comment. -/
  | code (slash : Bool)
  /-- In a block comment. `star` says that the character before was a star that can close it. -/
  | block (star : Bool)
  /-- In a comment that the line ends. -/
  | lineComment
  /-- In a string that `mark` closes. `escaped` says that an escape mark waits for its
  character. -/
  | string (mark : Char) (escaped : Bool)
  deriving DecidableEq, Repr

namespace Mode

/-- A block comment is open. -/
def isBlock : Mode → Bool
  | block _ => true
  | _ => false

/-- The mode in which a line begins. -/
def lineStart (inComment : Bool) : Mode :=
  if inComment then block false else code false

/-- At the start of a line the automaton is in a comment if the line begins inside one. -/
@[simp]
theorem isBlock_lineStart (inComment : Bool) : (lineStart inComment).isBlock = inComment := by
  cases inComment <;> rfl

/-- The mode after one more character. Of a line, only an open block comment outlasts its end. -/
def next (shellComments : Bool) (mode : Mode) (c : Char) : Mode :=
  if c = '\n' then lineStart mode.isBlock
  else match mode with
    | code slash =>
        if slash ∧ c = '*' then block false
        else if slash ∧ c = '/' then lineComment
        else if c = '/' then code true
        else if c = '#' ∧ shellComments then lineComment
        else if c = '"' ∨ c = '\'' then string c false
        else code false
    | block star => if star ∧ c = '/' then code false else block (c = '*')
    | lineComment => lineComment
    | string mark escaped =>
        if escaped then string mark false
        else if c = '\\' then string mark true
        else if c = mark then code false
        else string mark false

/-- The labels that one more character of the line settles: of `waiting` characters before it, and
of itself unless it has to wait. -/
def settled (shellComments : Bool) (mode : Mode) (waiting : Nat) (c : Char) : List SpanKind :=
  match mode with
  | code slash =>
      -- The slash before a star or a slash is part of the comment that they open.
      if slash ∧ (c = '*' ∨ c = '/') then List.replicate (waiting + 1) .comment
      else if c = '/' ∨ c = '"' ∨ c = '\'' then List.replicate waiting .normal
      else if c = '#' ∧ shellComments then List.replicate waiting .normal ++ [.comment]
      else List.replicate (waiting + 1) .normal
  | block _ => [.comment]
  | lineComment => [.comment]
  | string mark escaped =>
      if ¬ escaped ∧ c = mark then List.replicate (waiting + 1) .string else []

/-- The label of the characters that still wait when the line ends. -/
def unsettled : Mode → SpanKind
  | string _ _ => .error
  | _ => .normal

end Mode

/-- One pass over a text from a mode on: a label for each character, and none for line breaks. -/
def pass (shellComments : Bool) : Mode → Nat → List Char → List (Option SpanKind)
  | mode, waiting, [] => List.replicate waiting (some mode.unsettled)
  | mode, waiting, c :: rest =>
      if c = '\n' then
        List.replicate waiting (some mode.unsettled) ++
          none :: pass shellComments (mode.next shellComments c) 0 rest
      else
        let labels := mode.settled shellComments waiting c
        labels.map some ++
          pass shellComments (mode.next shellComments c) (waiting + 1 - labels.length) rest

/-- What the automaton makes of one line: the labels, and whether a block comment is open at its
end. -/
def outcome (shellComments : Bool) (mode : Mode) (waiting : Nat) (line : List Char) :
    List (Option SpanKind) × Bool :=
  (pass shellComments mode waiting line, (line.foldl (Mode.next shellComments) mode).isBlock)

/-- Put the labels of characters of one kind in front of an outcome. -/
def label (kind : SpanKind) (count : Nat) (later : List (Option SpanKind) × Bool) :
    List (Option SpanKind) × Bool :=
  (List.replicate count (some kind) ++ later.1, later.2)

/-- Two stretches of one label are one stretch. -/
@[simp]
theorem label_label (kind : SpanKind) (first second : Nat)
    (later : List (Option SpanKind) × Bool) :
    label kind first (label kind second later) = label kind (first + second) later := by
  rw [label, label, label, ← List.append_assoc, List.replicate_append_replicate]

variable {shellComments : Bool}

/-- At the end of the line the characters that wait are labelled. -/
theorem outcome_nil (mode : Mode) (waiting : Nat) :
    outcome shellComments mode waiting [] =
      label mode.unsettled waiting ([], mode.isBlock) := by
  simp [outcome, pass, label]

/-- A character that settles all labels up to its own. -/
theorem outcome_cons_settled (kind : SpanKind) {mode : Mode} {waiting : Nat} {c : Char}
    (hc : c ≠ '\n')
    (hsettled : mode.settled shellComments waiting c = List.replicate (waiting + 1) kind)
    (rest : List Char) :
    outcome shellComments mode waiting (c :: rest) =
      label kind (waiting + 1) (outcome shellComments (mode.next shellComments c) 0 rest) := by
  simp [outcome, pass, label, hc, hsettled]

/-- A character that has to wait. -/
theorem outcome_cons_waiting {mode : Mode} {waiting : Nat} {c : Char}
    (hc : c ≠ '\n') (hsettled : mode.settled shellComments waiting c = [])
    (rest : List Char) :
    outcome shellComments mode waiting (c :: rest) =
      outcome shellComments (mode.next shellComments c) (waiting + 1) rest := by
  simp [outcome, pass, hc, hsettled]

/-- In a comment that the line ends every character is part of it. -/
theorem outcome_lineComment {line : List Char} (hbreak : '\n' ∉ line) :
    outcome shellComments .lineComment 0 line = label .comment line.length ([], false) := by
  induction line with
  | nil => rfl
  | cons c rest ih =>
      obtain ⟨hc, hrest⟩ := List.ne_and_not_mem_of_not_mem_cons hbreak
      have hnext : Mode.next shellComments .lineComment c = .lineComment := by
        simp [Mode.next, Ne.symm hc]
      rw [outcome_cons_settled .comment (Ne.symm hc) rfl, hnext, ih hrest, label_label,
        List.length_cons, Nat.zero_add, Nat.add_comm]

/-- A slash that no slash or star follows is plain text. -/
theorem outcome_slash {d : Char} (hstar : d ≠ '*') (hslash : d ≠ '/') (hd : d ≠ '\n')
    (rest : List Char) :
    outcome shellComments (.code true) 1 (d :: rest) =
      label .normal 1 (outcome shellComments (.code false) 0 (d :: rest)) := by
  have hnext : Mode.next shellComments (.code true) d =
      Mode.next shellComments (.code false) d := by
    simp [Mode.next, hstar, hslash, Mode.isBlock]
  have hsettled : Mode.settled shellComments (.code true) 1 d =
      .normal :: Mode.settled shellComments (.code false) 0 d := by
    simp only [Mode.settled, hstar, hslash]
    split_ifs <;> simp_all
  simp [outcome, pass, label, hd, hnext, hsettled]

/-- A character of plain text is labelled as such. -/
theorem outcome_plain {c : Char} {rest : List Char} (hbreak : '\n' ∉ c :: rest)
    (h : opening shellComments (c :: rest) = .plain) :
    outcome shellComments (.code false) 0 (c :: rest) =
      label .normal 1 (outcome shellComments (.code false) 0 rest) := by
  obtain ⟨hc, hrest⟩ := List.ne_and_not_mem_of_not_mem_cons hbreak
  obtain ⟨hdouble, hsingle, hblock, hline, hshell⟩ := Lexeme.opening_eq_plain_iff.mp h
  by_cases hslash : c = '/'
  · subst hslash
    rw [outcome_cons_waiting (Ne.symm hc) rfl]
    cases rest with
    | nil => rfl
    | cons d rest =>
        obtain ⟨hd, -⟩ := List.ne_and_not_mem_of_not_mem_cons hrest
        refine outcome_slash ?_ ?_ (Ne.symm hd) rest
        · intro hstar
          subst hstar
          exact hblock (List.prefix_append ['/', '*'] rest)
        · intro hslash
          subst hslash
          exact hline (List.prefix_append ['/', '/'] rest)
  · have hsign : ¬ (c = '#' ∧ shellComments = true) := fun hsign => hshell hsign.2 hsign.1
    rw [outcome_cons_settled .normal (Ne.symm hc)]
    · simp [Mode.next, Ne.symm hc, hslash, hdouble, hsingle, hsign]
    · simp [Mode.settled, hslash, hdouble, hsingle, hsign]

/-- A run of plain text is labelled as such. -/
theorem outcome_plainRun {line : List Char} (hbreak : '\n' ∉ line) :
    outcome shellComments (.code false) 0 line =
      label .normal (plainRun shellComments line).1.length
        (outcome shellComments (.code false) 0 (plainRun shellComments line).2) := by
  induction line with
  | nil => rfl
  | cons c rest ih =>
      rw [plainRun]
      split
      · rename_i hplain
        rw [outcome_plain hbreak hplain, ih (List.not_mem_of_not_mem_cons hbreak)]
        simp [Nat.add_comm]
      · rfl

/-- What the automaton makes of the inside of a block comment that `blockEnd?` cuts. -/
def blockOutcome (shellComments : Bool) (line : List Char) : List (Option SpanKind) × Bool :=
  match blockEnd? line with
  | some (body, after) => label .comment body.length (outcome shellComments (.code false) 0 after)
  | none => label .comment line.length ([], true)

/-- A block comment goes on behind a character that does not begin its end marker. -/
theorem blockOutcome_cons {c : Char} {rest : List Char}
    (h : ∀ after, c :: rest ≠ '*' :: '/' :: after) :
    blockOutcome shellComments (c :: rest) =
      label .comment 1 (blockOutcome shellComments rest) := by
  rw [blockOutcome, blockOutcome, Lexeme.blockEnd?_cons h]
  cases blockEnd? rest with
  | none => simp [Nat.add_comm]
  | some parts => simp [Nat.add_comm]

/-- A star that no slash follows does not end a block comment. -/
theorem outcome_star {line : List Char} (h : line.head? ≠ some '/') :
    outcome shellComments (.block true) 0 line = outcome shellComments (.block false) 0 line := by
  cases line with
  | nil => rfl
  | cons d rest =>
      -- Only at a slash do the two modes part.
      have hslash : d ≠ '/' := by simpa using h
      have hnext : Mode.next shellComments (.block true) d =
          Mode.next shellComments (.block false) d := by
        simp [Mode.next, hslash, Mode.isBlock]
      simp [outcome, pass, hnext, Mode.settled, Mode.unsettled]

/-- A block comment is labelled up to its end marker. -/
theorem outcome_block {line : List Char} (hbreak : '\n' ∉ line) :
    outcome shellComments (.block false) 0 line = blockOutcome shellComments line := by
  induction line with
  | nil => rfl
  | cons c rest ih =>
      obtain ⟨hc, hrest⟩ := List.ne_and_not_mem_of_not_mem_cons hbreak
      rw [outcome_cons_settled .comment (Ne.symm hc) rfl]
      by_cases hstar : c = '*'
      · subst hstar
        have hnext : Mode.next shellComments (.block false) '*' = .block true := by
          simp [Mode.next]
        rw [hnext]
        -- The star is part of the end marker if a slash comes right behind it, and else forgotten.
        by_cases hhead : rest.head? = some '/'
        · obtain ⟨after, rfl⟩ := List.head?_eq_some_iff.mp hhead
          rw [outcome_cons_settled .comment (by decide) rfl]
          simp [Mode.next, blockOutcome, blockEnd?]
        · rw [outcome_star hhead, ih hrest, blockOutcome_cons]
          intro after hafter
          simp [(List.cons.inj hafter).2] at hhead
      · have hnext : Mode.next shellComments (.block false) c = .block false := by
          simp [Mode.next, Ne.symm hc, hstar]
        rw [hnext, ih hrest, blockOutcome_cons]
        intro after hafter
        exact hstar (List.cons.inj hafter).1

/-- What the automaton makes of a string from which `Quote.close?` cuts the rest. -/
def stringOutcome (shellComments : Bool) (mark : Char) (passed : List Char) (waiting : Nat)
    (line : List Char) : List (Option SpanKind) × Bool :=
  match Quote.close? '\\' mark passed line with
  | some (body, after) =>
      label .string (waiting + body.length) (outcome shellComments (.code false) 0 after)
  | none => label .error (waiting + line.length) ([], false)

/-- A string goes on behind a character that does not close it. -/
theorem stringOutcome_cons {mark c : Char} {passed : List Char}
    (h : (c == mark && Quote.countLeading '\\' passed % 2 == 0) = false) (waiting : Nat)
    (rest : List Char) :
    stringOutcome shellComments mark passed waiting (c :: rest) =
      stringOutcome shellComments mark (c :: passed) (waiting + 1) rest := by
  rw [stringOutcome, stringOutcome, Quote.close?, if_neg (by simp [h])]
  cases Quote.close? '\\' mark (c :: passed) rest with
  | none => simp [Nat.add_assoc, Nat.add_comm 1]
  | some parts => simp [Nat.add_assoc, Nat.add_comm 1]

/-- A string is labelled up to its closing mark. A character is escaped if an odd number of escape
marks stands before it. -/
theorem outcome_string {mark : Char} (hmark : mark ≠ '\\') {line : List Char}
    (hbreak : '\n' ∉ line) (passed : List Char) (waiting : Nat) :
    outcome shellComments (.string mark (Quote.countLeading '\\' passed % 2 == 1)) waiting line =
      stringOutcome shellComments mark passed waiting line := by
  induction line generalizing passed waiting with
  | nil => rw [outcome_nil]; rfl
  | cons c rest ih =>
      obtain ⟨hc, hrest⟩ := List.ne_and_not_mem_of_not_mem_cons hbreak
      by_cases hclose : (c == mark && Quote.countLeading '\\' passed % 2 == 0) = true
      · obtain ⟨rfl, heven⟩ : c = mark ∧ Quote.countLeading '\\' passed % 2 = 0 := by
          simpa using hclose
        rw [outcome_cons_settled .string (Ne.symm hc) (by simp [Mode.settled, heven])]
        simp [Mode.next, Ne.symm hc, heven, hmark, stringOutcome, Quote.close?]
      · have hopen := Bool.eq_false_iff.mpr hclose
        -- The mark closes nothing because it is escaped, or because it is another character.
        have hescaped : c = mark → (Quote.countLeading '\\' passed % 2 == 1) = true := by
          rintro rfl
          simpa using hopen
        have hwait : Mode.settled shellComments
            (.string mark (Quote.countLeading '\\' passed % 2 == 1)) waiting c = [] := by
          rw [Mode.settled, if_neg (fun h => h.1 (hescaped h.2))]
        have hnext : Mode.next shellComments
            (.string mark (Quote.countLeading '\\' passed % 2 == 1)) c =
              .string mark (Quote.countLeading '\\' (c :: passed) % 2 == 1) := by
          rw [Quote.odd_countLeading_cons]
          cases hodd : Quote.countLeading '\\' passed % 2 == 1 with
          | true => simp [Mode.next, Ne.symm hc]
          | false =>
              have hother : c ≠ mark := fun h => by simp [hescaped h] at hodd
              by_cases hmark : c = '\\' <;> simp [Mode.next, Ne.symm hc, hother, hmark]
        rw [outcome_cons_waiting (Ne.symm hc) hwait, hnext, ih hrest, stringOutcome_cons hopen]

/-- The label of each character of some lexemes. -/
def lexemeLabels (lexemes : List Lexeme) : List (Option SpanKind) :=
  lexemes.flatMap fun lexeme => List.replicate lexeme.chars.length (some lexeme.kind.lexical)

/-- A lexeme in front of others puts its labels in front of theirs. -/
theorem lexemeLabels_cons (lexeme : Lexeme) (rest : List Lexeme) :
    lexemeLabels (lexeme :: rest) =
      List.replicate lexeme.chars.length (some lexeme.kind.lexical) ++ lexemeLabels rest := rfl

/-- What the automaton is expected to make of a line of which one lexeme is read. -/
def stepOutcome (shellComments : Bool) (step : Lexeme.Step) : List (Option SpanKind) × Bool :=
  label step.lexeme.kind.lexical step.lexeme.chars.length
    (if step.inComment then ([], true) else outcome shellComments (.code false) 0 step.rest)

/-- On the first lexeme of a line the automaton agrees. -/
theorem outcome_firstLexeme {c : Char} {rest : List Char} (hbreak : '\n' ∉ c :: rest) :
    outcome shellComments (.code false) 0 (c :: rest) =
      stepOutcome shellComments (firstLexeme shellComments c rest) := by
  obtain ⟨hc, hrest⟩ := List.ne_and_not_mem_of_not_mem_cons hbreak
  unfold firstLexeme
  split
  · rename_i hopening
    rw [outcome_plain hbreak hopening, outcome_plainRun hrest]
    simp [stepOutcome, Nat.add_comm]
  · rename_i hopening
    have hend : outcome shellComments (.code false) 0 [] = ([], false) := rfl
    simp only [stepOutcome, SpanKind.lexical, Bool.false_eq_true, if_false, hend]
    rcases Lexeme.opening_eq_lineComment_iff.mp hopening with ⟨line, hline⟩ | ⟨rfl, line, hline⟩
    · obtain ⟨rfl, rfl⟩ := List.cons.inj hline
      rw [outcome_cons_waiting (by decide) rfl, outcome_cons_settled .comment (by decide) rfl]
      show label .comment 2 (outcome shellComments .lineComment 0 line) = _
      rw [outcome_lineComment (List.not_mem_of_not_mem_cons hrest), label_label]
      simp [Nat.add_comm 2]
    · obtain ⟨rfl, rfl⟩ := List.cons.inj hline
      rw [outcome_cons_settled .comment (by decide) rfl]
      show label .comment 1 (outcome true .lineComment 0 rest) = _
      rw [outcome_lineComment hrest, label_label]
      simp [Nat.add_comm]
  · rename_i hopening
    obtain ⟨line, hline⟩ := Lexeme.opening_eq_blockComment_iff.mp hopening
    obtain ⟨rfl, rfl⟩ := List.cons.inj hline
    rw [outcome_cons_waiting (by decide) rfl, outcome_cons_settled .comment (by decide) rfl]
    show label .comment 2 (outcome shellComments (.block false) 0 line) = _
    rw [outcome_block (List.not_mem_of_not_mem_cons hrest), blockOutcome,
      List.drop_one, List.tail_cons]
    cases blockEnd? line with
    | some parts => simp [stepOutcome, Nat.add_comm 2]
    | none => simp [stepOutcome, Nat.add_comm 2]
  · rename_i mark hopening
    obtain ⟨hmark, line, hline⟩ := Lexeme.opening_eq_quote_iff.mp hopening
    obtain ⟨rfl, rfl⟩ := List.cons.inj hline
    have hescape : c ≠ '\\' := by rcases hmark with rfl | rfl <;> decide
    have hwait : Mode.settled shellComments (.code false) 0 c = [] := by
      rcases hmark with rfl | rfl <;> rfl
    have hnext : Mode.next shellComments (.code false) c =
        .string c (Quote.countLeading '\\' [c] % 2 == 1) := by
      rcases hmark with rfl | rfl <;> simp [Mode.next, Quote.odd_countLeading_cons]
    rw [outcome_cons_waiting (Ne.symm hc) hwait, hnext, outcome_string hescape hrest, stringOutcome]
    cases Quote.close? '\\' c [c] rest with
    | some parts => simp [stepOutcome, Nat.add_comm]
    | none => simp [stepOutcome, outcome_nil, Mode.isBlock, label, Nat.add_comm]

/-- A step that ends inside a comment leaves nothing of the line. -/
theorem firstLexeme_rest_of_inComment {c : Char} {rest : List Char}
    (h : (firstLexeme shellComments c rest).inComment = true) :
    (firstLexeme shellComments c rest).rest = [] := by
  unfold firstLexeme at h ⊢
  split at h <;> try split at h
  all_goals simp_all

/-- On a line that begins in code, the automaton agrees with the lexemes. -/
theorem outcome_readCode {line : List Char} (hbreak : '\n' ∉ line) :
    outcome shellComments (.code false) 0 line =
      (lexemeLabels (readCode shellComments line).lexemes,
        (readCode shellComments line).inComment) := by
  fun_induction readCode shellComments line with
  | case1 => rfl
  | case2 c rest step ih =>
      have hrest : '\n' ∉ step.rest := by
        intro hmem
        refine hbreak ?_
        rw [← Lexeme.firstLexeme_append shellComments c rest]
        exact List.mem_append_right _ hmem
      rw [outcome_firstLexeme hbreak, stepOutcome, Lexeme.Step.followedBy, lexemeLabels_cons]
      split
      · rename_i hopen
        -- The lexeme took the whole line, so nothing behind it could close the comment.
        have hnil : step.rest = [] := firstLexeme_rest_of_inComment hopen
        have hread : readCode shellComments step.rest = ⟨[], false⟩ := by
          rw [hnil, readCode]
        rw [hread]
        simp [label, lexemeLabels, step, hopen]
      · rename_i hclosed
        rw [ih hrest]
        simp [label, step, hclosed]

/-- On a line that begins inside a block comment, the automaton agrees with the lexemes. -/
theorem outcome_readComment {line : List Char} (hbreak : '\n' ∉ line) :
    outcome shellComments (.block false) 0 line =
      (lexemeLabels (readComment shellComments line).lexemes,
        (readComment shellComments line).inComment) := by
  rw [outcome_block hbreak, blockOutcome]
  fun_cases readComment shellComments line with
  | case1 => rfl
  | case2 c rest body after hend =>
      have hafter : '\n' ∉ after := by
        intro hmem
        refine hbreak ?_
        rw [Lexeme.append_of_blockEnd? hend]
        exact List.mem_append_right _ hmem
      rw [hend]
      show label .comment body.length (outcome shellComments (.code false) 0 after) = _
      rw [outcome_readCode hafter]
      simp [label, Lexeme.Step.followedBy, lexemeLabels_cons]
  | case3 c rest hend =>
      rw [hend]
      simp [label, lexemeLabels]

/-- On a line of which is known how it begins, the automaton gives the labels of the lexemes. -/
theorem pass_lineStart (shellComments : Bool) {line : List Char} (hbreak : '\n' ∉ line)
    (starts : Bool) :
    pass shellComments (.lineStart starts) 0 line =
      lexemeLabels (Line.read starts shellComments (String.ofList line)).lexemes := by
  rw [Line.read, String.toList_ofList]
  cases starts with
  | false => exact congrArg Prod.fst (outcome_readCode hbreak)
  | true => exact congrArg Prod.fst (outcome_readComment hbreak)

/-- On such a line the automaton ends inside a block comment if the scan says so. -/
theorem isBlock_foldl_lineStart (shellComments : Bool) {line : List Char} (hbreak : '\n' ∉ line)
    (starts : Bool) :
    (line.foldl (Mode.next shellComments) (.lineStart starts)).isBlock =
      Line.endsInComment (String.ofList line) starts shellComments := by
  rw [Line.endsInComment, Line.read, String.toList_ofList]
  cases starts with
  | false => exact congrArg Prod.snd (outcome_readCode hbreak)
  | true => exact congrArg Prod.snd (outcome_readComment hbreak)

/-! ## The lines of a text -/

/-- The mode in which the automaton comes to a line. -/
def Mode.atLine (shellComments : Bool) (chars : List Char) (line : Nat) : Mode :=
  (Text.beforeLine chars line).foldl (Mode.next shellComments) (.code false)

/-- The automaton comes to a line inside a block comment if the scans of the lines before it say
so, and otherwise in code. -/
theorem atLine_eq_lineStart {buffer : TextBuffer} (h : buffer.Indexed) {line : Nat}
    (hline : line < lineCount buffer) :
    Mode.atLine shellComments buffer.text.toList line =
      .lineStart (LineSource.beginsInComment buffer shellComments line) := by
  rw [h.lineCount_eq] at hline
  induction line with
  | zero => rfl
  | succ line ih =>
      have hbefore : line < (Text.lines buffer.text.toList).length := by omega
      have hchars := List.getElem?_eq_getElem hbefore
      have hmode := ih hbefore
      rw [Mode.atLine] at hmode
      have hends := isBlock_foldl_lineStart shellComments
        (Text.not_mem_of_mem_lines (List.getElem_mem hbefore))
        (LineSource.beginsInComment buffer shellComments line)
      rw [Mode.atLine, Text.beforeLine_succ hchars, List.foldl_append, List.foldl_append, hmode]
      show Mode.lineStart _ = _
      rw [LineSource.beginsInComment, h.lineText_eq, hchars]
      exact congrArg Mode.lineStart hends

end Automaton

end Highlight
