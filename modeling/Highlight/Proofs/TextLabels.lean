import Highlight.Proofs.Automaton
import Highlight.Proofs.Session

/-!
# The labels of a text

A text is styled line by line: its line breaks cut it, the cache says how a line begins, and the
spans of the line are cut up further at keywords. The main theorem, `labels_as_one_pass`, says that
all this together labels each character as one pass of the automaton over the whole text does,
whatever lines were asked for before. Up to keywords, that is: a keyword counts as plain text.
-/

namespace Highlight

open LineSource (lineText beginsInComment)
open Automaton (Mode pass outcome lexemeLabels)

/-! ## Keywords -/

/-- The label of each character of some spans. Keywords count as plain text. -/
def Span.labels (spans : List Span) : List (Option SpanKind) :=
  spans.flatMap fun span => List.replicate span.text.toList.length (some span.kind.lexical)

/-- Laid out or not, lexemes have the same labels. -/
theorem Span.labels_layOut (start : Nat) (lexemes : List Lexeme) :
    labels (Lexeme.layOut start lexemes) = lexemeLabels lexemes := by
  induction lexemes generalizing start with
  | nil => rfl
  | cons lexeme rest ih =>
      have hrest := ih (Span.stop ⟨lexeme.kind, start, String.ofList lexeme.chars⟩)
      rw [labels] at hrest
      rw [Lexeme.layOut, labels, List.flatMap_cons, hrest, String.toList_ofList,
        Automaton.lexemeLabels_cons]

/-- If all lexemes count as plain text, so do all characters. -/
theorem lexemeLabels_of_normal {lexemes : List Lexeme}
    (h : ∀ lexeme ∈ lexemes, lexeme.kind.lexical = .normal) :
    lexemeLabels lexemes =
      List.replicate (Lexeme.flatten lexemes).length (some .normal) := by
  induction lexemes with
  | nil => rfl
  | cons lexeme rest ih =>
      rw [Automaton.lexemeLabels_cons, h lexeme List.mem_cons_self,
        ih fun other hother => h other (List.mem_cons_of_mem _ hother),
        List.replicate_append_replicate, Lexeme.flatten_cons, List.length_append]

namespace KeywordSet

variable {keywords : KeywordSet}

/-- Marked runs were plain text before keywords were cut out. -/
theorem lexical_of_mem_mark {before : Option Char} {runs : List Run} {lexeme : Lexeme}
    (h : lexeme ∈ keywords.mark before runs) : lexeme.kind.lexical = .normal := by
  induction runs generalizing before with
  | nil => cases h
  | cons run rest ih =>
      rcases List.mem_cons.mp h with rfl | hrest
      · show (keywords.kindOf before run _).lexical = .normal
        rw [kindOf]
        split <;> rfl
      · exact ih hrest

/-- What is joined of plain text was plain text before keywords were cut out. -/
theorem lexical_of_mem_joinNormal {lexeme other : Lexeme} {rest : List Lexeme}
    (hlexeme : lexeme.kind.lexical = .normal)
    (hrest : ∀ next ∈ rest, next.kind.lexical = .normal)
    (h : other ∈ joinNormal lexeme rest) : other.kind.lexical = .normal := by
  cases rest with
  | nil => exact List.mem_singleton.mp h ▸ hlexeme
  | cons next rest =>
      rw [joinNormal] at h
      split at h
      · rcases List.mem_cons.mp h with rfl | hother
        · rfl
        · exact hrest other (List.mem_cons_of_mem _ hother)
      · rcases List.mem_cons.mp h with rfl | hother
        · exact hlexeme
        · exact hrest other hother

/-- Plain text that was searched for keywords still counts as plain text. -/
theorem lexical_of_mem_splitText {chars : List Char} {lexeme : Lexeme}
    (h : lexeme ∈ keywords.splitText chars) : lexeme.kind.lexical = .normal := by
  have hfold : ∀ lexemes : List Lexeme, (∀ next ∈ lexemes, next.kind.lexical = .normal) →
      ∀ next ∈ lexemes.foldr joinNormal [], next.kind.lexical = .normal := by
    intro lexemes
    induction lexemes with
    | nil => intro _ next hnext; cases hnext
    | cons first rest ih =>
        intro hall next hnext
        refine lexical_of_mem_joinNormal (hall first List.mem_cons_self) ?_ hnext
        exact ih fun other hother => hall other (List.mem_cons_of_mem _ hother)
  exact hfold _ (fun next => lexical_of_mem_mark) lexeme h

/-- Cutting the keywords out of a span changes no label. -/
theorem labels_splitSpan (keywords : KeywordSet) (span : Span) :
    Span.labels (keywords.splitSpan span) = Span.labels [span] := by
  rw [splitSpan]
  split
  · rename_i hkind
    rw [Span.labels_layOut, lexemeLabels_of_normal fun lexeme => lexical_of_mem_splitText,
      flatten_splitText]
    simp [Span.labels, hkind]
  · rfl

/-- Cutting the keywords out of a line changes no label. -/
theorem labels_split (keywords : KeywordSet) (spans : List Span) :
    Span.labels (keywords.split spans) = Span.labels spans := by
  rw [split]
  split
  · rfl
  · induction spans with
    | nil => rfl
    | cons span rest ih =>
        have hspan := labels_splitSpan keywords span
        rw [Span.labels] at hspan ih
        rw [Span.labels, List.flatMap_cons, List.flatMap_append, hspan, ih]
        simp [Span.labels]

end KeywordSet

/-! ## One pass -/

namespace Automaton

variable {shellComments : Bool}

/-- A line without line breaks gets no break among its labels. -/
theorem none_not_mem_pass {line : List Char} (h : '\n' ∉ line) (mode : Mode) (waiting : Nat) :
    none ∉ pass shellComments mode waiting line := by
  induction line generalizing mode waiting with
  | nil => simp [pass]
  | cons c rest ih =>
      obtain ⟨hc, hrest⟩ := List.ne_and_not_mem_of_not_mem_cons h
      rw [pass, if_neg (Ne.symm hc)]
      simp [ih hrest]

/-- Behind a line break the pass goes on as at the start of a line. -/
theorem pass_append_break {line : List Char} (h : '\n' ∉ line) (mode : Mode) (waiting : Nat)
    (rest : List Char) :
    pass shellComments mode waiting (line ++ '\n' :: rest) =
      pass shellComments mode waiting line ++
        none :: pass shellComments
          (.lineStart (line.foldl (Mode.next shellComments) mode).isBlock) 0 rest := by
  induction line generalizing mode waiting with
  | nil => rfl
  | cons c line ih =>
      obtain ⟨hc, hline⟩ := List.ne_and_not_mem_of_not_mem_cons h
      simp only [List.cons_append, pass, if_neg (Ne.symm hc), ih hline, List.append_assoc,
        List.foldl_cons]

/-- The pass labels as many lines as the text has. -/
theorem length_splitOn_pass (chars : List Char) (starts : Bool) :
    ((pass shellComments (.lineStart starts) 0 chars).splitOn none).length =
      (Text.lines chars).length := by
  induction chars using Text.induction_on_lines generalizing starts with
  | single line hline =>
      rw [List.splitOn_eq_singleton (none_not_mem_pass hline _ 0), Text.lines_of_not_mem hline]
      rfl
  | more line rest hline ih =>
      rw [pass_append_break hline, Text.lines_append_break hline,
        List.splitOn_append_cons_self_of_not_mem (none_not_mem_pass hline _ 0), List.length_cons,
        List.length_cons, ih]

/-- The pass labels a line as the automaton does on its own from the mode in which it comes to
it. -/
theorem getElem?_splitOn_pass (shellComments : Bool) {chars line : List Char} {index : Nat}
    (starts : Bool)
    (h : (Text.lines chars)[index]? = some line) :
    ((pass shellComments (.lineStart starts) 0 chars).splitOn none)[index]? =
      some (pass shellComments
        ((Text.beforeLine chars index).foldl (Mode.next shellComments) (.lineStart starts))
        0 line) := by
  induction chars using Text.induction_on_lines generalizing index starts with
  | single only honly =>
      rw [Text.lines_of_not_mem honly] at h
      rw [List.splitOn_eq_singleton (none_not_mem_pass honly _ 0)]
      cases index with
      | zero =>
          obtain rfl := Option.some.inj h
          rfl
      | succ index => simp at h
  | more first rest hfirst ih =>
      rw [Text.lines_append_break hfirst] at h
      rw [pass_append_break hfirst,
        List.splitOn_append_cons_self_of_not_mem (none_not_mem_pass hfirst _ 0)]
      cases index with
      | zero =>
          obtain rfl := Option.some.inj h
          rfl
      | succ index =>
          rw [List.getElem?_cons_succ, ih _ h, Text.beforeLine_append_break hfirst,
            List.foldl_append, List.foldl_cons]
          rfl

end Automaton

/-! ## Questions about a text -/

namespace Session

variable {language : Language} {session : Session} {action : Action} {line : Nat}

/-- A question about a line of the text is answered. -/
theorem Sound.next_of_question (h : Sound language session .all) (hline : action.line? = some line)
    (hcount : line < lineCount session.buffer) :
    session.next action =
      some ⟨session.buffer, session.styler.askedFor session.buffer line⟩ := by
  obtain ⟨hstarts, hstyle⟩ := h.answers hcount trivial
  have hnext : ∃ later, session.next action = some later := by
    cases action with
    | starts asked =>
        obtain rfl := Option.some.inj hline
        rw [Session.next]
        cases hanswer : session.styler.startsInComment session.buffer asked with
        | error error => simp [hanswer, Except.map] at hstarts
        | ok answer => exact ⟨_, rfl⟩
    | style asked =>
        obtain rfl := Option.some.inj hline
        rw [Session.next]
        cases hanswer : session.styler.styleLine session.buffer asked with
        | error error => simp [hanswer, Except.map] at hstyle
        | ok answer => exact ⟨_, rfl⟩
    | segment asked start count =>
        obtain rfl := Option.some.inj hline
        rw [Session.next, Styler.styleSegment]
        cases hanswer : session.styler.styleLine session.buffer asked with
        | error error => simp [hanswer, Except.map] at hstyle
        | ok answer => exact ⟨_, rfl⟩
    | edit | quietEdit | replaceAll | tell | tellReplaced => cases hline
  obtain ⟨later, hnext⟩ := hnext
  rw [hnext]
  cases Step.of_next hnext with
  | question hasked =>
      obtain rfl := Option.some.inj (hasked.symm.trans hline)
      rfl
  | edit | quietEdit | replaceAll | tell | tellReplaced => cases hline

/-- Questions about lines of the text are answered, and change nothing about the text. -/
theorem Sound.exists_run (h : Sound language session .all) {questions : List Action}
    (hquestions : ∀ action ∈ questions,
      ∃ line, action.line? = some line ∧ line < lineCount session.buffer) :
    ∃ later, session.run questions = some later ∧ later.buffer = session.buffer ∧
      Sound language later .all := by
  induction questions generalizing session with
  | nil => exact ⟨session, rfl, rfl, h⟩
  | cons action rest ih =>
      obtain ⟨line, hline, hcount⟩ := hquestions action List.mem_cons_self
      obtain ⟨later, hrun, hbuffer, hsound⟩ := ih (h.askedFor line) fun other hother =>
        hquestions other (List.mem_cons_of_mem _ hother)
      refine ⟨later, ?_, hbuffer, hsound⟩
      rw [Session.run, h.next_of_question hline hcount]
      exact hrun

/-- Whatever lines of a text were asked for before, the styler labels the characters of each line
as one pass of the automaton over the whole text does, and says that a line begins inside a comment
if the automaton comes to it inside a block comment. -/
theorem labels_as_one_pass (language : Language) (text : String) {questions : List Action}
    (hquestions : ∀ action ∈ questions,
      ∃ line, action.line? = some line ∧ line < lineCount (TextBuffer.ofText text)) :
    ∃ session, (start language text).run questions = some session ∧
      session.buffer = .ofText text ∧
      lineCount session.buffer = ((pass language.shellComments (.code false) 0
        text.toList).splitOn none).length ∧
      ∀ line < lineCount session.buffer, ∃ starts spans,
        session.styler.Answers session.buffer line starts spans ∧
          starts = (Mode.atLine language.shellComments text.toList line).isBlock ∧
          ((pass language.shellComments (.code false) 0 text.toList).splitOn none)[line]? =
            some (Span.labels spans) := by
  have hindexed := TextBuffer.indexed_ofText text
  obtain ⟨session, hrun, hbuffer, hsound⟩ :=
    (sound_ofLanguage language hindexed).exists_run hquestions
  refine ⟨session, hrun, hbuffer, ?_, fun line hcount => ?_⟩
  · rw [hbuffer, hindexed.lineCount_eq]
    exact (Automaton.length_splitOn_pass text.toList false).symm
  · have hline : line < lineCount (TextBuffer.ofText text) := by
      rw [hbuffer] at hcount
      exact hcount
    obtain ⟨chars, hchars⟩ : ∃ chars, (Text.lines text.toList)[line]? = some chars :=
      ⟨_, List.getElem?_eq_getElem (hindexed.lineCount_eq ▸ hline)⟩
    have hmode : Mode.atLine language.shellComments text.toList line = _ :=
      Automaton.atLine_eq_lineStart hindexed hline
    refine ⟨_, _, hsound.answers hcount trivial, ?_, ?_⟩
    · rw [hbuffer, hmode, Mode.isBlock_lineStart]
    · have hbreak := Text.not_mem_of_mem_lines (List.mem_of_getElem? hchars)
      have htext : lineText (TextBuffer.ofText text) line = String.ofList chars := by
        rw [hindexed.lineText_eq]
        show String.ofList ((Text.lines text.toList)[line]?.getD []) = _
        rw [hchars]
        rfl
      have hlabels := Automaton.getElem?_splitOn_pass language.shellComments false hchars
      rw [Mode.atLine] at hmode
      rw [KeywordSet.labels_split, Line.scan, Span.labels_layOut, hbuffer, htext,
        ← Automaton.pass_lineStart _ hbreak, ← hmode]
      exact hlabels

/-- The last line is asked for first, and its string stays open. -/
theorem labels_as_one_pass_out_of_order :
    (∀ action ∈ [Action.style 1, .starts 0, .segment 1 0 2], ∃ line, action.line? = some line ∧
      line < lineCount (TextBuffer.ofText "int /*\n*/ \"a")) ∧
      ∃ session, (start ⟨"c", [], ["int"], false⟩ "int /*\n*/ \"a").run
          [.style 1, .starts 0, .segment 1 0 2] = some session ∧
        session.buffer = .ofText "int /*\n*/ \"a" ∧
        lineCount session.buffer =
          ((pass false (.code false) 0 "int /*\n*/ \"a".toList).splitOn none).length ∧
        ∀ line < lineCount session.buffer, ∃ starts spans,
          session.styler.Answers session.buffer line starts spans ∧
            starts = (Mode.atLine false "int /*\n*/ \"a".toList line).isBlock ∧
            ((pass false (.code false) 0 "int /*\n*/ \"a".toList).splitOn none)[line]? =
              some (Span.labels spans) := by
  have hquestions : ∀ action ∈ [Action.style 1, .starts 0, .segment 1 0 2],
      ∃ line, action.line? = some line ∧
        line < lineCount (TextBuffer.ofText "int /*\n*/ \"a") := by
    intro action haction
    rcases List.mem_cons.mp haction with rfl | haction
    · exact ⟨1, rfl, by decide +kernel⟩
    rcases List.mem_cons.mp haction with rfl | haction
    · exact ⟨0, rfl, by decide +kernel⟩
    rcases List.mem_cons.mp haction with rfl | haction
    · exact ⟨1, rfl, by decide +kernel⟩
    · cases haction
  exact ⟨hquestions, labels_as_one_pass ⟨"c", [], ["int"], false⟩ _ hquestions⟩

end Session

end Highlight
