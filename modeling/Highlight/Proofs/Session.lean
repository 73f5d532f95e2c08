import Highlight.Styler
import Highlight.Proofs.CommentState
import Highlight.Proofs.LineIndex

/-!
# Editing sessions

A session is a buffer with a styler for it. `Session.next` is one thing that can happen to it: an
edit that the styler is told of or not, a report of an edit that was never made, or a question
about a line. `Session.frontier` follows a run and says up to which line the styler can have missed
nothing. `Sound.next` shows that one action keeps the cache right up to there, and the main
theorem, `answers_as_fresh_up_to_frontier`, that the styler then answers for these lines what a
styler answers that has seen nothing but the text as it stands.
-/

namespace Highlight

open LineSource (lineText beginsInComment)

/-- An edit that is asked for. -/
inductive Request where
  | insert (offset : Nat) (text : String)
  | remove (offset count : Nat)
  deriving DecidableEq, Repr

/-- Carry out an edit. -/
def TextBuffer.perform (buffer : TextBuffer) :
    Request → Except OffsetOutOfRange (TextBuffer × Edit)
  | .insert offset text => buffer.insert offset text
  | .remove offset count => buffer.remove offset count

/-- Carry out an edit, or complain. The buffer that is left comes with the complaint too. -/
def TextBuffer.performInPlace (buffer : TextBuffer) : Request → TextBuffer.Outcome
  | .insert offset text => buffer.insertInPlace offset text
  | .remove offset count => buffer.removeInPlace offset count

/-- A buffer that refuses an edit is left as it was. -/
theorem TextBuffer.performInPlace_eq (buffer : TextBuffer) (request : Request) :
    buffer.performInPlace request =
      match buffer.perform request with
      | .ok (edited, edit) => (.ok edit, edited)
      | .error error => (.error error, buffer) := by
  cases request with
  | insert offset text => exact buffer.insertInPlace_eq offset text
  | remove offset count => exact buffer.removeInPlace_eq offset count

/-- An edit that was carried out leaves an indexed buffer. -/
theorem TextBuffer.Indexed.perform {buffer edited : TextBuffer} {edit : Edit}
    (hindexed : buffer.Indexed) {request : Request}
    (h : buffer.perform request = .ok (edited, edit)) :
    edited.Indexed ∧ edit.Turns buffer.text.toList edited.text.toList := by
  cases request with
  | insert offset text => exact hindexed.insert h
  | remove offset count => exact hindexed.remove h

namespace Styler

variable {α : Type} [LineSource α]

/-- What a styler says about a line: whether it begins inside a block comment, and its spans. -/
def Answers (styler : Styler) (lines : α) (line : Nat) (starts : Bool) (spans : List Span) : Prop :=
  (styler.startsInComment lines line).map Prod.fst = .ok starts ∧
    (styler.styleLine lines line).map Prod.fst = .ok spans

variable {styler : Styler} {lines : α} {limit : Limit}

/-- A styler answers rightly for the lines up to which its cache is right. -/
theorem answers_of_accurate
    (h : styler.cache.AccurateTo limit lines styler.shellComments) {line : Nat}
    (hcount : line < lineCount lines) (hline : limit.Covers line) :
    styler.Answers lines line (beginsInComment lines styler.shellComments line)
      (styler.keywords.split (Line.scan (lineText lines line)
        (beginsInComment lines styler.shellComments line) styler.shellComments).spans) := by
  have hquery := h.query hcount hline
  constructor
  · show (styler.startsInComment lines line).map Prod.fst = _
    rw [startsInComment, hquery]
    rfl
  · show (styler.styleLine lines line).map Prod.fst = _
    rw [styleLine, startsInComment, hquery]
    rfl

/-- The styler after it was asked for a line. -/
def askedFor (styler : Styler) (lines : α) (line : Nat) : Styler :=
  { styler with cache := styler.cache.extendTo lines line styler.shellComments }

variable {after : Styler} {line : Nat}

/-- After a question about a line's beginning the styler knows the line. -/
theorem eq_askedFor_of_startsInComment {starts : Bool}
    (h : styler.startsInComment lines line = .ok (starts, after)) :
    after = styler.askedFor lines line := by
  unfold startsInComment at h
  cases hquery : styler.cache.query lines line styler.shellComments with
  | error error => simp [hquery, bind, Except.bind] at h
  | ok answer =>
      obtain ⟨found, cache⟩ := answer
      simp only [hquery, bind, Except.bind] at h
      obtain ⟨-, rfl⟩ := Prod.mk.inj (Except.ok.inj h)
      rw [askedFor, CommentCache.extendTo_of_query hquery]

/-- After styling a line the styler knows it. -/
theorem eq_askedFor_of_styleLine {spans : List Span}
    (h : styler.styleLine lines line = .ok (spans, after)) :
    after = styler.askedFor lines line := by
  unfold styleLine at h
  cases hstarts : styler.startsInComment lines line with
  | error error => simp [hstarts, bind, Except.bind] at h
  | ok answer =>
      simp only [hstarts, bind, Except.bind] at h
      obtain ⟨-, rfl⟩ := Prod.mk.inj (Except.ok.inj h)
      exact eq_askedFor_of_startsInComment hstarts

/-- After styling a part of a line the styler knows the line. -/
theorem eq_askedFor_of_styleSegment {start count : Nat} {spans : List Span}
    (h : styler.styleSegment lines line start count = .ok (spans, after)) :
    after = styler.askedFor lines line := by
  unfold styleSegment at h
  cases hstyle : styler.styleLine lines line with
  | error error => simp [hstyle, bind, Except.bind] at h
  | ok answer =>
      simp only [hstyle, bind, Except.bind] at h
      obtain ⟨-, rfl⟩ := Prod.mk.inj (Except.ok.inj h)
      exact eq_askedFor_of_styleLine hstyle

/-- What a report of an edit leaves of a limit: if it made the styler forget all lines that may be
wrong, there is no limit any more. -/
def limitTold (limit : Limit) (line : Nat) : Limit :=
  if limit.Covers line then .all else limit

/-- Where there is no limit, a report makes none. -/
theorem limitTold_all (line : Nat) : limitTold .all line = .all :=
  if_pos trivial

/-- A report of an edit forgets enough. -/
theorem accurateTo_noteEdit {buffer : TextBuffer} {shellComments : Bool}
    (h : styler.cache.AccurateTo limit buffer shellComments) (edit : Edit) :
    (styler.noteEdit buffer edit).1.cache.AccurateTo
      (if buffer.touchesMarker edit then limitTold limit (buffer.lineIndexOf edit.offset)
        else limit) buffer shellComments := by
  unfold noteEdit limitTold
  split
  · split
    · rename_i hline
      exact h.rewind_of_le hline
    · exact h.rewind _
  · exact h

end Styler

/-- A buffer and the styler of its text. -/
structure Session where
  buffer : TextBuffer
  styler : Styler
  deriving DecidableEq, Repr

/-- What can happen in a session. -/
inductive Action where
  /-- An edit that the styler is told of. -/
  | edit (request : Request)
  /-- An edit that the styler is not told of. -/
  | quietEdit (request : Request)
  | replaceAll (text : String)
  /-- A report of an edit that was not made. -/
  | tell (edit : Edit)
  /-- A report that the text was replaced when it was not. -/
  | tellReplaced
  | starts (line : Nat)
  | style (line : Nat)
  | segment (line start count : Nat)
  deriving DecidableEq, Repr

/-- The line that an action asks about. -/
def Action.line? : Action → Option Nat
  | .starts line => some line
  | .style line => some line
  | .segment line _ _ => some line
  | _ => none

namespace Session

/-- A buffer that holds a text, with a styler that has seen nothing of it. -/
def start (language : Language) (text : String) : Session :=
  ⟨.ofText text, .ofLanguage language⟩

/-- One action. It cannot be taken if an edit is out of range or a line is missing. -/
def next (session : Session) : Action → Option Session
  | .edit request =>
      match session.buffer.perform request with
      | .ok (buffer, edit) => some ⟨buffer, (session.styler.noteEdit buffer edit).1⟩
      | .error _ => none
  | .quietEdit request =>
      match session.buffer.perform request with
      | .ok (buffer, _) => some ⟨buffer, session.styler⟩
      | .error _ => none
  | .replaceAll text => some ⟨session.buffer.replaceAll text, session.styler.noteReplaced⟩
  | .tell edit => some ⟨session.buffer, (session.styler.noteEdit session.buffer edit).1⟩
  | .tellReplaced => some ⟨session.buffer, session.styler.noteReplaced⟩
  | .starts line =>
      match session.styler.startsInComment session.buffer line with
      | .ok (_, styler) => some ⟨session.buffer, styler⟩
      | .error _ => none
  | .style line =>
      match session.styler.styleLine session.buffer line with
      | .ok (_, styler) => some ⟨session.buffer, styler⟩
      | .error _ => none
  | .segment line start count =>
      match session.styler.styleSegment session.buffer line start count with
      | .ok (_, styler) => some ⟨session.buffer, styler⟩
      | .error _ => none

/-- What one action does, the questions taken together. -/
inductive Step (session : Session) : Action → Session → Prop where
  | edit {request : Request} {buffer : TextBuffer} {edit : Edit} :
      session.buffer.perform request = .ok (buffer, edit) →
      Step session (.edit request) ⟨buffer, (session.styler.noteEdit buffer edit).1⟩
  | quietEdit {request : Request} {buffer : TextBuffer} {edit : Edit} :
      session.buffer.perform request = .ok (buffer, edit) →
      Step session (.quietEdit request) ⟨buffer, session.styler⟩
  | replaceAll (text : String) :
      Step session (.replaceAll text)
        ⟨session.buffer.replaceAll text, session.styler.noteReplaced⟩
  | tell (edit : Edit) :
      Step session (.tell edit) ⟨session.buffer, (session.styler.noteEdit session.buffer edit).1⟩
  | tellReplaced : Step session .tellReplaced ⟨session.buffer, session.styler.noteReplaced⟩
  | question {action : Action} {line : Nat} :
      action.line? = some line →
      Step session action ⟨session.buffer, session.styler.askedFor session.buffer line⟩

/-- Every action that `next` takes is a step. -/
theorem Step.of_next {session later : Session} {action : Action}
    (h : session.next action = some later) : Step session action later := by
  cases action with
  | edit request =>
      simp only [next] at h
      split at h
      · rename_i buffer edit hperform
        obtain rfl := Option.some.inj h
        exact .edit hperform
      · cases h
  | quietEdit request =>
      simp only [next] at h
      split at h
      · rename_i buffer edit hperform
        obtain rfl := Option.some.inj h
        exact .quietEdit hperform
      · cases h
  | replaceAll text =>
      obtain rfl := Option.some.inj h
      exact .replaceAll text
  | tell edit =>
      obtain rfl := Option.some.inj h
      exact .tell edit
  | tellReplaced =>
      obtain rfl := Option.some.inj h
      exact .tellReplaced
  | starts line =>
      simp only [next] at h
      split at h
      · rename_i found styler hstarts
        obtain rfl := Option.some.inj h
        rw [Styler.eq_askedFor_of_startsInComment hstarts]
        exact .question rfl
      · cases h
  | style line =>
      simp only [next] at h
      split at h
      · rename_i spans styler hstyle
        obtain rfl := Option.some.inj h
        rw [Styler.eq_askedFor_of_styleLine hstyle]
        exact .question rfl
      · cases h
  | segment line start count =>
      simp only [next] at h
      split at h
      · rename_i spans styler hsegment
        obtain rfl := Option.some.inj h
        rw [Styler.eq_askedFor_of_styleSegment hsegment]
        exact .question rfl
      · cases h

/-- Actions one after the other. -/
def run (session : Session) : List Action → Option Session
  | [] => some session
  | action :: rest =>
      match session.next action with
      | some later => later.run rest
      | none => none

/-- What an action leaves of the limit up to which the styler has missed nothing. -/
def limitAfter (session : Session) (limit : Limit) : Action → Limit
  | .edit request =>
      match session.buffer.perform request with
      | .ok (buffer, edit) =>
          if buffer.touchesMarker edit then
            Styler.limitTold limit (buffer.lineIndexOf edit.offset)
          else
            limit.lower (buffer.lineIndexOf edit.offset)
      | .error _ => limit
  | .quietEdit request =>
      match session.buffer.perform request with
      | .ok (buffer, edit) => limit.lower (buffer.lineIndexOf edit.offset)
      | .error _ => limit
  | .tell edit =>
      if session.buffer.touchesMarker edit then
        Styler.limitTold limit (session.buffer.lineIndexOf edit.offset)
      else
        limit
  | .replaceAll _ => .all
  | .tellReplaced => .all
  | .starts _ => limit
  | .style _ => limit
  | .segment _ _ _ => limit

/-- The line up to which the styler has missed nothing in a run. -/
def frontier (session : Session) (limit : Limit) : List Action → Limit
  | [] => limit
  | action :: rest =>
      match session.next action with
      | some later => later.frontier (session.limitAfter limit action) rest
      | none => limit

/-- The styler has the settings of the language and is right up to the limit. -/
structure Sound (language : Language) (session : Session) (limit : Limit) : Prop where
  indexed : session.buffer.Indexed
  shellComments : session.styler.shellComments = language.shellComments
  keywords : session.styler.keywords = .ofList language.keywords
  accurate : session.styler.cache.AccurateTo limit session.buffer language.shellComments

/-- A styler that has seen nothing is right about everything. -/
theorem sound_ofLanguage (language : Language) {buffer : TextBuffer} (h : buffer.Indexed) :
    Sound language ⟨buffer, .ofLanguage language⟩ .all :=
  ⟨h, rfl, rfl, CommentCache.accurateTo_empty buffer language.shellComments⟩

variable {language : Language} {session later : Session} {limit : Limit}

/-- A sound session gives the answers that follow from the text. -/
theorem Sound.answers (h : Sound language session limit) {line : Nat}
    (hcount : line < lineCount session.buffer) (hline : limit.Covers line) :
    session.styler.Answers session.buffer line
      (beginsInComment session.buffer language.shellComments line)
      ((KeywordSet.ofList language.keywords).split (Line.scan (lineText session.buffer line)
        (beginsInComment session.buffer language.shellComments line)
          language.shellComments).spans) := by
  have hanswers := Styler.answers_of_accurate (h.shellComments ▸ h.accurate) hcount hline
  rw [h.shellComments, h.keywords] at hanswers
  exact hanswers

/-- A question about a line keeps a session sound. -/
theorem Sound.askedFor (h : Sound language session limit) (line : Nat) :
    Sound language ⟨session.buffer, session.styler.askedFor session.buffer line⟩ limit where
  indexed := h.indexed
  shellComments := h.shellComments
  keywords := h.keywords
  accurate := by
    rw [Styler.askedFor, h.shellComments]
    exact h.accurate.extendTo line

/-- So does a report of an edit, be the edit made or not. -/
theorem Sound.noteEdit (h : Sound language session limit) (edit : Edit) :
    Sound language ⟨session.buffer, (session.styler.noteEdit session.buffer edit).1⟩
      (if session.buffer.touchesMarker edit then
        Styler.limitTold limit (session.buffer.lineIndexOf edit.offset) else limit) where
  indexed := h.indexed
  shellComments := by
    unfold Styler.noteEdit
    split <;> exact h.shellComments
  keywords := by
    unfold Styler.noteEdit
    split <;> exact h.keywords
  accurate := Styler.accurateTo_noteEdit h.accurate edit

/-- After the styler has forgotten everything a session is sound whatever its text. -/
theorem Sound.noteReplaced (h : Sound language session limit) {buffer : TextBuffer}
    (hindexed : buffer.Indexed) : Sound language ⟨buffer, session.styler.noteReplaced⟩ .all where
  indexed := hindexed
  shellComments := h.shellComments
  keywords := h.keywords
  accurate := CommentCache.accurateTo_reset _ _ _

/-- An edit leaves the styler right up to the line of the edit. -/
theorem Sound.perform (h : Sound language session limit) {request : Request}
    {buffer : TextBuffer} {edit : Edit}
    (hperform : session.buffer.perform request = .ok (buffer, edit)) :
    Sound language ⟨buffer, session.styler⟩ (limit.lower (buffer.lineIndexOf edit.offset)) := by
  obtain ⟨hindexed, hturns⟩ := h.indexed.perform hperform
  refine ⟨hindexed, h.shellComments, h.keywords, h.accurate.congr fun line hline => ?_⟩
  exact h.indexed.lineText_eq_of_turns hindexed hturns hline

/-- A report that reaches back to the limit of the edit lifts the limit of the session. -/
theorem limitTold_lower (limit : Limit) (line : Nat) :
    Styler.limitTold (limit.lower line) line = Styler.limitTold limit line := by
  cases limit with
  | all => exact if_pos (Nat.le_refl line)
  | upTo last =>
      by_cases hline : (Limit.upTo last).Covers line
      · have hlower := Limit.covers_lower.mpr ⟨hline, Nat.le_refl line⟩
        rw [Styler.limitTold, Styler.limitTold, if_pos hline, if_pos hlower]
      · have hlast : last ≤ line := Nat.le_of_not_le hline
        rw [Limit.lower, Nat.min_eq_left hlast]

/-- A question does not change the limit. -/
theorem limitAfter_of_question {action : Action} {line : Nat} (h : action.line? = some line)
    (session : Session) (limit : Limit) : session.limitAfter limit action = limit := by
  cases action <;> first | rfl | cases h

/-- One action keeps a session sound. -/
theorem Sound.next (h : Sound language session limit) {action : Action}
    (hnext : session.next action = some later) :
    Sound language later (session.limitAfter limit action) := by
  cases Step.of_next hnext with
  | @edit request buffer edit hperform =>
      -- The edit sets a limit at its own line, which is where its report goes back to.
      have hnoted := (h.perform hperform).noteEdit edit
      rw [limitTold_lower] at hnoted
      simpa only [limitAfter, hperform] using hnoted
  | quietEdit hperform => simpa only [limitAfter, hperform] using h.perform hperform
  | replaceAll text => exact h.noteReplaced (session.buffer.indexed_replaceAll text)
  | tell edit => exact h.noteEdit edit
  | tellReplaced => exact h.noteReplaced h.indexed
  | question hline =>
      rw [limitAfter_of_question hline]
      exact h.askedFor _

/-- A run keeps a session sound up to its frontier. -/
theorem Sound.run (h : Sound language session limit) {actions : List Action}
    (hrun : session.run actions = some later) :
    Sound language later (session.frontier limit actions) := by
  induction actions generalizing session limit with
  | nil =>
      obtain rfl := Option.some.inj hrun
      exact h
  | cons action rest ih =>
      rw [Session.run] at hrun
      rw [frontier]
      cases hnext : session.next action with
      | none => simp [hnext] at hrun
      | some between =>
          simp only [hnext] at hrun ⊢
          exact ih (h.next hnext) hrun

/-- Every step of a run meets a condition on the session and on the action. -/
def Along (condition : Session → Action → Prop) (session : Session) : List Action → Prop
  | [] => True
  | action :: rest =>
      condition session action ∧ ∀ later, session.next action = some later →
        later.Along condition rest

/-- What each step keeps under a condition, a run keeps that meets the condition along the way. -/
theorem Along.invariant {condition : Session → Action → Prop} (Holds : Session → Prop)
    (hstep : ∀ {session later : Session} {action : Action}, Holds session →
      condition session action → session.next action = some later → Holds later)
    {actions : List Action} (h : session.Along condition actions) (hfirst : Holds session)
    (hrun : session.run actions = some later) : Holds later := by
  induction actions generalizing session with
  | nil =>
      obtain rfl := Option.some.inj hrun
      exact hfirst
  | cons action rest ih =>
      obtain ⟨hcondition, hrest⟩ := h
      rw [Session.run] at hrun
      cases hnext : session.next action with
      | none => simp [hnext] at hrun
      | some between =>
          simp only [hnext] at hrun
          exact ih (hrest between hnext) (hstep hfirst hcondition hnext) hrun

/-- The styler is told of what the action does to the text, and takes note. -/
def Noticed (session : Session) : Action → Prop
  | .edit request =>
      ∀ buffer edit, session.buffer.perform request = .ok (buffer, edit) →
        buffer.touchesMarker edit = true
  | .quietEdit _ => False
  | _ => True

/-- A change that the styler notices sets no limit. -/
theorem limitAfter_eq_all_of_noticed {action : Action}
    (hnext : session.next action = some later) (h : session.Noticed action) :
    session.limitAfter .all action = .all := by
  cases Step.of_next hnext with
  | edit hperform =>
      have htouches := h _ _ hperform
      simp only [limitAfter, hperform, htouches, if_true, Styler.limitTold_all]
  | quietEdit hperform => exact h.elim
  | replaceAll | tellReplaced => rfl
  | tell edit =>
      rw [limitAfter, Styler.limitTold_all, ite_self]
  | question hline => exact limitAfter_of_question hline session .all

/-- As long as the styler notices every change there is no limit. -/
theorem frontier_eq_all_of_noticed {actions : List Action}
    (h : session.Along Noticed actions) : session.frontier .all actions = .all := by
  induction actions generalizing session with
  | nil => rfl
  | cons action rest ih =>
      obtain ⟨hnoticed, hrest⟩ := h
      rw [frontier]
      cases hnext : session.next action with
      | none => rfl
      | some later =>
          simp only [limitAfter_eq_all_of_noticed hnext hnoticed]
          exact ih (hrest later hnext)

/-- Whatever happened in a session, for each line up to the frontier the styler answers what a new
styler answers for the text as it stands. If the styler noticed all changes, these are all
lines. -/
theorem answers_as_fresh_up_to_frontier (language : Language) (text : String)
    {actions : List Action} {session : Session}
    (hrun : (start language text).run actions = some session) :
    (∀ line < lineCount session.buffer, ((start language text).frontier .all actions).Covers line →
      ∃ starts spans, session.styler.Answers session.buffer line starts spans ∧
        (Styler.ofLanguage language).Answers session.buffer line starts spans) ∧
      ((start language text).Along Noticed actions →
        (start language text).frontier .all actions = .all) := by
  have hstart := sound_ofLanguage language (TextBuffer.indexed_ofText text)
  have hsound := hstart.run hrun
  refine ⟨fun line hcount hline => ?_, frontier_eq_all_of_noticed⟩
  exact ⟨_, _, hsound.answers hcount hline,
    (sound_ofLanguage language hsound.indexed).answers hcount trivial⟩

/-- The end of a block comment goes into the text without notice, and the line before the one that
was styled is still answered for. -/
theorem answers_as_fresh_after_quiet_edit :
    ∃ session, (start ⟨"c", [], ["int"], false⟩ "a\n/* b\nint c").run
        [.style 2, .quietEdit (.insert 5 "*/")] = some session ∧
      1 < lineCount session.buffer ∧
      ((start ⟨"c", [], ["int"], false⟩ "a\n/* b\nint c").frontier .all
        [.style 2, .quietEdit (.insert 5 "*/")]).Covers 1 ∧
      ∃ starts spans, session.styler.Answers session.buffer 1 starts spans ∧
        (Styler.ofLanguage ⟨"c", [], ["int"], false⟩).Answers session.buffer 1 starts spans := by
  have hrun : ∃ session, (start ⟨"c", [], ["int"], false⟩ "a\n/* b\nint c").run
      [.style 2, .quietEdit (.insert 5 "*/")] = some session ∧ 1 < lineCount session.buffer :=
    ⟨_, rfl, by decide +kernel⟩
  obtain ⟨session, hrun, hcount⟩ := hrun
  have hfrontier : ((start ⟨"c", [], ["int"], false⟩ "a\n/* b\nint c").frontier .all
      [.style 2, .quietEdit (.insert 5 "*/")]).Covers 1 := by decide +kernel
  exact ⟨session, hrun, hcount, hfrontier,
    (answers_as_fresh_up_to_frontier _ _ hrun).1 1 hcount hfrontier⟩

end Session

end Highlight
