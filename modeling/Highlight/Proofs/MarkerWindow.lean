import Highlight.Proofs.Automaton
import Highlight.Proofs.Session
import Mathlib.Data.List.Infix

/-!
# The window around an edit

`TextBuffer.touchesMarker` decides by a few characters whether an edit can have changed a comment.
In general it can be wrong, since quotes, line comments and line breaks change what a marker far
away means. In a text without them it is right: as long as no marker stands in the window, the
automaton is in the same mode behind the window with the edited text and without it. The main
theorem, `answers_as_fresh_of_markerOnly`, follows this through a session.
-/

namespace Highlight

open LineSource (lineText beginsInComment)
open Automaton (Mode)

/-! ## Markers -/

/-- A text in which nothing but the markers of block comments is out of the ordinary. -/
structure MarkerOnly (shellComments : Bool) (chars : List Char) : Prop where
  double : '"' ∉ chars
  single : '\'' ∉ chars
  line : ¬ ['/', '/'] <:+: chars
  shell : shellComments = true → '#' ∉ chars

instance (shellComments : Bool) (chars : List Char) : Decidable (MarkerOnly shellComments chars) :=
  decidable_of_iff
    ('"' ∉ chars ∧ '\'' ∉ chars ∧ ¬ ['/', '/'] <:+: chars ∧ (shellComments = true → '#' ∉ chars))
    ⟨fun h => ⟨h.1, h.2.1, h.2.2.1, h.2.2.2⟩, fun h => ⟨h.double, h.single, h.line, h.shell⟩⟩

/-- A text without the markers of block comments, too. -/
structure Quiet (shellComments : Bool) (chars : List Char) : Prop
    extends MarkerOnly shellComments chars where
  opener : ¬ ['/', '*'] <:+: chars
  closer : ¬ ['*', '/'] <:+: chars

variable {shellComments : Bool} {chars part : List Char}

/-- A part of a text with markers only has markers only. -/
theorem MarkerOnly.of_infix (h : MarkerOnly shellComments chars) (hpart : part <:+: chars) :
    MarkerOnly shellComments part where
  double := fun hmem => h.double (hpart.mem hmem)
  single := fun hmem => h.single (hpart.mem hmem)
  line := fun hline => h.line (hline.trans hpart)
  shell := fun hon hmem => h.shell hon (hpart.mem hmem)

/-- A part of a quiet text is quiet. -/
theorem Quiet.of_infix (h : Quiet shellComments chars) (hpart : part <:+: chars) :
    Quiet shellComments part where
  toMarkerOnly := h.toMarkerOnly.of_infix hpart
  opener := fun hopener => h.opener (hopener.trans hpart)
  closer := fun hcloser => h.closer (hcloser.trans hpart)

/-- What the search for markers finds. -/
theorem hasMarker_iff :
    hasMarker chars = true ↔ ['/', '*'] <:+: chars ∨ ['*', '/'] <:+: chars := by
  fun_induction hasMarker chars with
  | case1 rest => simp [List.infix_cons_iff]
  | case2 rest => simp [List.infix_cons_iff]
  | case3 c rest hopener hcloser ih =>
      have hopener' : ¬ ['/', '*'] <+: c :: rest := by
        intro hbegins
        obtain ⟨tail, htail⟩ := hbegins
        obtain ⟨rfl, rfl⟩ := List.cons.inj htail
        exact hopener _ rfl rfl
      have hcloser' : ¬ ['*', '/'] <+: c :: rest := by
        intro hbegins
        obtain ⟨tail, htail⟩ := hbegins
        obtain ⟨rfl, rfl⟩ := List.cons.inj htail
        exact hcloser _ rfl rfl
      rw [ih, List.infix_cons_iff, List.infix_cons_iff, or_iff_right hopener',
        or_iff_right hcloser']
  | case4 => simp

namespace Automaton

/-! ## Modes -/

/-- The automaton can be in this mode behind a text without quotes and line comments that ends with
the character `last`. -/
def Mode.Follows (last : Option Char) : Mode → Prop
  | .code slash => slash = true → last = some '/'
  | .block star => star = true → last = some '*'
  | .lineComment => False
  | .string _ _ => False

/-- The mode behind a character that makes no marker with the one before it. -/
def Mode.settle (inComment : Bool) (c : Char) : Mode :=
  if inComment then .block (c = '*') else .code (c = '/')

/-- A settled mode is in a comment as it was told. -/
@[simp]
theorem Mode.isBlock_settle (inComment : Bool) (c : Char) :
    (Mode.settle inComment c).isBlock = inComment := by
  cases inComment <;> rfl

/-- A settled mode fits the character that it has seen. -/
theorem Mode.follows_settle (inComment : Bool) (c : Char) :
    (Mode.settle inComment c).Follows (some c) := by
  cases inComment <;> simp [settle, Follows]

/-- At the start of a line no character was seen. -/
theorem Mode.follows_lineStart (starts : Bool) : (Mode.lineStart starts).Follows none := by
  cases starts <;> simp [lineStart, Follows]

variable {last : Option Char} {c : Char} {mode : Mode}

/-- In code, a text without quotes and line comments leaves only block comments to open. -/
theorem Mode.next_code {slash : Bool} (h : slash = true → last = some '/')
    (honly : MarkerOnly shellComments (last.toList ++ [c])) :
    Mode.next shellComments (.code slash) c =
      if slash = true ∧ c = '*' then .block false else .code (c = '/') := by
  have hdouble : c ≠ '"' := by
    intro hc
    subst hc
    exact honly.double (by simp)
  have hsingle : c ≠ '\'' := by
    intro hc
    subst hc
    exact honly.single (by simp)
  have hshell : ¬ (c = '#' ∧ shellComments = true) := by
    intro hsign
    obtain ⟨rfl, hon⟩ := hsign
    exact honly.shell hon (by simp)
  have hline : ¬ (slash = true ∧ c = '/') := by
    intro hslashes
    obtain ⟨hslash, rfl⟩ := hslashes
    refine honly.line ?_
    rw [h hslash]
    exact List.infix_rfl
  by_cases hbreak : c = '\n'
  · subst hbreak
    simp [next, isBlock, lineStart]
  · by_cases hslash : c = '/'
    · subst hslash
      simp_all [next]
    · simp [next, hbreak, hslash, hshell, hdouble, hsingle]

/-- In a comment only a slash behind a star ends it. -/
theorem Mode.next_block (shellComments star : Bool) (c : Char) :
    Mode.next shellComments (.block star) c =
      if star = true ∧ c = '/' then .code false else .block (c = '*') := by
  by_cases hbreak : c = '\n'
  · subst hbreak
    simp [next, isBlock, lineStart]
  · simp [next, hbreak]

/-- One character of a text without quotes and line comments. -/
theorem Mode.Follows.next (h : mode.Follows last)
    (honly : MarkerOnly shellComments (last.toList ++ [c])) :
    (mode.next shellComments c).Follows (some c) := by
  cases mode with
  | code slash =>
      rw [next_code h honly]
      split <;> simp [Follows]
  | block star =>
      rw [next_block]
      split <;> simp [Follows]
  | lineComment | string => exact h.elim

/-- One character that makes no marker with the one before it. -/
theorem Mode.Follows.next_eq_settle (h : mode.Follows last)
    (hquiet : Quiet shellComments (last.toList ++ [c])) :
    mode.next shellComments c = .settle mode.isBlock c := by
  cases mode with
  | code slash =>
      rw [next_code h hquiet.toMarkerOnly, if_neg]
      · rfl
      · intro hmarker
        obtain ⟨hslash, rfl⟩ := hmarker
        refine hquiet.opener ?_
        rw [h hslash]
        exact List.infix_rfl
  | block star =>
      rw [next_block, if_neg]
      · rfl
      · intro hmarker
        obtain ⟨hstar, rfl⟩ := hmarker
        refine hquiet.closer ?_
        rw [h hstar]
        exact List.infix_rfl
  | lineComment | string => exact h.elim

/-- A text without quotes and line comments. -/
theorem Mode.Follows.foldl (h : mode.Follows last)
    (honly : MarkerOnly shellComments (last.toList ++ chars)) :
    (chars.foldl (Mode.next shellComments) mode).Follows (chars.getLast?.or last) := by
  induction chars generalizing mode last with
  | nil => exact h
  | cons c rest ih =>
      have hfirst : MarkerOnly shellComments (last.toList ++ [c]) :=
        honly.of_infix ⟨[], rest, by simp⟩
      have hrest := ih (h.next hfirst) (honly.of_infix ⟨last.toList, [], by simp⟩)
      rw [List.getLast?_cons]
      cases hlast : rest.getLast? with
      | none => simpa [hlast] using hrest
      | some d => simpa [hlast] using hrest

/-- Behind a text without markers the automaton is where it would be behind its last character. -/
theorem Mode.Follows.foldl_concat (h : mode.Follows last)
    (hquiet : Quiet shellComments (last.toList ++ (chars ++ [c]))) :
    (chars ++ [c]).foldl (Mode.next shellComments) mode = .settle mode.isBlock c := by
  induction chars generalizing mode last with
  | nil => exact h.next_eq_settle hquiet
  | cons d rest ih =>
      have hfirst : Quiet shellComments (last.toList ++ [d]) :=
        hquiet.of_infix ⟨[], rest ++ [c], by simp⟩
      have hrest := ih (Mode.follows_settle mode.isBlock d)
        (hquiet.of_infix ⟨last.toList, [], by simp⟩)
      rw [Mode.isBlock_settle] at hrest
      rw [List.cons_append, List.foldl_cons, h.next_eq_settle hfirst, hrest]

/-- A text that is put into a line without making or breaking a marker changes nothing about the
state at the end of the line. -/
theorem isBlock_foldl_insert {left inserted right : List Char}
    (honly : MarkerOnly shellComments (left ++ right))
    (hwith : Quiet shellComments (left.getLast?.toList ++ inserted ++ right.head?.toList))
    (hwithout : Quiet shellComments (left.getLast?.toList ++ right.head?.toList))
    (starts : Bool) :
    ((left ++ inserted ++ right).foldl (Mode.next shellComments) (.lineStart starts)).isBlock =
      ((left ++ right).foldl (Mode.next shellComments) (.lineStart starts)).isBlock := by
  have honlyLeft : MarkerOnly shellComments left := honly.of_infix ⟨[], right, by simp⟩
  have hleft := (Mode.follows_lineStart starts).foldl honlyLeft
  rw [Option.or_none] at hleft
  -- With and without the inserted text, the first character behind it settles the mode.
  rw [List.foldl_append, List.foldl_append, List.foldl_append]
  cases right with
  | nil =>
      rcases List.eq_nil_or_concat inserted with rfl | ⟨rest, c, rfl⟩
      · rfl
      · rw [List.concat_eq_append] at hwith ⊢
        rw [List.head?_nil, Option.toList_none, List.append_nil] at hwith
        rw [List.foldl_nil, List.foldl_nil, hleft.foldl_concat hwith, Mode.isBlock_settle]
  | cons c right =>
      rw [List.append_assoc] at hwith
      have hlong := hleft.foldl_concat hwith
      rw [List.foldl_append] at hlong
      rw [List.foldl_cons, List.foldl_cons, hleft.next_eq_settle hwithout]
      exact congrArg (fun mode => (right.foldl (Mode.next shellComments) mode).isBlock) hlong

end Automaton

/-! ## Edits -/

section Window

variable {front middle back left right : List Char}

/-- What ends the first part and begins the last part of a text is a piece of the text, with what
stands between the parts. -/
theorem append_infix_append (hleft : left <:+ front) (middle : List Char)
    (hright : right <+: back) :
    left ++ middle ++ right <:+: front ++ middle ++ back := by
  obtain ⟨before, rfl⟩ := hleft
  obtain ⟨after, rfl⟩ := hright
  exact ⟨before, after, by simp⟩

/-- The window reaches at least from the character before the edit to the one after it. -/
theorem quiet_of_window (hleft : left <:+ front) (hright : right <+: back)
    (honly : MarkerOnly shellComments (front ++ middle ++ back))
    (h : hasMarker (front.drop (front.length - TextBuffer.windowBefore) ++ middle ++
      back.take TextBuffer.windowAfter) = false) :
    Quiet shellComments (left.getLast?.toList ++ middle ++ right.head?.toList) := by
  have hlast : left.getLast?.toList <:+ left := by
    rcases List.eq_nil_or_concat left with rfl | ⟨rest, c, rfl⟩
    · exact List.suffix_rfl
    · simp
  have hhead : right.head?.toList <+: right := by
    cases right with
    | nil => exact List.prefix_rfl
    | cons c rest => exact List.prefix_append [c] rest
  have hbefore : left.getLast?.toList <:+ front.drop (front.length - TextBuffer.windowBefore) := by
    refine List.suffix_of_suffix_length_le (hlast.trans hleft) (List.drop_suffix _ _) ?_
    have hfront := (hlast.trans hleft).length_le
    have hone : left.getLast?.toList.length ≤ 1 := by cases left.getLast? <;> simp
    rw [List.length_drop, TextBuffer.windowBefore]
    omega
  have hafter : right.head?.toList <+: back.take TextBuffer.windowAfter := by
    refine List.prefix_of_prefix_length_le (hhead.trans hright) (List.take_prefix _ _) ?_
    have hback := (hhead.trans hright).length_le
    have hone : right.head?.toList.length ≤ 1 := by cases right.head? <;> simp
    rw [List.length_take, TextBuffer.windowAfter]
    omega
  have hinfix := append_infix_append hbefore middle hafter
  have hmarker := mt hasMarker_iff.mpr (Bool.eq_false_iff.mp h)
  exact {
    toMarkerOnly := honly.of_infix
      (append_infix_append (hlast.trans hleft) middle (hhead.trans hright))
    opener := fun hopener => hmarker (.inl (hopener.trans hinfix))
    closer := fun hcloser => hmarker (.inr (hcloser.trans hinfix)) }

end Window

namespace TextBuffer

variable {buffer edited : TextBuffer} {edit : Edit} {front inserted back : List Char}

/-- The window around an edit, in terms of the text before and the text after the edited part. -/
theorem touchesMarker_eq (hlength : front.length = edit.offset)
    (htext : match edit.kind with
      | .insertion => buffer.text.toList = front ++ edit.text.toList ++ back
      | .removal => buffer.text.toList = front ++ back) :
    buffer.touchesMarker edit =
      (hasMarker (front.drop (front.length - windowBefore) ++ edit.text.toList ++
          back.take windowAfter) ||
        hasMarker (front.drop (front.length - windowBefore) ++ back.take windowAfter)) := by
  have hslices (middle : List Char) (h : buffer.text.toList = front ++ middle ++ back) :
      buffer.sliceChars (edit.offset - windowBefore) edit.offset =
          front.drop (front.length - windowBefore) ∧
        buffer.sliceChars (edit.offset + middle.length)
          (edit.offset + middle.length + windowAfter) = back.take windowAfter := by
    rw [sliceChars, sliceChars, h, ← hlength]
    constructor
    · rw [List.append_assoc, List.drop_append_of_le_length (Nat.sub_le ..)]
      exact List.take_left' (List.length_drop ..)
    · rw [← List.length_append, List.drop_left, Nat.add_sub_cancel_left]
  unfold touchesMarker
  cases hkind : edit.kind with
  | insertion =>
      rw [hkind] at htext
      obtain ⟨hbefore, hafter⟩ := hslices _ htext
      simp only [← String.length_toList, hbefore, hafter]
  | removal =>
      rw [hkind] at htext
      obtain ⟨hbefore, hafter⟩ := hslices [] (by simpa using htext)
      rw [List.length_nil, Nat.add_zero] at hafter
      simp only [hbefore, hafter]

/-- Text without line breaks that is put into another text, with no marker in the window, leaves
all lines to begin as before. -/
theorem beginsInComment_insert {short long : TextBuffer} (hshort : short.Indexed)
    (hlong : long.Indexed) (hshortText : short.text.toList = front ++ back)
    (hlongText : long.text.toList = front ++ inserted ++ back) (hbreak : '\n' ∉ inserted)
    (hshortOnly : MarkerOnly shellComments short.text.toList)
    (hlongOnly : MarkerOnly shellComments long.text.toList)
    (hwith : hasMarker (front.drop (front.length - windowBefore) ++ inserted ++
      back.take windowAfter) = false)
    (hwithout : hasMarker (front.drop (front.length - windowBefore) ++
      back.take windowAfter) = false) (line : Nat) :
    beginsInComment short shellComments line = beginsInComment long shellComments line := by
  obtain ⟨init, left, right, tail, -, hleft, hright, hshortLines, hlongLines⟩ :=
    Text.exists_lines_insert front hbreak back
  rw [← hshortText] at hshortLines
  rw [← hlongText] at hlongLines
  -- Only the line in which the two parts meet gets longer.
  refine LineSource.beginsInComment_congr_of_ne init.length ?_ ?_ line
  · intro index hindex
    rw [hshort.lineText_eq, hlong.lineText_eq, hshortLines, hlongLines,
      Text.getElem?_append_cons_of_ne hindex]
  · generalize beginsInComment short shellComments init.length = starts
    have hshortLine : '\n' ∉ left ++ right :=
      Text.not_mem_of_mem_lines (hshortLines ▸ List.mem_append_right init List.mem_cons_self)
    have hlongLine : '\n' ∉ left ++ inserted ++ right :=
      Text.not_mem_of_mem_lines (hlongLines ▸ List.mem_append_right init List.mem_cons_self)
    have hquietWith := quiet_of_window hleft hright (hlongText ▸ hlongOnly) hwith
    have hquietWithout : Quiet shellComments (left.getLast?.toList ++ [] ++ right.head?.toList) :=
      quiet_of_window hleft hright (by simpa [← hshortText] using hshortOnly)
        (by simpa using hwithout)
    have honly : MarkerOnly shellComments (left ++ right) := by
      have hinfix := append_infix_append hleft [] hright
      rw [List.append_nil, List.append_nil, ← hshortText] at hinfix
      exact hshortOnly.of_infix hinfix
    rw [List.append_nil] at hquietWithout
    rw [hshort.lineText_eq, hlong.lineText_eq, hshortLines, hlongLines,
      List.getElem?_append_right (Nat.le_refl _), List.getElem?_append_right (Nat.le_refl _),
      Nat.sub_self]
    show Line.endsInComment (String.ofList (left ++ right)) starts shellComments =
      Line.endsInComment (String.ofList (left ++ inserted ++ right)) starts shellComments
    rw [← Automaton.isBlock_foldl_lineStart _ hshortLine,
      ← Automaton.isBlock_foldl_lineStart _ hlongLine]
    exact (Automaton.isBlock_foldl_insert honly hquietWith hquietWithout starts).symm

/-- An edit without line breaks whose window has no marker leaves all lines to begin as before, if
the text has nothing but comment markers before and after it. -/
theorem Indexed.beginsInComment_of_turns (hbuffer : buffer.Indexed) (hedited : edited.Indexed)
    (hturns : edit.Turns buffer.text.toList edited.text.toList) (hbreak : '\n' ∉ edit.text.toList)
    (hbefore : MarkerOnly shellComments buffer.text.toList)
    (hafter : MarkerOnly shellComments edited.text.toList)
    (htouches : edited.touchesMarker edit = false) (line : Nat) :
    beginsInComment buffer shellComments line = beginsInComment edited shellComments line := by
  obtain ⟨front, back, hlength, hkinds⟩ := hturns
  cases hkind : edit.kind with
  | insertion =>
      rw [hkind] at hkinds
      obtain ⟨hold, hnew⟩ := hkinds
      rw [touchesMarker_eq hlength (by rw [hkind]; exact hnew), Bool.or_eq_false_iff] at htouches
      exact beginsInComment_insert hbuffer hedited hold hnew hbreak hbefore hafter htouches.1
        htouches.2 line
  | removal =>
      rw [hkind] at hkinds
      obtain ⟨hold, hnew⟩ := hkinds
      rw [touchesMarker_eq hlength (by rw [hkind]; exact hnew), Bool.or_eq_false_iff] at htouches
      exact (beginsInComment_insert hedited hbuffer hnew hold hbreak hafter hbefore htouches.1
        htouches.2 line).symm

end TextBuffer

/-! ## Sessions -/

namespace Session

/-- The styler is told of what the action does to the text, edits neither add nor remove line
breaks, and the text has nothing but comment markers afterwards. -/
def KeepsMarkerOnly (language : Language) (session : Session) : Action → Prop
  | .edit request =>
      ∀ buffer edit, session.buffer.perform request = .ok (buffer, edit) →
        '\n' ∉ edit.text.toList ∧ MarkerOnly language.shellComments buffer.text.toList
  | .quietEdit _ => False
  | .replaceAll text => MarkerOnly language.shellComments text.toList
  | _ => True

variable {language : Language} {session later : Session} {action : Action}

/-- Such an action leaves the styler right about all lines. -/
theorem Sound.next_of_keepsMarkerOnly (h : Sound language session .all)
    (honly : MarkerOnly language.shellComments session.buffer.text.toList)
    (hkeeps : session.KeepsMarkerOnly language action) (hnext : session.next action = some later) :
    Sound language later .all ∧ MarkerOnly language.shellComments later.buffer.text.toList := by
  cases Step.of_next hnext with
  | @edit request buffer edit hperform =>
      obtain ⟨hbreak, hlater⟩ := hkeeps buffer edit hperform
      refine ⟨?_, hlater⟩
      by_cases htouches : buffer.touchesMarker edit = true
      · have hnoted := (h.perform hperform).noteEdit edit
        rw [if_pos htouches, limitTold_lower, Styler.limitTold_all] at hnoted
        exact hnoted
      · obtain ⟨hindexed, hturns⟩ := h.indexed.perform hperform
        rw [Styler.noteEdit, if_neg htouches]
        refine ⟨hindexed, h.shellComments, h.keywords, h.accurate.of_beginsInComment_eq ?_⟩
        exact h.indexed.beginsInComment_of_turns hindexed hturns hbreak honly hlater
          (Bool.eq_false_iff.mpr htouches)
  | quietEdit => exact hkeeps.elim
  | replaceAll text => exact ⟨h.noteReplaced (session.buffer.indexed_replaceAll text), hkeeps⟩
  | tell edit =>
      have hnoted := h.noteEdit edit
      rw [Styler.limitTold_all, ite_self] at hnoted
      exact ⟨hnoted, honly⟩
  | tellReplaced => exact ⟨h.noteReplaced h.indexed, honly⟩
  | question => exact ⟨h.askedFor _, honly⟩

/-- So does a run of such actions. -/
theorem Sound.run_of_keepsMarkerOnly (h : Sound language session .all)
    (honly : MarkerOnly language.shellComments session.buffer.text.toList) {actions : List Action}
    (hkeeps : session.Along (KeepsMarkerOnly language) actions)
    (hrun : session.run actions = some later) : Sound language later .all := by
  refine (hkeeps.invariant (fun session => Sound language session .all ∧
    MarkerOnly language.shellComments session.buffer.text.toList) ?_ ⟨h, honly⟩ hrun).1
  intro session later action hsession hcondition hnext
  exact hsession.1.next_of_keepsMarkerOnly hsession.2 hcondition hnext

/-- In a text that never has anything but comment markers, the styler answers for every line what a
new styler answers, whether or not the window around the edits had a marker in it. -/
theorem answers_as_fresh_of_markerOnly (language : Language) (text : String)
    (htext : MarkerOnly language.shellComments text.toList) {actions : List Action}
    (hkeeps : (start language text).Along (KeepsMarkerOnly language) actions)
    {session : Session} (hrun : (start language text).run actions = some session) :
    ∀ line < lineCount session.buffer, ∃ starts spans,
      session.styler.Answers session.buffer line starts spans ∧
        (Styler.ofLanguage language).Answers session.buffer line starts spans := by
  intro line hcount
  have hsound := (sound_ofLanguage language (TextBuffer.indexed_ofText text)).run_of_keepsMarkerOnly
    htext hkeeps hrun
  exact ⟨_, _, hsound.answers hcount trivial,
    (sound_ofLanguage language hsound.indexed).answers hcount trivial⟩

/-- A line before a comment gets longer, and no marker is near. -/
theorem answers_as_fresh_of_markerOnly_outside_window :
    MarkerOnly true "int /*\n*/ x".toList ∧
      (start ⟨"c", [], ["int"], true⟩ "int /*\n*/ x").Along
        (KeepsMarkerOnly ⟨"c", [], ["int"], true⟩) [.style 1, .edit (.insert 2 "*")] ∧
      ∃ session, (start ⟨"c", [], ["int"], true⟩ "int /*\n*/ x").run
          [.style 1, .edit (.insert 2 "*")] = some session ∧
        ∀ line < lineCount session.buffer, ∃ starts spans,
          session.styler.Answers session.buffer line starts spans ∧
            (Styler.ofLanguage ⟨"c", [], ["int"], true⟩).Answers session.buffer line starts
              spans := by
  have htext : MarkerOnly true "int /*\n*/ x".toList := by decide +kernel
  have hkeeps : (start ⟨"c", [], ["int"], true⟩ "int /*\n*/ x").Along
      (KeepsMarkerOnly ⟨"c", [], ["int"], true⟩) [.style 1, .edit (.insert 2 "*")] := by
    refine ⟨trivial, fun later hnext => ⟨?_, fun _ _ => trivial⟩⟩
    obtain ⟨done, hdone, hgood⟩ : ∃ done,
        (TextBuffer.ofText "int /*\n*/ x").perform (.insert 2 "*") = .ok done ∧
          '\n' ∉ done.2.text.toList ∧ MarkerOnly true done.1.text.toList :=
      ⟨_, rfl, by decide +kernel⟩
    cases Step.of_next hnext with
    | question =>
        intro buffer edit hperform
        obtain rfl := Except.ok.inj (hdone.symm.trans hperform)
        exact hgood
  have hrun : ∃ session, (start ⟨"c", [], ["int"], true⟩ "int /*\n*/ x").run
      [.style 1, .edit (.insert 2 "*")] = some session := ⟨_, rfl⟩
  obtain ⟨session, hrun⟩ := hrun
  exact ⟨htext, hkeeps, session, hrun,
    answers_as_fresh_of_markerOnly _ _ htext hkeeps hrun⟩

end Session

end Highlight
