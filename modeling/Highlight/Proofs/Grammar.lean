import Highlight.Line
import Mathlib.Algebra.Group.Nat.Even
import Mathlib.Data.List.DropRight

/-!
# The grammar of a scanned line

`Grammar.Form` says what a span of each kind looks like and what may come after it, without a word
about how a line is searched. `Grammar.IsReading` asks this of all spans of a line, from the first
to the last, and the main theorem, `isReading_iff_scan`, says that the scan gives the one reading
that each line has.

The work is done on lexemes, which have no positions. `forms_readCode` shows that what the scan
reads has the right form, and `Forms.readCode_flatten` that lexemes of the right form are read
again from their text.
-/

namespace Highlight

namespace Grammar

/-! ## Forms -/

/-- The text ends at the first place where it has the marker. -/
def EndsAtFirst (marker chars : List Char) : Prop :=
  marker <:+ chars ∧ ¬ marker <:+: chars.dropLast

/-- The number of backslashes at the end of a text. -/
def backslashes (chars : List Char) : Nat :=
  (chars.rtakeWhile (· == '\\')).length

/-- A text behind an opening mark in which the same mark closes nothing: each one is escaped. -/
def Unclosed (mark : Char) (body : List Char) : Prop :=
  ∀ front back, body = front ++ mark :: back → ¬ Even (backslashes (mark :: front))

/-- A text without quotes and without the beginning of a comment. -/
structure Plain (shellComments : Bool) (chars : List Char) : Prop where
  double : '"' ∉ chars
  single : '\'' ∉ chars
  block : ¬ ['/', '*'] <:+: chars
  line : ¬ ['/', '/'] <:+: chars
  shell : shellComments = true → '#' ∉ chars

/-- The forms of a lexeme that begins outside comments, given the lexemes after it. -/
inductive Form (shellComments : Bool) : Lexeme → List Lexeme → Prop where
  /-- A block comment that ends on the line. -/
  | blockComment {body : List Char} {after : List Lexeme} :
      EndsAtFirst ['*', '/'] body → Form shellComments ⟨.comment, '/' :: '*' :: body⟩ after
  /-- A block comment that goes on with the next line. -/
  | openComment {body : List Char} :
      ¬ ['*', '/'] <:+: body → Form shellComments ⟨.comment, '/' :: '*' :: body⟩ []
  | slashComment {body : List Char} : Form shellComments ⟨.comment, '/' :: '/' :: body⟩ []
  | shellComment {body : List Char} :
      shellComments = true → Form shellComments ⟨.comment, '#' :: body⟩ []
  /-- A string with its quotes. -/
  | string {mark : Char} {body : List Char} {after : List Lexeme} :
      mark = '"' ∨ mark = '\'' → Unclosed mark body → Even (backslashes (mark :: body)) →
      Form shellComments ⟨.string, mark :: (body ++ [mark])⟩ after
  /-- A string that the line leaves open. -/
  | error {mark : Char} {body : List Char} :
      mark = '"' ∨ mark = '\'' → Unclosed mark body →
      Form shellComments ⟨.error, mark :: body⟩ []
  /-- Plain text. It is as long as it can be, and no comment begins at its last character. -/
  | normal {chars : List Char} {after : List Lexeme} :
      chars ≠ [] → Plain shellComments chars →
      (∀ next ∈ after.head?, next.kind ≠ .normal ∧
        (next.chars.head? = some '/' → chars.getLast? ≠ some '/')) →
      Form shellComments ⟨.normal, chars⟩ after

/-- Every lexeme has a form. -/
def Forms (shellComments : Bool) : List Lexeme → Prop
  | [] => True
  | lexeme :: after => Form shellComments lexeme after ∧ Forms shellComments after

/-- The form of the first lexeme of a line that begins inside a block comment. -/
def Continues (lexeme : Lexeme) (after : List Lexeme) : Prop :=
  lexeme.kind = .comment ∧
    (EndsAtFirst ['*', '/'] lexeme.chars ∨ ¬ ['*', '/'] <:+: lexeme.chars ∧ after = [])

/-- Each span starts where the one before it stops. -/
def Consecutive : Nat → List Span → Prop
  | _, [] => True
  | start, span :: rest => span.start = start ∧ Consecutive span.stop rest

end Grammar

/-- A span without its position. -/
def Span.lexeme (span : Span) : Lexeme :=
  ⟨span.kind, span.text.toList⟩

namespace Grammar

/-- The spans are a reading of the line. -/
structure IsReading (line : String) (startsInComment shellComments : Bool)
    (spans : List Span) : Prop where
  concat_eq : Span.concat spans = line
  consecutive : Consecutive 0 spans
  forms :
    if startsInComment = true ∧ line ≠ "" then
      ∃ first rest, spans.map Span.lexeme = first :: rest ∧ Continues first rest ∧
        Forms shellComments rest
    else Forms shellComments (spans.map Span.lexeme)

/-! ## Block comments -/

/-- A text that ends at a marker of two characters has at least these two. -/
theorem EndsAtFirst.exists_cons {first second : Char} {chars : List Char}
    (h : EndsAtFirst [first, second] chars) : ∃ c d rest, chars = c :: d :: rest := by
  have hlength := h.1.length_le
  match chars, hlength with
  | c :: d :: rest, _ => exact ⟨c, d, rest, rfl⟩

/-- Before a text that ends at a marker there can be a character with which the marker does not
begin. -/
theorem endsAtFirst_cons {c : Char} {chars : List Char}
    (h : ∀ rest, c :: chars ≠ '*' :: '/' :: rest) :
    EndsAtFirst ['*', '/'] (c :: chars) ↔ EndsAtFirst ['*', '/'] chars := by
  cases chars with
  | nil =>
      constructor
      · intro hends
        obtain ⟨c', d, rest, hcons⟩ := hends.exists_cons
        cases hcons
      · intro hends
        obtain ⟨c', d, rest, hcons⟩ := hends.exists_cons
        cases hcons
  | cons d rest =>
      -- Whatever comes behind its second character, the text does not begin with the marker.
      have hbegin (tail : List Char) : ¬ ['*', '/'] <+: c :: d :: tail := by
        intro hprefix
        obtain ⟨rfl, htail⟩ := List.cons_prefix_cons.mp hprefix
        obtain ⟨rfl, -⟩ := List.cons_prefix_cons.mp htail
        exact h rest rfl
      have hsuffix : ['*', '/'] <:+ c :: d :: rest ↔ ['*', '/'] <:+ d :: rest := by
        rw [List.suffix_cons_iff, or_iff_right]
        intro heq
        obtain ⟨rfl, htail⟩ := List.cons.inj heq
        obtain ⟨rfl, -⟩ := List.cons.inj htail
        exact h _ rfl
      have hinfix : ['*', '/'] <:+: (c :: d :: rest).dropLast ↔
          ['*', '/'] <:+: (d :: rest).dropLast := by
        rw [List.dropLast_cons_of_ne_nil (List.cons_ne_nil d rest), List.infix_cons_iff,
          or_iff_right]
        intro hprefix
        cases rest with
        | nil => simp at hprefix
        | cons e rest =>
            rw [List.dropLast_cons_of_ne_nil (List.cons_ne_nil e rest)] at hprefix
            exact hbegin _ hprefix
      rw [EndsAtFirst, EndsAtFirst, hsuffix, hinfix]

/-- The end of a comment ends with its first end. -/
theorem endsAtFirst_marker : EndsAtFirst ['*', '/'] ['*', '/'] :=
  ⟨List.suffix_rfl, by decide⟩

/-- A block comment is cut at its first end marker. -/
theorem endsAtFirst_of_blockEnd? {chars body after : List Char}
    (h : Lexeme.blockEnd? chars = some (body, after)) : EndsAtFirst ['*', '/'] body := by
  fun_induction Lexeme.blockEnd? chars generalizing body after with
  | case1 rest =>
      obtain ⟨rfl, rfl⟩ := by simpa using h
      exact endsAtFirst_marker
  | case2 c chars hmarker ih =>
      obtain ⟨⟨body', after'⟩, hend, hparts⟩ := Option.map_eq_some_iff.mp h
      obtain ⟨rfl, rfl⟩ := by simpa using hparts
      refine (endsAtFirst_cons ?_).mpr (ih hend)
      intro rest hrest
      obtain ⟨rfl, rfl⟩ := List.cons.inj hrest
      exact hmarker _ rfl (Lexeme.append_of_blockEnd? hend)
  | case3 => cases h

/-- A text that ends at its first end marker is cut off from what follows it. -/
theorem blockEnd?_append {body : List Char} (h : EndsAtFirst ['*', '/'] body)
    (after : List Char) : Lexeme.blockEnd? (body ++ after) = some (body, after) := by
  induction body with
  | nil =>
      obtain ⟨c, d, rest, hcons⟩ := h.exists_cons
      cases hcons
  | cons c body ih =>
      by_cases hmarker : ∃ rest, c :: body = '*' :: '/' :: rest
      · obtain ⟨rest, hrest⟩ := hmarker
        obtain ⟨rfl, rfl⟩ := List.cons.inj hrest
        -- Anything behind the marker would make it an earlier one than the last.
        cases rest with
        | nil => rfl
        | cons e rest =>
            refine absurd ?_ h.2
            exact (List.prefix_append ['*', '/'] ((e :: rest).dropLast)).isInfix
      · have hbegin : ∀ rest, c :: body ≠ '*' :: '/' :: rest := not_exists.mp hmarker
        have hbody := (endsAtFirst_cons hbegin).mp h
        have hbegin' : ∀ rest, c :: (body ++ after) ≠ '*' :: '/' :: rest := by
          intro rest hrest
          obtain ⟨d, e, tail, rfl⟩ := hbody.exists_cons
          obtain ⟨rfl, htail⟩ := List.cons.inj hrest
          obtain ⟨rfl, -⟩ := List.cons.inj htail
          exact hbegin _ rfl
        rw [List.cons_append, Lexeme.blockEnd?_cons hbegin', ih hbody]
        rfl

/-- A block comment goes on with the next line if its end marker is nowhere. -/
theorem blockEnd?_eq_none_iff {chars : List Char} :
    Lexeme.blockEnd? chars = none ↔ ¬ ['*', '/'] <:+: chars := by
  fun_induction Lexeme.blockEnd? chars with
  | case1 rest =>
      have hmarker : ['*', '/'] <:+: '*' :: '/' :: rest :=
        (List.prefix_append ['*', '/'] rest).isInfix
      simp [hmarker]
  | case2 c chars hmarker ih =>
      rw [Option.map_eq_none_iff, ih, List.infix_cons_iff, or_iff_right]
      intro hbegins
      obtain ⟨rest, hrest⟩ := hbegins
      obtain ⟨rfl, rfl⟩ := List.cons.inj hrest
      exact hmarker _ rfl rfl
  | case3 => simp

/-! ## Strings -/

/-- A text in which the mark closes nothing, when `passed` stands backwards before it. -/
def StaysOpen (mark : Char) (passed body : List Char) : Prop :=
  ∀ front back, body = front ++ mark :: back →
    ¬ Even (Quote.countLeading '\\' (front.reverse ++ passed))

variable {mark : Char} {passed body after : List Char}

/-- Behind a mark as many backslashes are counted as stand in front of it. -/
theorem countLeading_eq_backslashes (mark : Char) (front : List Char) :
    Quote.countLeading '\\' (front.reverse ++ [mark]) = backslashes (mark :: front) := by
  simp [Quote.countLeading, backslashes, List.rtakeWhile]

/-- A quotation stays open behind its mark if and only if nothing in it closes it. -/
theorem staysOpen_singleton_iff : StaysOpen mark [mark] body ↔ Unclosed mark body := by
  simp only [StaysOpen, Unclosed, countLeading_eq_backslashes]

/-- Going over one character moves it to those that were passed. -/
theorem staysOpen_cons {c : Char} : StaysOpen mark passed (c :: body) ↔
    ¬ (c = mark ∧ Even (Quote.countLeading '\\' passed)) ∧ StaysOpen mark (c :: passed) body := by
  constructor
  · intro hopen
    refine ⟨?_, fun front back hbody => ?_⟩
    · intro hcloses
      obtain ⟨rfl, heven⟩ := hcloses
      exact hopen [] body rfl heven
    · have hfront := hopen (c :: front) back (by rw [hbody]; rfl)
      rwa [List.reverse_cons, List.append_assoc] at hfront
  · rintro ⟨hhead, hrest⟩ front back hbody
    cases front with
    | nil =>
        obtain ⟨rfl, rfl⟩ := List.cons.inj hbody
        exact fun heven => hhead ⟨rfl, heven⟩
    | cons d front =>
        obtain ⟨rfl, rfl⟩ := List.cons.inj hbody
        rw [List.reverse_cons, List.append_assoc]
        exact hrest front back rfl

/-- A string is closed by a mark if it is not escaped. -/
theorem close?_cons (c : Char) (rest : List Char) :
    Quote.close? '\\' mark passed (c :: rest) =
      if c = mark ∧ Even (Quote.countLeading '\\' passed) then some ([c], rest)
      else (Quote.close? '\\' mark (c :: passed) rest).map fun parts =>
        (c :: parts.1, parts.2) := by
  rw [Quote.close?]
  simp only [Bool.and_eq_true, beq_iff_eq, Nat.even_iff]

/-- A string stays open if the scan finds no end. -/
theorem close?_eq_none_iff :
    Quote.close? '\\' mark passed body = none ↔ StaysOpen mark passed body := by
  induction body generalizing passed with
  | nil => simp [Quote.close?, StaysOpen]
  | cons c body ih =>
      rw [close?_cons, staysOpen_cons, ← ih]
      split
      · rename_i hclose
        simp [hclose]
      · rename_i hclose
        rw [Option.map_eq_none_iff, and_iff_right hclose]

/-- A string is cut at the first mark that closes it. -/
theorem staysOpen_of_close? {rest : List Char}
    (h : Quote.close? '\\' mark passed rest = some (body, after)) :
    ∃ inside, body = inside ++ [mark] ∧ StaysOpen mark passed inside ∧
      Even (Quote.countLeading '\\' (inside.reverse ++ passed)) := by
  induction rest generalizing passed body with
  | nil => cases h
  | cons c rest ih =>
      rw [close?_cons] at h
      split at h
      · rename_i hclose
        obtain ⟨rfl, heven⟩ := hclose
        obtain ⟨rfl, rfl⟩ := Prod.mk.inj (Option.some.inj h)
        exact ⟨[], rfl, by simp [StaysOpen], heven⟩
      · rename_i hhead
        obtain ⟨⟨body', after'⟩, hrest, hparts⟩ := Option.map_eq_some_iff.mp h
        obtain ⟨rfl, rfl⟩ := Prod.mk.inj hparts
        obtain ⟨inside, rfl, hopen, heven⟩ := ih hrest
        refine ⟨c :: inside, rfl, staysOpen_cons.mpr ⟨hhead, hopen⟩, ?_⟩
        rwa [List.reverse_cons, List.append_assoc]

/-- The inside of a string is cut off with the mark that closes it. -/
theorem close?_append (hopen : StaysOpen mark passed body)
    (hclose : Even (Quote.countLeading '\\' (body.reverse ++ passed))) (after : List Char) :
    Quote.close? '\\' mark passed (body ++ mark :: after) = some (body ++ [mark], after) := by
  induction body generalizing passed with
  | nil => rw [List.nil_append, close?_cons, if_pos ⟨rfl, hclose⟩]; rfl
  | cons c body ih =>
      obtain ⟨hhead, hrest⟩ := staysOpen_cons.mp hopen
      rw [List.reverse_cons, List.append_assoc] at hclose
      rw [List.cons_append, close?_cons, if_neg hhead, ih hrest hclose]
      rfl

/-! ## Plain text -/

open Lexeme (opening opening_eq_plain_iff plainRun firstLexeme readCode readComment flatten)

variable {shellComments : Bool} {c : Char} {rest chars : List Char}

/-- The empty text is plain. -/
theorem plain_nil : Plain shellComments [] := by
  constructor <;> simp

/-- A text is plain if its first character is and the others are. -/
theorem plain_cons : Plain shellComments (c :: rest) ↔
    opening shellComments (c :: rest) = .plain ∧ Plain shellComments rest := by
  rw [opening_eq_plain_iff]
  constructor
  · intro hplain
    obtain ⟨hdouble, hsingle, hblock, hline, hshell⟩ := hplain
    simp only [List.mem_cons, not_or, List.infix_cons_iff] at hdouble hsingle hblock hline hshell
    refine ⟨⟨Ne.symm hdouble.1, Ne.symm hsingle.1, hblock.1, hline.1, ?_⟩,
      hdouble.2, hsingle.2, hblock.2, hline.2, fun hon => (hshell hon).2⟩
    exact fun hon => Ne.symm (hshell hon).1
  · intro hplain
    obtain ⟨⟨hdouble, hsingle, hblock, hline, hshell⟩, hrest⟩ := hplain
    constructor
    · exact List.not_mem_cons_of_ne_of_not_mem (Ne.symm hdouble) hrest.double
    · exact List.not_mem_cons_of_ne_of_not_mem (Ne.symm hsingle) hrest.single
    · exact fun h => (List.infix_cons_iff.mp h).elim hblock hrest.block
    · exact fun h => (List.infix_cons_iff.mp h).elim hline hrest.line
    · intro hon
      exact List.not_mem_cons_of_ne_of_not_mem (Ne.symm (hshell hon)) (hrest.shell hon)

/-- Whether a character is plain depends on what is behind it only if it is a slash and the last of
its text. -/
theorem opening_append (h : opening shellComments (c :: rest) = .plain) {after : List Char}
    (hlast : rest = [] → c = '/' → after.head? ≠ some '*' ∧ after.head? ≠ some '/') :
    opening shellComments (c :: rest ++ after) = .plain := by
  obtain ⟨hdouble, hsingle, hblock, hline, hshell⟩ := opening_eq_plain_iff.mp h
  cases rest with
  | cons d rest =>
      refine opening_eq_plain_iff.mpr ⟨hdouble, hsingle, ?_, ?_, hshell⟩
      · intro hprefix
        exact hblock (by simpa using hprefix)
      · intro hprefix
        exact hline (by simpa using hprefix)
  | nil =>
      refine opening_eq_plain_iff.mpr ⟨hdouble, hsingle, ?_, ?_, hshell⟩
      · intro hbegins
        obtain ⟨tail, htail⟩ := hbegins
        obtain ⟨rfl, rfl⟩ := List.cons.inj htail
        exact (hlast rfl rfl).1 rfl
      · intro hbegins
        obtain ⟨tail, htail⟩ := hbegins
        obtain ⟨rfl, rfl⟩ := List.cons.inj htail
        exact (hlast rfl rfl).2 rfl

/-- What is plain in a longer text is plain in its beginning. -/
theorem opening_of_append {after : List Char}
    (h : opening shellComments (c :: rest ++ after) = .plain) :
    opening shellComments (c :: rest) = .plain := by
  obtain ⟨hdouble, hsingle, hblock, hline, hshell⟩ := opening_eq_plain_iff.mp h
  exact opening_eq_plain_iff.mpr ⟨hdouble, hsingle,
    fun hbegins => hblock (hbegins.trans (List.prefix_append _ _)),
    fun hbegins => hline (hbegins.trans (List.prefix_append _ _)), hshell⟩

/-- Plain text is cut off from an opening behind it, unless a comment begins at its last
character. -/
theorem plainRun_append (h : Plain shellComments chars) {after : List Char}
    (hafter : after ≠ [] → opening shellComments after ≠ .plain)
    (hslash : after.head? = some '/' → chars.getLast? ≠ some '/') :
    plainRun shellComments (chars ++ after) = (chars, after) := by
  induction chars with
  | nil =>
      cases after with
      | nil => rfl
      | cons d after => rw [List.nil_append, plainRun, if_neg (hafter (List.cons_ne_nil d after))]
  | cons c rest ih =>
      obtain ⟨hplain, hrest⟩ := plain_cons.mp h
      have hopening : opening shellComments (c :: rest ++ after) = .plain := by
        refine opening_append hplain ?_
        rintro rfl rfl
        refine ⟨fun hstar => ?_, fun hhead => hslash hhead rfl⟩
        obtain ⟨tail, rfl⟩ := List.head?_eq_some_iff.mp hstar
        exact hafter (List.cons_ne_nil _ _) rfl
      have hlast : after.head? = some '/' → rest.getLast? ≠ some '/' := by
        intro hhead hrestLast
        refine hslash hhead ?_
        rw [List.getLast?_cons, hrestLast]
        rfl
      rw [List.cons_append] at hopening ⊢
      rw [plainRun, if_pos hopening, ih hrest hlast]

/-- What is cut off as plain text is plain, and behind it something opens. -/
theorem plain_plainRun (shellComments : Bool) (chars : List Char) :
    Plain shellComments (plainRun shellComments chars).1 ∧
      ((plainRun shellComments chars).2 ≠ [] →
        opening shellComments (plainRun shellComments chars).2 ≠ .plain) ∧
      ((plainRun shellComments chars).2.head? = some '/' →
        (plainRun shellComments chars).1.getLast? ≠ some '/') := by
  induction chars with
  | nil => exact ⟨plain_nil, fun h => absurd rfl h, fun h => by cases h⟩
  | cons c rest ih =>
      have happend := Lexeme.plainRun_append shellComments rest
      rw [plainRun]
      split
      · rename_i hopening
        obtain ⟨hplain, hafter, hslash⟩ := ih
        rw [← happend] at hopening
        refine ⟨plain_cons.mpr ⟨opening_of_append hopening, hplain⟩, hafter, ?_⟩
        intro hhead hlast
        -- If the slash stands alone in the run, it and the slash behind it open a line comment.
        cases hrun : (plainRun shellComments rest).1 with
        | nil =>
            obtain ⟨tail, htail⟩ := List.head?_eq_some_iff.mp hhead
            obtain rfl : c = '/' := by simpa [hrun] using hlast
            rw [hrun, htail] at hopening
            cases hopening
        | cons d run =>
            refine hslash hhead ?_
            rw [hrun]
            simpa [hrun, List.getLast?_cons] using hlast
      · rename_i hopening
        exact ⟨plain_nil, fun _ => hopening, fun _ h => by cases h⟩

/-! ## Lexemes -/

/-- A lexeme is plain text if nothing opens where it begins. -/
theorem firstLexeme_kind_eq_normal_iff (c : Char) (rest : List Char) :
    (firstLexeme shellComments c rest).lexeme.kind = .normal ↔
      opening shellComments (c :: rest) = .plain := by
  unfold firstLexeme
  split
  · rename_i hopening
    simp [hopening]
  · rename_i hopening
    simp [hopening]
  · rename_i hopening
    split <;> simp [hopening]
  · rename_i hopening
    split <;> simp [hopening]

/-- The first lexeme of a text that begins with an opening is no plain text. -/
theorem kind_of_mem_head?_readCode (hopening : chars ≠ [] → opening shellComments chars ≠ .plain)
    {next : Lexeme} (h : next ∈ (readCode shellComments chars).lexemes.head?) :
    next.kind ≠ .normal ∧ next.chars.head? = chars.head? := by
  cases chars with
  | nil =>
      rw [readCode] at h
      cases h
  | cons c rest =>
      rw [readCode] at h
      obtain rfl : (firstLexeme shellComments c rest).lexeme = next := Option.some.inj h
      obtain ⟨more, hmore⟩ := Lexeme.exists_firstLexeme_chars shellComments c rest
      refine ⟨fun hkind => ?_, by rw [hmore]; rfl⟩
      exact hopening (List.cons_ne_nil c rest) ((firstLexeme_kind_eq_normal_iff c rest).mp hkind)

/-- The first lexeme that is read has a form. -/
theorem form_firstLexeme (shellComments : Bool) (c : Char) (rest : List Char) :
    Form shellComments (firstLexeme shellComments c rest).lexeme
      (readCode shellComments (firstLexeme shellComments c rest).rest).lexemes := by
  have hnil : (readCode shellComments []).lexemes = [] := by rw [readCode]
  unfold firstLexeme
  split
  · rename_i hopening
    have hrun := plain_plainRun shellComments (c :: rest)
    rw [plainRun, if_pos hopening] at hrun
    obtain ⟨hplain, hafter, hslash⟩ := hrun
    refine .normal (List.cons_ne_nil _ _) hplain fun next hnext => ?_
    obtain ⟨hkind, hhead⟩ := kind_of_mem_head?_readCode hafter hnext
    exact ⟨hkind, fun h => hslash (hhead ▸ h)⟩
  · rename_i hopening
    rw [hnil]
    rcases Lexeme.opening_eq_lineComment_iff.mp hopening with ⟨line, hline⟩ | ⟨hshell, line, hline⟩
    · rw [hline]
      exact .slashComment
    · rw [hline]
      exact .shellComment hshell
  · rename_i hopening
    obtain ⟨line, hline⟩ := Lexeme.opening_eq_blockComment_iff.mp hopening
    obtain ⟨rfl, rfl⟩ := List.cons.inj hline
    rw [List.drop_one, List.tail_cons]
    split
    · rename_i body after hend
      exact .blockComment (endsAtFirst_of_blockEnd? hend)
    · rename_i hend
      rw [hnil]
      exact .openComment (blockEnd?_eq_none_iff.mp hend)
  · rename_i mark hopening
    obtain ⟨hmark, line, hline⟩ := Lexeme.opening_eq_quote_iff.mp hopening
    obtain ⟨rfl, rfl⟩ := List.cons.inj hline
    split
    · rename_i body after hclose
      obtain ⟨inside, rfl, hopen, heven⟩ := staysOpen_of_close? hclose
      rw [countLeading_eq_backslashes] at heven
      exact .string hmark (staysOpen_singleton_iff.mp hopen) heven
    · rename_i hclose
      rw [hnil]
      exact .error hmark (staysOpen_singleton_iff.mp (close?_eq_none_iff.mp hclose))

/-- What is read from a text that begins outside comments has the right form. -/
theorem forms_readCode (shellComments : Bool) (chars : List Char) :
    Forms shellComments (readCode shellComments chars).lexemes := by
  fun_induction readCode shellComments chars with
  | case1 => exact trivial
  | case2 c rest step ih => exact ⟨form_firstLexeme shellComments c rest, ih⟩

variable {lexeme : Lexeme} {later lexemes : List Lexeme}

/-- A lexeme that has its form is not empty. -/
theorem Form.chars_ne_nil (h : Form shellComments lexeme later) : lexeme.chars ≠ [] := by
  cases h with
  | normal hchars => exact hchars
  | blockComment | openComment | slashComment | shellComment | string | error => simp

/-- A lexeme that is not plain text begins with an opening. -/
theorem Form.opening_ne_plain (h : Form shellComments lexeme later)
    (hkind : lexeme.kind ≠ .normal) (rest : List Char) :
    opening shellComments (lexeme.chars ++ rest) ≠ .plain := by
  intro hplain
  cases h with
  | blockComment | openComment | slashComment => cases hplain
  | shellComment hshell =>
      subst hshell
      cases hplain
  | string hmark | error hmark => rcases hmark with rfl | rfl <;> cases hplain
  | normal => exact hkind rfl

/-- A lexeme of the right form is read first from its text and the texts of those after it. -/
theorem Form.exists_firstLexeme (h : Form shellComments lexeme later)
    (hlater : Forms shellComments later) :
    ∃ c rest, lexeme.chars ++ flatten later = c :: rest ∧
      (firstLexeme shellComments c rest).lexeme = lexeme ∧
      (firstLexeme shellComments c rest).rest = flatten later := by
  cases h with
  | @blockComment body _ hends =>
      refine ⟨'/', '*' :: (body ++ flatten later), rfl, ?_⟩
      simp [firstLexeme, opening, blockEnd?_append hends]
  | @openComment body hopen =>
      refine ⟨'/', '*' :: body, by simp, ?_⟩
      simp [firstLexeme, opening, blockEnd?_eq_none_iff.mpr hopen]
  | @slashComment body => exact ⟨'/', '/' :: body, by simp, rfl, rfl⟩
  | @shellComment body hshell =>
      subst hshell
      exact ⟨'#', body, by simp, rfl, rfl⟩
  | @string mark body _ hmark hopen hclose =>
      refine ⟨mark, body ++ mark :: flatten later, by simp, ?_⟩
      have hopening : opening shellComments (mark :: (body ++ mark :: flatten later)) =
          .quote mark := Lexeme.opening_eq_quote_iff.mpr ⟨hmark, _, rfl⟩
      rw [← countLeading_eq_backslashes] at hclose
      simp [firstLexeme, hopening, close?_append (staysOpen_singleton_iff.mpr hopen) hclose]
  | @error mark body hmark hopen =>
      refine ⟨mark, body, by simp, ?_⟩
      have hopening : opening shellComments (mark :: body) = .quote mark :=
        Lexeme.opening_eq_quote_iff.mpr ⟨hmark, body, rfl⟩
      have hnone := close?_eq_none_iff.mpr (staysOpen_singleton_iff.mpr hopen)
      simp [firstLexeme, hopening, hnone]
  | @normal chars _ hchars hplain hnext =>
      -- No plain text follows plain text, so an opening does, and the run of plain text ends there.
      have hafter : flatten later ≠ [] → opening shellComments (flatten later) ≠ .plain := by
        cases later with
        | nil => exact fun h => absurd rfl h
        | cons next tail => exact fun _ => hlater.1.opening_ne_plain (hnext next rfl).1 _
      have hslash : (flatten later).head? = some '/' → chars.getLast? ≠ some '/' := by
        cases later with
        | nil => exact fun h => by cases h
        | cons next tail =>
            obtain ⟨d, more, hmore⟩ := List.exists_cons_of_ne_nil hlater.1.chars_ne_nil
            intro hhead
            refine (hnext next rfl).2 ?_
            rw [← hhead, Lexeme.flatten_cons, hmore]
            rfl
      have hrun := plainRun_append hplain hafter hslash
      obtain ⟨c, more, rfl⟩ := List.exists_cons_of_ne_nil hchars
      refine ⟨c, more ++ flatten later, rfl, ?_⟩
      rw [List.cons_append, plainRun] at hrun
      split at hrun
      · rename_i hopening
        obtain ⟨hmore, hrest⟩ := Prod.mk.inj hrun
        rw [firstLexeme, hopening]
        simp only [hmore, hrest, and_self]
      · cases (Prod.mk.inj hrun).1

/-- Lexemes of the right form are read again from their text. -/
theorem Forms.readCode_flatten (h : Forms shellComments lexemes) :
    (readCode shellComments (flatten lexemes)).lexemes = lexemes := by
  induction lexemes with
  | nil => rw [Lexeme.flatten_nil, readCode]
  | cons lexeme later ih =>
      obtain ⟨hform, hlater⟩ := h
      obtain ⟨c, rest, hchars, hlexeme, hrest⟩ := hform.exists_firstLexeme hlater
      rw [Lexeme.flatten_cons, hchars, readCode]
      show (firstLexeme shellComments c rest).lexeme :: _ = _
      rw [hlexeme, hrest, ih hlater]

/-- The lexemes of the right form are those that are read outside comments. -/
theorem readCode_flatten_iff :
    (readCode shellComments (flatten lexemes)).lexemes = lexemes ↔ Forms shellComments lexemes := by
  refine ⟨fun h => ?_, Forms.readCode_flatten⟩
  rw [← h]
  exact forms_readCode shellComments (flatten lexemes)

/-- What is read from a text that begins inside a block comment has the right form. -/
theorem exists_readComment (shellComments : Bool) (c : Char) (rest : List Char) :
    ∃ first later, (readComment shellComments (c :: rest)).lexemes = first :: later ∧
      Continues first later ∧ Forms shellComments later := by
  rw [readComment]
  split
  · rename_i body after hend
    exact ⟨_, _, rfl, ⟨rfl, .inl (endsAtFirst_of_blockEnd? hend)⟩, forms_readCode _ after⟩
  · rename_i hend
    exact ⟨_, _, rfl, ⟨rfl, .inr ⟨blockEnd?_eq_none_iff.mp hend, rfl⟩⟩, trivial⟩

/-- The first lexeme of a line that begins inside a block comment is read again from its text, with
the lexemes after it. -/
theorem Continues.readComment_flatten (h : Continues lexeme later)
    (hlater : Forms shellComments later) {c : Char} {rest : List Char}
    (hchars : flatten (lexeme :: later) = c :: rest) :
    (readComment shellComments (c :: rest)).lexemes = lexeme :: later := by
  obtain ⟨kind, chars⟩ := lexeme
  obtain ⟨rfl, hends | ⟨hopen, rfl⟩⟩ := h
  · have hend : Lexeme.blockEnd? (c :: rest) = some (chars, flatten later) := by
      rw [← hchars]
      exact blockEnd?_append hends (flatten later)
    rw [readComment, hend]
    show _ :: (readCode shellComments (flatten later)).lexemes = _
    rw [hlater.readCode_flatten]
  · obtain rfl : chars = c :: rest := by simpa using hchars
    rw [readComment, blockEnd?_eq_none_iff.mpr hopen]

/-! ## Spans -/

/-- Spans are consecutive if they are where they are put when laid out again. -/
theorem layOut_map_lexeme_iff {start : Nat} {spans : List Span} :
    Lexeme.layOut start (spans.map Span.lexeme) = spans ↔ Consecutive start spans := by
  induction spans generalizing start with
  | nil => simp [Lexeme.layOut, Consecutive]
  | cons span rest ih =>
      have hspan : (⟨span.kind, start, String.ofList span.text.toList⟩ : Span) =
          { span with start := start } := by rw [String.ofList_toList]
      rw [List.map_cons, Lexeme.layOut, Span.lexeme, hspan, List.cons.injEq, Consecutive, ih]
      constructor
      · intro hspans
        obtain ⟨hstart, hrest⟩ := hspans
        rw [hstart] at hrest
        exact ⟨(congrArg Span.start hstart).symm, hrest⟩
      · intro hspans
        obtain ⟨rfl, hrest⟩ := hspans
        exact ⟨rfl, hrest⟩

/-- Lexemes are those of the spans that they are laid out as. -/
theorem map_lexeme_layOut (start : Nat) (lexemes : List Lexeme) :
    (Lexeme.layOut start lexemes).map Span.lexeme = lexemes := by
  induction lexemes generalizing start with
  | nil => rfl
  | cons lexeme rest ih => rw [Lexeme.layOut, List.map_cons, ih, Span.lexeme, String.toList_ofList]

/-- The lexemes of a line are the lexemes of the right form that make it up. -/
theorem read_eq_iff {line : String} {startsInComment : Bool}
    (h : flatten lexemes = line.toList) :
    (Line.read startsInComment shellComments line).lexemes = lexemes ↔
      if startsInComment = true ∧ line ≠ "" then
        ∃ first rest, lexemes = first :: rest ∧ Continues first rest ∧ Forms shellComments rest
      else Forms shellComments lexemes := by
  rw [Line.read, ← h]
  cases startsInComment with
  | false => simpa using readCode_flatten_iff
  | true =>
      cases hchars : line.toList with
      | nil =>
          have hline : line = "" := String.toList_inj.mp hchars
          have hcode : (readCode shellComments []).lexemes = [] := by rw [readCode]
          rw [if_pos rfl, if_neg fun hne => hne.2 hline, ← readCode_flatten_iff, h, hchars, hcode]
          rfl
      | cons c rest =>
          have hline : line ≠ "" := by
            intro hempty
            subst hempty
            cases hchars
          rw [if_pos rfl, if_pos ⟨rfl, hline⟩]
          rw [hchars] at h
          constructor
          · intro hread
            rw [← hread, h]
            exact exists_readComment shellComments c rest
          · intro hparts
            obtain ⟨first, later, rfl, hcontinues, hlater⟩ := hparts
            rw [h]
            exact hcontinues.readComment_flatten hlater h

/-- A list of spans is a reading of a line if and only if it is what the scan of the line gives. So
each line has one reading. -/
theorem isReading_iff_scan (line : String) (startsInComment shellComments : Bool)
    (spans : List Span) :
    IsReading line startsInComment shellComments spans ↔
      (Line.scan line startsInComment shellComments).spans = spans := by
  have hconcat : flatten (spans.map Span.lexeme) = (Span.concat spans).toList := by
    induction spans with
    | nil => rfl
    | cons span rest ih =>
        rw [List.map_cons, Lexeme.flatten_cons, ih, Span.concat_cons, String.toList_append]
        rfl
  constructor
  · intro hreading
    obtain ⟨rfl, hconsecutive, hforms⟩ := hreading
    rw [Line.scan, (read_eq_iff hconcat).mpr hforms]
    exact layOut_map_lexeme_iff.mpr hconsecutive
  · intro hscan
    have hline : Span.concat spans = line := hscan ▸ Line.concat_scan ..
    have hread : (Line.read startsInComment shellComments line).lexemes =
        spans.map Span.lexeme := by
      rw [← hscan, Line.scan, map_lexeme_layOut]
    refine ⟨hline, ?_, (read_eq_iff (hline ▸ hconcat)).mp hread⟩
    rw [← layOut_map_lexeme_iff, ← hread]
    exact hscan

end Grammar

end Highlight
