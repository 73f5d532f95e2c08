import Highlight.Lexeme.Quote
import Highlight.Span

/-!
# Lexemes of a line

Outside comments a line falls into lexemes from left to right. A quote opens a string, a line
comment runs to the end, a block comment runs to the first end marker after its opener, and the
plain text up to the next such opening is one lexeme of its own. `firstLexeme` reads one lexeme and
`readCode` all of them. A lexeme has no position; `layOut` turns lexemes into spans by placing one
after the other.
-/

namespace Highlight

/-- A piece of a line with its lexical kind. -/
structure Lexeme where
  kind : SpanKind
  chars : List Char
  deriving DecidableEq, Repr

namespace Lexeme

/-- The lexemes as spans, the first one at byte `start` and each next one where the last ends. -/
def layOut (start : Nat) : List Lexeme → List Span
  | [] => []
  | lexeme :: rest =>
      let span : Span := ⟨lexeme.kind, start, String.ofList lexeme.chars⟩
      span :: layOut span.stop rest

/-- The characters of the lexemes one after the other. -/
def flatten (lexemes : List Lexeme) : List Char :=
  lexemes.flatMap Lexeme.chars

/-- No lexemes have no text. -/
@[simp]
theorem flatten_nil : flatten [] = [] := rfl

/-- The text of the first lexeme comes first. -/
@[simp]
theorem flatten_cons (lexeme : Lexeme) (rest : List Lexeme) :
    flatten (lexeme :: rest) = lexeme.chars ++ flatten rest := rfl

/-- Laid out or not, lexemes have the same text. -/
theorem toList_concat_layOut (start : Nat) (lexemes : List Lexeme) :
    (Span.concat (layOut start lexemes)).toList = flatten lexemes := by
  induction lexemes generalizing start with
  | nil => rfl
  | cons lexeme rest ih =>
      rw [layOut, Span.concat_cons, String.toList_append, ih, String.toList_ofList, flatten_cons]

/-- What a text outside strings and comments begins with. -/
inductive Opening where
  /-- A comment that runs to the end of the line. -/
  | lineComment
  /-- A comment that runs to its end marker, on this line or a later one. -/
  | blockComment
  /-- A string or character literal that the same mark closes. -/
  | quote (mark : Char)
  /-- A character of plain text. -/
  | plain
  deriving DecidableEq, Repr

/-- The opening at the front of a text. A number sign opens a line comment in languages with
shell comments only. -/
def opening (shellComments : Bool) : List Char → Opening
  | '/' :: '*' :: _ => .blockComment
  | '/' :: '/' :: _ => .lineComment
  | '#' :: _ => if shellComments then .lineComment else .plain
  | '"' :: _ => .quote '"'
  | '\'' :: _ => .quote '\''
  | _ => .plain

/-- Block comments open with a slash and a star. -/
theorem opening_eq_blockComment_iff {shellComments : Bool} {text : List Char} :
    opening shellComments text = .blockComment ↔ ∃ rest, text = '/' :: '*' :: rest := by
  constructor
  · intro h
    unfold opening at h
    split at h
    · exact ⟨_, rfl⟩
    · cases h
    · split at h <;> cases h
    · cases h
    · cases h
    · cases h
  · rintro ⟨rest, rfl⟩
    rfl

/-- Line comments open with two slashes, or with a number sign where that is a comment sign. -/
theorem opening_eq_lineComment_iff {shellComments : Bool} {text : List Char} :
    opening shellComments text = .lineComment ↔
      (∃ rest, text = '/' :: '/' :: rest) ∨
        (shellComments = true ∧ ∃ rest, text = '#' :: rest) := by
  constructor
  · intro h
    unfold opening at h
    split at h
    · cases h
    · exact .inl ⟨_, rfl⟩
    · split at h
      · rename_i hshell
        exact .inr ⟨hshell, _, rfl⟩
      · cases h
    · cases h
    · cases h
    · cases h
  · rintro (⟨rest, rfl⟩ | ⟨rfl, rest, rfl⟩) <;> rfl

/-- Strings open with the mark that closes them. -/
theorem opening_eq_quote_iff {shellComments : Bool} {text : List Char} {mark : Char} :
    opening shellComments text = .quote mark ↔
      (mark = '"' ∨ mark = '\'') ∧ ∃ rest, text = mark :: rest := by
  constructor
  · intro h
    unfold opening at h
    split at h
    · cases h
    · cases h
    · split at h <;> cases h
    · cases h
      exact ⟨.inl rfl, _, rfl⟩
    · cases h
      exact ⟨.inr rfl, _, rfl⟩
    · cases h
  · rintro ⟨rfl | rfl, rest, rfl⟩ <;> rfl

/-- A character is plain if it is no quote and no comment begins with it. -/
theorem opening_eq_plain_iff {shellComments : Bool} {c : Char} {rest : List Char} :
    opening shellComments (c :: rest) = .plain ↔
      c ≠ '"' ∧ c ≠ '\'' ∧ ¬ ['/', '*'] <+: c :: rest ∧ ¬ ['/', '/'] <+: c :: rest ∧
        (shellComments = true → c ≠ '#') := by
  constructor
  · intro h
    refine ⟨?_, ?_, ?_, ?_, ?_⟩
    · intro hc
      subst hc
      cases h
    · intro hc
      subst hc
      cases h
    · intro hbegins
      obtain ⟨tail, htail⟩ := hbegins
      rw [← htail] at h
      cases h
    · intro hbegins
      obtain ⟨tail, htail⟩ := hbegins
      rw [← htail] at h
      cases h
    · rintro rfl rfl
      cases h
  · rintro ⟨hdouble, hsingle, hblock, hline, hshell⟩
    cases hopening : opening shellComments (c :: rest) with
    | plain => rfl
    | lineComment =>
        rcases opening_eq_lineComment_iff.mp hopening with ⟨tail, htail⟩ | ⟨hon, tail, htail⟩
        · exact absurd ⟨tail, htail.symm⟩ hline
        · exact absurd (List.cons.inj htail).1 (hshell hon)
    | blockComment =>
        obtain ⟨tail, htail⟩ := opening_eq_blockComment_iff.mp hopening
        exact absurd ⟨tail, htail.symm⟩ hblock
    | quote mark =>
        obtain ⟨rfl | rfl, tail, htail⟩ := opening_eq_quote_iff.mp hopening
        · exact absurd (List.cons.inj htail).1 hdouble
        · exact absurd (List.cons.inj htail).1 hsingle

/-- Cut a text where its longest plain beginning ends. -/
def plainRun (shellComments : Bool) : List Char → List Char × List Char
  | [] => ([], [])
  | c :: rest =>
      if opening shellComments (c :: rest) = .plain then
        let (run, rest) := plainRun shellComments rest
        (c :: run, rest)
      else
        ([], c :: rest)

/-- Cut the inside of a block comment just past its first end marker. -/
def blockEnd? : List Char → Option (List Char × List Char)
  | '*' :: '/' :: rest => some (['*', '/'], rest)
  | c :: rest => (blockEnd? rest).map fun (body, rest) => (c :: body, rest)
  | [] => none

/-- A block comment goes on behind a character with which its end marker does not begin. -/
theorem blockEnd?_cons {c : Char} {rest : List Char}
    (h : ∀ after, c :: rest ≠ '*' :: '/' :: after) :
    blockEnd? (c :: rest) = (blockEnd? rest).map fun (body, rest) => (c :: body, rest) := by
  rw [blockEnd?]
  intro after hstar hslash
  subst hstar hslash
  exact h after rfl

/-- A lexeme read from the front of a text. -/
structure Step where
  lexeme : Lexeme
  /-- The text after the lexeme. -/
  rest : List Char
  /-- The lexeme is a block comment without its end marker, so the next line begins inside it. -/
  inComment : Bool
  deriving DecidableEq, Repr

/-- Read the first lexeme of a text outside comments that begins with `c` and goes on with
`rest`. -/
def firstLexeme (shellComments : Bool) (c : Char) (rest : List Char) : Step :=
  match opening shellComments (c :: rest) with
  | .plain =>
      let (run, rest) := plainRun shellComments rest
      ⟨⟨.normal, c :: run⟩, rest, false⟩
  | .lineComment => ⟨⟨.comment, c :: rest⟩, [], false⟩
  | .blockComment =>
      match blockEnd? (rest.drop 1) with
      | some (body, after) => ⟨⟨.comment, c :: rest.take 1 ++ body⟩, after, false⟩
      | none => ⟨⟨.comment, c :: rest⟩, [], true⟩
  | .quote mark =>
      match Quote.close? '\\' mark [c] rest with
      | some (body, after) => ⟨⟨.string, c :: body⟩, after, false⟩
      | none => ⟨⟨.error, c :: rest⟩, [], false⟩

/-- The two parts of `plainRun` make up the text. -/
theorem plainRun_append (shellComments : Bool) (chars : List Char) :
    (plainRun shellComments chars).1 ++ (plainRun shellComments chars).2 = chars := by
  induction chars with
  | nil => rfl
  | cons c rest ih =>
      rw [plainRun]
      split
      · rw [List.cons_append, ih]
      · rfl

/-- The two parts of `blockEnd?` make up the text. -/
theorem append_of_blockEnd? {chars body rest : List Char}
    (h : blockEnd? chars = some (body, rest)) : chars = body ++ rest := by
  fun_induction blockEnd? chars generalizing body rest with
  | case1 after =>
      obtain ⟨rfl, rfl⟩ := by simpa using h
      rfl
  | case2 c chars _ ih =>
      obtain ⟨⟨body', rest'⟩, hend, hparts⟩ := Option.map_eq_some_iff.mp h
      obtain ⟨rfl, rfl⟩ := by simpa using hparts
      rw [ih hend, List.cons_append]
  | case3 => simp at h

/-- A lexeme and the text after it make up the text it was read from. -/
theorem firstLexeme_append (shellComments : Bool) (c : Char) (rest : List Char) :
    (firstLexeme shellComments c rest).lexeme.chars ++
      (firstLexeme shellComments c rest).rest = c :: rest := by
  unfold firstLexeme
  split
  · exact congrArg (c :: ·) (plainRun_append shellComments rest)
  · simp
  · split
    · rename_i body after hend
      simp only [List.cons_append, List.append_assoc, ← append_of_blockEnd? hend,
        List.take_append_drop]
    · simp
  · split
    · rename_i body after hclose
      simp [Quote.append_of_close? hclose]
    · simp

/-- A lexeme takes at least the first character. -/
theorem exists_firstLexeme_chars (shellComments : Bool) (c : Char) (rest : List Char) :
    ∃ more, (firstLexeme shellComments c rest).lexeme.chars = c :: more := by
  unfold firstLexeme
  split
  · exact ⟨_, rfl⟩
  · exact ⟨_, rfl⟩
  · split <;> exact ⟨_, rfl⟩
  · split <;> exact ⟨_, rfl⟩

/-- The text after a lexeme is shorter than the text it was read from. -/
theorem length_firstLexeme_rest (shellComments : Bool) (c : Char) (rest : List Char) :
    (firstLexeme shellComments c rest).rest.length < (c :: rest).length := by
  obtain ⟨more, hmore⟩ := exists_firstLexeme_chars shellComments c rest
  have happend := firstLexeme_append shellComments c rest
  rw [hmore] at happend
  rw [← happend]
  simp only [List.cons_append, List.length_cons, List.length_append]
  omega

/-- The lexemes of a text, and whether the next line begins inside a block comment. -/
structure Reading where
  lexemes : List Lexeme
  inComment : Bool
  deriving DecidableEq, Repr

/-- Put the lexeme of a step in front of what was read after it. -/
def Step.followedBy (step : Step) (later : Reading) : Reading :=
  ⟨step.lexeme :: later.lexemes, step.inComment || later.inComment⟩

/-- Read a text that begins outside comments. -/
def readCode (shellComments : Bool) : List Char → Reading
  | [] => ⟨[], false⟩
  | c :: rest =>
      let step := firstLexeme shellComments c rest
      step.followedBy (readCode shellComments step.rest)
termination_by chars => chars.length
decreasing_by exact length_firstLexeme_rest shellComments c rest

/-- The lexemes of a text make it up. -/
theorem flatten_readCode (shellComments : Bool) (chars : List Char) :
    flatten (readCode shellComments chars).lexemes = chars := by
  fun_induction readCode shellComments chars with
  | case1 => rfl
  | case2 c rest step ih =>
      rw [Step.followedBy, flatten_cons, ih]
      exact firstLexeme_append shellComments c rest

/-- Read a text that begins inside a block comment. An empty text leaves the comment open and has
no lexemes. -/
def readComment (shellComments : Bool) : List Char → Reading
  | [] => ⟨[], true⟩
  | c :: rest =>
      match blockEnd? (c :: rest) with
      | some (body, after) =>
          Step.followedBy ⟨⟨.comment, body⟩, after, false⟩ (readCode shellComments after)
      | none => ⟨[⟨.comment, c :: rest⟩], true⟩

/-- The lexemes of a text that begins inside a block comment make it up. -/
theorem flatten_readComment (shellComments : Bool) (chars : List Char) :
    flatten (readComment shellComments chars).lexemes = chars := by
  fun_cases readComment shellComments chars with
  | case1 => rfl
  | case2 c rest body after hend =>
      rw [Step.followedBy, flatten_cons, flatten_readCode]
      exact (append_of_blockEnd? hend).symm
  | case3 => simp

end Lexeme

end Highlight
